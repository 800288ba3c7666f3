import Biotope.Proofs.Recovery

/-!
# Returning creatures in any order

Whether a creature founds a species depends on what was returned before it. How many
species are founded does not, and each one is counted and cools the pool in the same way.
Two pools that have got the same creatures in different orders differ only inside their
buckets.
-/

namespace Biotope

namespace Gauge

def bump (g : Gauge) : Gauge :=
  { g with current := g.current + 1, high := max g.high (g.current + 1) }

theorem increment_bump {g : Gauge} (h : g.current ≠ Int64.maxValue) :
    increment g = .ok (g.current + 1) g.bump := by
  simp [increment, h, bump]

theorem of_increment_bump {g g' : Gauge} {v : Int64} (h : increment g = .ok v g') :
    g.current ≠ Int64.maxValue ∧ g' = g.bump := by
  by_cases hm : g.current = Int64.maxValue
  · rw [increment_max hm] at h
    cases h
  · rw [increment_bump hm] at h
    cases h
    exact ⟨hm, rfl⟩

end Gauge

namespace Pool

open Act

/-! ## Two buckets -/

theorem insertBucket_comm {i j : SpeciesId} (h : i ≠ j) (s t : Species)
    (bs : List (SpeciesId × Species)) :
    insertBucket i s (insertBucket j t bs) = insertBucket j t (insertBucket i s bs) := by
  have hv : i.value ≠ j.value := by
    intro e
    apply h
    cases i
    cases j
    simpa using e
  induction bs with
  | nil => grind [insertBucket]
  | cons b bs ih => grind [insertBucket]

theorem insertBucket_insertBucket (id : SpeciesId) (s t : Species)
    (bs : List (SpeciesId × Species)) :
    insertBucket id t (insertBucket id s bs) = insertBucket id t bs := by
  induction bs with
  | nil => simp [insertBucket]
  | cons b bs ih => grind [insertBucket]

theorem find?_setBucket (p : Pool) (i j : SpeciesId) (s : Species) :
    (p.setBucket i s).find? j = if j = i then some s else p.find? j := by
  unfold find? setBucket
  induction p.buckets with
  | nil => grind [insertBucket]
  | cons b bs ih => grind [insertBucket]

/-! ## Pools that differ inside their buckets -/

def bags (bs : List (SpeciesId × Species)) : List (SpeciesId × Multiset Gene) :=
  bs.map fun b => (b.1, b.2.bag)

structure Alike (p q : Pool) : Prop where
  bags : bags p.buckets = bags q.buckets
  temperature : p.temperature = q.temperature
  genes : p.genes = q.genes
  species : p.species = q.species
  creatures : p.creatures = q.creatures

theorem bags_insertBucket {id : SpeciesId} {s t : Species} (hst : s.bag = t.bag) :
    ∀ {bs cs : List (SpeciesId × Species)}, bags bs = bags cs →
      bags (insertBucket id s bs) = bags (insertBucket id t cs)
  | [], [], _ => by simp [insertBucket, bags, hst]
  | [], _ :: _, h | _ :: _, [], h => by simp [bags] at h
  | b :: bs, c :: cs, h => by
    simp only [bags, List.map_cons, List.cons.injEq, Prod.mk.injEq] at h
    obtain ⟨⟨hid, hbag⟩, htail⟩ := h
    have ih := @bags_insertBucket id s t hst _ _ htail
    simp only [bags] at ih
    simp only [insertBucket, hid]
    by_cases heq : c.1 = id
    · simp [bags, heq, hst, htail]
    · by_cases hlt : id.value < c.1.value
      · simp [bags, heq, hlt, hst, hid, hbag, htail]
      · simp [bags, heq, hlt, hid, hbag, ih]

theorem bag_find? (id : SpeciesId) : ∀ {p q : Pool}, bags p.buckets = bags q.buckets →
    (p.find? id).map Species.bag = (q.find? id).map Species.bag := by
  have hbags (p : Pool) : (p.find? id).map Species.bag =
      ((bags p.buckets).find? (·.1 == id)).map (·.2) := by
    simp [find?, bags, List.find?_map, Function.comp_def]
  intro p q h
  rw [hbags, hbags, h]

namespace Alike

variable {p q r : Pool}

theorem refl (p : Pool) : Alike p p := ⟨rfl, rfl, rfl, rfl, rfl⟩

theorem trans (h : Alike p q) (h' : Alike q r) : Alike p r :=
  ⟨h.bags.trans h'.bags, h.temperature.trans h'.temperature, h.genes.trans h'.genes,
    h.species.trans h'.species, h.creatures.trans h'.creatures⟩

theorem find? (h : Alike p q) (id : SpeciesId) :
    (p.find? id).map Species.bag = (q.find? id).map Species.bag := bag_find? id h.bags

theorem isNone_find? (h : Alike p q) (id : SpeciesId) :
    (p.find? id).isNone = (q.find? id).isNone := by
  simpa using congrArg Option.isNone (h.find? id)

theorem bag_getD (h : Alike p q) (id : SpeciesId) :
    ((p.find? id).getD {}).bag = ((q.find? id).getD {}).bag := by
  have hf := h.find? id
  cases hp : p.find? id with
  | none => cases hq : q.find? id <;> simp [hp, hq] at hf ⊢
  | some s =>
    cases hq : q.find? id with
    | none => simp [hp, hq] at hf
    | some t => simpa [hp, hq] using hf

end Alike

/-! ## One creature -/

def counted (new : Bool) (p : Pool) : Pool :=
  let q := { p with creatures := p.creatures.bump }
  if new then { q with species := q.species.bump }.cool else q

def returned (g : Gene) (p : Pool) : Pool :=
  counted (p.find? g.species).isNone (p.shelve g)

/-- The gauges have room for the creature and the species it may found. -/
structure Room (g : Gene) (p : Pool) : Prop where
  creatures : p.creatures.current ≠ Int64.maxValue
  species : (p.find? g.species).isNone = true → p.species.current ≠ Int64.maxValue

theorem register_ok {id : SpeciesId} {new : Bool} {w : World}
    (hc : w.pool.creatures.current ≠ Int64.maxValue)
    (hs : new = true → w.pool.species.current ≠ Int64.maxValue) :
    ∃ v, register id new w = .ok () v ∧ v.pool = counted new w.pool := by
  have hcount := count_ok (w := w) (t := .creatures) (Gauge.increment_bump hc)
  cases new with
  | false => exact ⟨_, bind_ok hcount, rfl⟩
  | true =>
    have hfound := count_ok (w := { w with pool := { w.pool with creatures := w.pool.creatures.bump } })
      (t := .species) (Gauge.increment_bump (hs rfl))
    exact ⟨_, (bind_ok hcount).trans (bind_ok hfound), rfl⟩

theorem of_register_ok {id : SpeciesId} {new : Bool} {w v : World} {u : Unit}
    (h : register id new w = .ok u v) : w.pool.creatures.current ≠ Int64.maxValue ∧
      (new = true → w.pool.species.current ≠ Int64.maxValue) := by
  obtain ⟨_, x, h1, h⟩ := of_bind_ok h
  obtain ⟨n, c, hc, rfl⟩ := of_count_ok h1
  refine ⟨(Gauge.of_increment_bump hc).1, fun hn => ?_⟩
  rw [if_pos hn] at h
  obtain ⟨_, x, h1, -⟩ := of_bind_ok h
  obtain ⟨m, d, hd, -⟩ := of_count_ok h1
  exact (Gauge.of_increment_bump hd).1

theorem put_of_room {g : Gene} {w : World} (h : Room g w.pool) :
    ∃ v, put g w = .ok () v ∧ v.pool = returned g w.pool := by
  obtain ⟨v, hv, hp⟩ := @register_ok g.species _
    { notified w with pool := w.pool.shelve g, filed := g :: w.filed } h.creatures h.species
  refine ⟨v, entering_ok ?_, hp⟩
  rw [insert_eq, notified_pool, notified_filed]
  exact hv

theorem of_put_returned {g : Gene} {w v : World} {u : Unit} (h : put g w = .ok u v) :
    Room g w.pool ∧ v.pool = returned g w.pool := by
  have hins := of_entering_ok h
  rw [insert_eq, notified_pool] at hins
  obtain ⟨hc, hs⟩ := of_register_ok hins
  have hroom : Room g w.pool := ⟨hc, hs⟩
  obtain ⟨v', hv, hp⟩ := put_of_room hroom
  cases h.symm.trans hv
  exact ⟨hroom, hp⟩

theorem put_of_not_room {g : Gene} {w : World} (h : ¬ Room g w.pool) :
    ∃ v, put g w = .error .sumOverflow v := by
  let u : World := { notified w with pool := w.pool.shelve g, filed := g :: w.filed }
  have hregister : ∃ v, register g.species (w.pool.find? g.species).isNone u =
      .error .sumOverflow v := by
    by_cases hc : u.pool.creatures.current = Int64.maxValue
    · exact ⟨_, bind_error (count_error (Gauge.increment_max hc))⟩
    · have hcount := count_ok (w := u) (t := .creatures) (Gauge.increment_bump hc)
      obtain ⟨hnew, hs⟩ : (w.pool.find? g.species).isNone = true ∧
          w.pool.species.current = Int64.maxValue := by
        by_contra hn
        exact h ⟨hc, fun hnew hs => hn ⟨hnew, hs⟩⟩
      rw [register, bind_ok hcount, if_pos hnew]
      exact ⟨_, bind_error (count_error (Gauge.increment_max hs))⟩
  obtain ⟨v, hv⟩ := hregister
  refine ⟨_, entering_error (v := v) ?_⟩
  rw [insert_eq, notified_pool, notified_filed]
  exact hv

theorem of_put_error_room {g : Gene} {w v : World} {e : Fault} (h : put g w = .error e v) :
    e = .sumOverflow ∧ ¬ Room g w.pool := by
  have hroom : ¬ Room g w.pool := by
    intro hroom
    obtain ⟨u, hu, -⟩ := put_of_room hroom
    rw [hu] at h
    cases h
  obtain ⟨u, hu⟩ := put_of_not_room hroom
  rw [hu] at h
  cases h
  exact ⟨rfl, hroom⟩

namespace Alike

variable {p q : Pool} (h : Alike p q)
include h

theorem room {g : Gene} (hp : Room g p) : Room g q :=
  ⟨h.creatures ▸ hp.creatures, fun hn => h.species ▸ hp.species (h.isNone_find? _ ▸ hn)⟩

theorem counted (new : Bool) : Alike (counted new p) (counted new q) := by
  unfold Pool.counted
  by_cases hn : new = true
  · simp only [if_pos hn, cool, adjust, h.temperature]
    exact ⟨h.bags, rfl, h.genes, congrArg Gauge.bump h.species, congrArg Gauge.bump h.creatures⟩
  · simp only [if_neg hn]
    exact ⟨h.bags, h.temperature, h.genes, h.species, congrArg Gauge.bump h.creatures⟩

theorem setBucket (id : SpeciesId) {s t : Species} (hst : s.bag = t.bag) :
    Alike (p.setBucket id s) (q.setBucket id t) :=
  ⟨bags_insertBucket hst h.bags, h.temperature, h.genes, h.species, h.creatures⟩

theorem returned (g : Gene) : Alike (returned g p) (returned g q) := by
  unfold Pool.returned
  rw [h.isNone_find?]
  exact (h.setBucket _ (by simp [h.bag_getD])).counted _

end Alike

/-! ## Two creatures -/

theorem find?_counted (new : Bool) (p : Pool) (id : SpeciesId) :
    (counted new p).find? id = p.find? id := by
  cases new <;> rfl

theorem setBucket_setBucket (p : Pool) (id : SpeciesId) (s t : Species) :
    (p.setBucket id s).setBucket id t = p.setBucket id t := by
  simp [setBucket, insertBucket_insertBucket]

theorem setBucket_counted (new : Bool) (p : Pool) (id : SpeciesId) (s : Species) :
    (counted new p).setBucket id s = counted new (p.setBucket id s) := by
  cases new <;> rfl

theorem counted_comm (a b : Bool) (p : Pool) : counted a (counted b p) = counted b (counted a p) := by
  cases a <;> cases b <;> rfl

theorem returned_of_eq {g h : Gene} (he : g.species = h.species) (p : Pool) :
    returned g (returned h p) = counted false (counted (p.find? h.species).isNone
      (p.setBucket h.species ((((p.find? h.species).getD {}).add h).add g))) := by
  have hb : (returned h p).find? h.species = some (((p.find? h.species).getD {}).add h) := by
    simp [returned, shelve, find?_counted, find?_setBucket]
  rw [returned, shelve, he, hb]
  simp only [Option.isNone_some, Option.getD_some, returned, shelve, setBucket_counted,
    setBucket_setBucket]

theorem returned_comm (g h : Gene) (p : Pool) :
    Alike (returned g (returned h p)) (returned h (returned g p)) := by
  by_cases he : g.species = h.species
  · -- only the first one may find no bucket, whichever it is
    rw [returned_of_eq he, returned_of_eq he.symm, he]
    have hbag (s : Species) : ((s.add h).add g).bag = ((s.add g).add h).bag := by
      simp [Multiset.cons_swap]
    exact (((Alike.refl p).setBucket _ (hbag _)).counted _).counted _
  · have hg : (returned h p).find? g.species = p.find? g.species := by
      simp [returned, shelve, find?_counted, find?_setBucket, he]
    have hh : (returned g p).find? h.species = p.find? h.species := by
      simp [returned, shelve, find?_counted, find?_setBucket, Ne.symm he]
    have hset (s t : Species) : (p.setBucket h.species t).setBucket g.species s =
        (p.setBucket g.species s).setBucket h.species t := by
      simp [setBucket, insertBucket_comm he]
    rw [returned, shelve, hg, returned.eq_def h (returned g p), shelve, hh]
    simp only [returned, shelve, setBucket_counted, hset]
    rw [counted_comm]
    exact .refl _

theorem isNone_find?_returned (g : Gene) (p : Pool) (id : SpeciesId) :
    ((returned g p).find? id).isNone = (id ≠ g.species && (p.find? id).isNone) := by
  by_cases h : id = g.species <;> simp [returned, shelve, find?_counted, find?_setBucket, h]

theorem creatures_returned (g : Gene) (p : Pool) : (returned g p).creatures = p.creatures.bump := by
  unfold returned
  cases (p.find? g.species).isNone <;> rfl

theorem species_returned (g : Gene) (p : Pool) : (returned g p).species =
    if (p.find? g.species).isNone then p.species.bump else p.species := by
  unfold returned
  cases (p.find? g.species).isNone <;> rfl

theorem room_returned {g h : Gene} {p : Pool} : Room g (returned h p) ↔
    p.creatures.current + 1 ≠ Int64.maxValue ∧
      (g.species ≠ h.species → (p.find? g.species).isNone = true →
        (if (p.find? h.species).isNone then p.species.bump else p.species).current ≠
          Int64.maxValue) := by
  constructor
  · intro hr
    have hc := hr.creatures
    rw [creatures_returned] at hc
    refine ⟨hc, fun hne hn => ?_⟩
    rw [← species_returned]
    exact hr.species (by simp [isNone_find?_returned, hne, hn])
  · rintro ⟨hc, hs⟩
    refine ⟨by rwa [creatures_returned], fun hn => ?_⟩
    simp only [isNone_find?_returned, Bool.and_eq_true, decide_eq_true_eq] at hn
    rw [species_returned]
    exact hs hn.1 hn.2

/-- If there is room for two creatures one after the other, there is in the other order. -/
theorem room_comm {g h : Gene} {p : Pool} (hh : Room h p) (hg : Room g (returned h p)) :
    Room g p ∧ Room h (returned g p) := by
  obtain ⟨hc, hs⟩ := room_returned.mp hg
  refine ⟨⟨hh.creatures, fun hn => ?_⟩, room_returned.mpr ⟨hc, fun hne hn => ?_⟩⟩
  · by_cases he : g.species = h.species
    · exact hh.species (he ▸ hn)
    · by_cases hn' : (p.find? h.species).isNone = true
      · exact hh.species hn'
      · simpa [hn'] using hs he hn
  · by_cases hn' : (p.find? g.species).isNone = true
    · simpa [hn, hn'] using hs hne.symm hn'
    · simpa [hn'] using hh.species hn

/-! ## Many creatures -/

def putAll : List Gene → Act Unit
  | [] => return
  | g :: gs => do
    put g
    putAll gs

/-- The same creatures come to pools that differ inside their buckets only. -/
theorem putAll_alike {gs : List Gene} {w v x : World} {u : Unit} (h : Alike w.pool v.pool)
    (hx : putAll gs w = .ok u x) : ∃ y, putAll gs v = .ok () y ∧ Alike x.pool y.pool := by
  induction gs generalizing w v with
  | nil =>
    cases hx
    exact ⟨v, rfl, h⟩
  | cons g gs ih =>
    obtain ⟨_, w', hw, hx⟩ := of_bind_ok hx
    obtain ⟨hroom, hwp⟩ := of_put_returned hw
    obtain ⟨v', hv, hvp⟩ := put_of_room (h.room hroom)
    obtain ⟨y, hy, ha⟩ := ih (v := v') (by rw [hwp, hvp]; exact h.returned g) hx
    exact ⟨y, (bind_ok hv).trans hy, ha⟩

theorem putAll_swap (g h : Gene) (gs : List Gene) {w v : World} {u : Unit}
    (hv : putAll (g :: h :: gs) w = .ok u v) :
    ∃ x, putAll (h :: g :: gs) w = .ok () x ∧ Alike v.pool x.pool := by
  obtain ⟨_, w₁, hw₁, hv⟩ := of_bind_ok hv
  obtain ⟨_, w₂, hw₂, hv⟩ := of_bind_ok hv
  obtain ⟨hr₁, hp₁⟩ := of_put_returned hw₁
  obtain ⟨hr₂, hp₂⟩ := of_put_returned hw₂
  rw [hp₁] at hr₂ hp₂
  obtain ⟨hs₁, hs₂⟩ := room_comm hr₁ hr₂
  obtain ⟨x₁, hx₁, hq₁⟩ := put_of_room hs₁
  obtain ⟨x₂, hx₂, hq₂⟩ := put_of_room (hq₁ ▸ hs₂)
  have ha : Alike w₂.pool x₂.pool := by
    rw [hp₂, hq₂, hq₁]
    exact returned_comm h g w.pool
  obtain ⟨x, hx, ha⟩ := putAll_alike ha hv
  exact ⟨x, (bind_ok hx₁).trans ((bind_ok hx₂).trans hx), ha⟩

/-- Creatures can be returned in any order. The pools are the same but for the order inside the
buckets, and no gauge overflows in one order that does not in the other. -/
theorem putAll_perm {gs hs : List Gene} (hp : gs.Perm hs) {w v : World} {u : Unit}
    (h : putAll gs w = .ok u v) : ∃ x, putAll hs w = .ok () x ∧ Alike v.pool x.pool := by
  induction hp generalizing w v with
  | nil => exact ⟨v, h, .refl _⟩
  | cons g _ ih =>
    obtain ⟨_, w', hw, h⟩ := of_bind_ok h
    obtain ⟨x, hx, ha⟩ := ih h
    exact ⟨x, (bind_ok hw).trans hx, ha⟩
  | swap g h' gs => exact putAll_swap h' g gs h
  | trans _ _ ih₁ ih₂ =>
    obtain ⟨x, hx, ha⟩ := ih₁ h
    obtain ⟨y, hy, hb⟩ := ih₂ hx
    exact ⟨y, hy, ha.trans hb⟩

theorem putAll_merge_put : ∃ v x, putAll [.merge, .put, .merge] default = .ok () v ∧
    putAll [.put, .merge, .merge] default = .ok () x ∧ Alike v.pool x.pool := by
  have h₁ : Room .merge (default : World).pool := ⟨by decide, fun _ => by decide⟩
  obtain ⟨w₁, hw₁, hp₁⟩ := put_of_room h₁
  have h₂ : Room .put w₁.pool := by
    rw [hp₁]
    exact room_returned.mpr ⟨by decide, fun _ _ => by decide⟩
  obtain ⟨w₂, hw₂, hp₂⟩ := put_of_room h₂
  have h₃ : Room .merge w₂.pool := by
    rw [hp₂, hp₁]
    refine room_returned.mpr ⟨?_, fun _ hn => ?_⟩
    · rw [creatures_returned]
      decide
    · simp [isNone_find?_returned] at hn
  obtain ⟨w₃, hw₃, -⟩ := put_of_room h₃
  have hv : putAll [.merge, .put, .merge] default = .ok () w₃ := by
    rw [putAll, bind_ok hw₁, putAll, bind_ok hw₂, putAll, bind_ok hw₃]
    rfl
  have hperm : [Gene.merge, .put, .merge].Perm [.put, .merge, .merge] := .swap ..
  obtain ⟨x, hx, ha⟩ := putAll_perm hperm hv
  exact ⟨w₃, x, hv, hx, ha⟩

end Pool

end Biotope
