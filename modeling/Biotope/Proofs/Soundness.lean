import Biotope.Proofs.Acts
import Biotope.Proofs.Buckets
import Biotope.Proofs.Gauges

/-!
# Sound pools

A pool is sound if its creatures are filed under their species and its gauges say what
is in it. Taking a creature out of a sound pool always works, and putting one in works
while fewer than `2 ^ 63 - 1` are held; both leave a sound pool.
-/

namespace Biotope.Pool

open Act

/-- No bucket is empty, none has the identifier that asks for any species, every member is
filed under its species, and the gauges count buckets and members between their marks. -/
structure Sound (p : Pool) : Prop where
  ascending : Ascending p.buckets
  inhabited : ∀ b ∈ p.buckets, b.2.members ≠ #[]
  ne_any : ∀ b ∈ p.buckets, b.1 ≠ .any
  species_eq : ∀ b ∈ p.buckets, ∀ g ∈ b.2.members, g.species = b.1
  counts_species : p.species.current.toInt = p.buckets.length
  counts_creatures : p.creatures.current.toInt = p.held.card
  genes_ordered : p.genes.Ordered
  species_ordered : p.species.Ordered
  creatures_ordered : p.creatures.Ordered

/-- A pool that is sound but for its count of genes. -/
structure Tallied (p : Pool) : Prop where
  filed : Filed p.buckets
  species : p.species.current.toInt = p.buckets.length
  creatures : p.creatures.current.toInt = p.held.card
  species_ordered : p.species.Ordered
  creatures_ordered : p.creatures.Ordered

theorem sound_iff {p : Pool} : p.Sound ↔ p.Tallied ∧ p.genes.Ordered :=
  ⟨fun h => ⟨⟨⟨h.ascending, h.inhabited, h.species_eq⟩, h.counts_species, h.counts_creatures,
      h.species_ordered, h.creatures_ordered⟩, h.genes_ordered⟩,
    fun ⟨h, hg⟩ => ⟨h.filed.ascending, h.filed.inhabited, fun _ hb => h.filed.ne_any hb,
      h.filed.species_eq, h.species, h.creatures, hg, h.species_ordered, h.creatures_ordered⟩⟩

instance (p : Pool) : Decidable p.Tallied :=
  decidable_of_iff (Filed p.buckets ∧ p.species.current.toInt = p.buckets.length ∧
      p.creatures.current.toInt = p.held.card ∧ p.species.Ordered ∧ p.creatures.Ordered)
    ⟨fun ⟨hf, hs, hc, hso, hco⟩ => ⟨hf, hs, hc, hso, hco⟩,
      fun h => ⟨h.filed, h.species, h.creatures, h.species_ordered, h.creatures_ordered⟩⟩

instance (p : Pool) : Decidable p.Sound := decidable_of_iff _ sound_iff.symm

theorem Sound.tallied {p : Pool} (h : p.Sound) : p.Tallied := (sound_iff.mp h).1

theorem Sound.filed {p : Pool} (h : p.Sound) : Filed p.buckets := h.tallied.filed

theorem Tallied.card_lt {p : Pool} (h : p.Tallied) : p.held.card < 2 ^ 63 := by
  have := h.creatures
  have := p.creatures.current.toInt_lt
  omega

theorem sound_empty (t : Probability) : ({ temperature := t } : Pool).Sound :=
  sound_iff.mpr ⟨⟨filed_nil, rfl, rfl, Gauge.ordered_zero, Gauge.ordered_zero⟩, Gauge.ordered_zero⟩

/-! ## One creature less -/

/-- How gauge `g` became `h` when what it counts went from `m` to `n`. -/
structure Recounted (g h : Gauge) (m n : Nat) : Prop where
  current : h.current.toInt - n = g.current.toInt - m
  ordered : g.Ordered → h.Ordered

theorem Recounted.refl (g : Gauge) (n : Nat) : Recounted g g n n := ⟨rfl, id⟩

structure Lost (p : Pool) (g : Gene) (q : Pool) : Prop where
  held : p.held = g ::ₘ q.held
  filed : Filed q.buckets
  genes : q.genes = p.genes
  species : Recounted p.species q.species p.buckets.length q.buckets.length
  creatures : Recounted p.creatures q.creatures p.held.card q.held.card

structure Gained (p : Pool) (g : Gene) (q : Pool) : Prop where
  held : q.held = g ::ₘ p.held
  filed : Filed q.buckets
  genes : q.genes = p.genes
  species : Recounted p.species q.species p.buckets.length q.buckets.length
  creatures : Recounted p.creatures q.creatures p.held.card q.held.card

theorem Tallied.recounted {p q : Pool} (h : p.Tallied) (hf : Filed q.buckets)
    (hs : Recounted p.species q.species p.buckets.length q.buckets.length)
    (hc : Recounted p.creatures q.creatures p.held.card q.held.card) : q.Tallied := by
  have h1 := h.species
  have h2 := h.creatures
  have h3 := hs.current
  have h4 := hc.current
  exact ⟨hf, by omega, by omega, hs.ordered h.species_ordered, hc.ordered h.creatures_ordered⟩

theorem Lost.tallied {p q : Pool} {g : Gene} (h : Lost p g q) (hp : p.Tallied) : q.Tallied :=
  hp.recounted h.filed h.species h.creatures

theorem Gained.tallied {p q : Pool} {g : Gene} (h : Gained p g q) (hp : p.Tallied) : q.Tallied :=
  hp.recounted h.filed h.species h.creatures

theorem Lost.sound {p q : Pool} {g : Gene} (h : Lost p g q) (hp : p.Sound) : q.Sound :=
  sound_iff.mpr ⟨h.tallied hp.tallied, h.genes ▸ hp.genes_ordered⟩

theorem Gained.sound {p q : Pool} {g : Gene} (h : Gained p g q) (hp : p.Sound) : q.Sound :=
  sound_iff.mpr ⟨h.tallied hp.tallied, h.genes ▸ hp.genes_ordered⟩

/-! ## Finding buckets -/

theorem find?_eq_none {p : Pool} {id : SpeciesId} {l r : List (SpeciesId × Species)}
    (ha : Around id l r) (hp : p.buckets = l ++ r) : p.find? id = none := by
  rw [find?, hp, ha.find?_append]
  rfl

theorem find?_eq_some {p : Pool} {id : SpeciesId} {s : Species} {l r : List (SpeciesId × Species)}
    (ha : Around id l r) (hp : p.buckets = l ++ (id, s) :: r) : p.find? id = some s := by
  rw [find?, hp, ha.find?_append_cons]
  rfl

theorem around_of_find? {p : Pool} {id : SpeciesId} {s : Species} (hf : Filed p.buckets)
    (h : p.find? id = some s) : ∃ l r, Around id l r ∧ p.buckets = l ++ (id, s) :: r := by
  obtain ⟨l, r, ha, hc | ⟨t, hc⟩⟩ := exists_around id hf.ascending
  · rw [find?_eq_none ha hc] at h; cases h
  · rw [find?_eq_some ha hc] at h; cases h
    exact ⟨l, r, ha, hc⟩

theorem around_of_find?_none {p : Pool} {id : SpeciesId} (hf : Filed p.buckets)
    (h : p.find? id = none) : ∃ l r, Around id l r ∧ p.buckets = l ++ r := by
  obtain ⟨l, r, ha, hc | ⟨t, hc⟩⟩ := exists_around id hf.ascending
  · exact ⟨l, r, ha, hc⟩
  · rw [find?_eq_some ha hc] at h; cases h

structure Place (p : Pool) (id : SpeciesId) (l r : List (SpeciesId × Species)) : Prop where
  around : Around id l r
  ascending : Ascending (l ++ r)
  others : ∀ b ∈ l ++ r, b ∈ p.buckets
  held : p.held = ((p.find? id).getD {}).bag + contents (l ++ r)
  set : ∀ s, (p.setBucket id s).buckets = l ++ (id, s) :: r

theorem exists_place {p : Pool} (h : Ascending p.buckets) (id : SpeciesId) :
    ∃ l r, Place p id l r := by
  obtain ⟨l, r, ha, hp | ⟨s, hp⟩⟩ := exists_around id h
  · refine ⟨l, r, ha, hp ▸ h, fun b hb => hp ▸ hb, ?_, fun s => ?_⟩
    · rw [find?_eq_none ha hp, held, hp, Option.getD_none, Species.bag_empty, zero_add]
    · simp only [setBucket, hp, insertBucket_absent ha]
  · have hsub : (l ++ r).Sublist p.buckets := by
      rw [hp]
      exact List.Sublist.append_left (List.sublist_cons_self _ _) l
    refine ⟨l, r, ha, h.sublist hsub, fun b hb => hsub.subset hb, ?_, fun t => ?_⟩
    · rw [find?_eq_some ha hp, held, hp, Option.getD_some, contents_append, contents_append,
        contents_cons]
      abel
    · simp only [setBucket, hp, insertBucket_present ha]

theorem held_setBucket {p : Pool} (h : Ascending p.buckets) (id : SpeciesId) (s : Species) :
    (p.setBucket id s).held + ((p.find? id).getD {}).bag = p.held + s.bag := by
  obtain ⟨l, r, hl⟩ := exists_place h id
  rw [held, hl.set, hl.held, contents_append, contents_append, contents_cons]
  abel

/-- A species has a bucket exactly if one of its creatures is held. -/
theorem find?_isSome_iff {p : Pool} {id : SpeciesId} (hf : Filed p.buckets) :
    (p.find? id).isSome ↔ ∃ g ∈ p.held, g.species = id := by
  constructor
  · intro h
    obtain ⟨s, hs⟩ := Option.isSome_iff_exists.mp h
    obtain ⟨l, r, _, hc⟩ := around_of_find? hf hs
    have hb : (id, s) ∈ p.buckets := by rw [hc]; simp
    obtain ⟨g, hg⟩ := Array.exists_mem_of_ne_empty _ (hf.inhabited _ hb)
    exact ⟨g, mem_contents.mpr ⟨_, hb, hg⟩, hf.species_eq _ hb g hg⟩
  · rintro ⟨g, hg, rfl⟩
    obtain ⟨b, hb, hm⟩ := mem_contents.mp hg
    rw [hf.species_eq b hb g hm, find?, Option.isSome_map, List.find?_isSome]
    exact ⟨b, hb, by simp⟩

/-! ## Choice -/

theorem randomSpecies_nil {p : Pool} (h : p.buckets = []) (σ : Stream) :
    p.randomSpecies σ = (.any, σ) := by
  have hlen : ¬ 0 < p.ids.length := by simp [ids, h]
  simp only [randomSpecies, dif_neg hlen]
  rfl

theorem randomSpecies_mem {p : Pool} (h : p.buckets ≠ []) (σ : Stream) :
    ∃ b ∈ p.buckets, ∃ τ, p.randomSpecies σ = (b.1, τ) := by
  have hpos : 0 < p.ids.length := by
    rw [ids, List.length_map]
    exact List.length_pos_iff.mpr h
  let i := Stream.belowHalf p.ids.length hpos σ
  have hm : p.ids[i.1] ∈ p.ids := List.getElem_mem _
  obtain ⟨b, hb, he⟩ := List.mem_map.mp hm
  refine ⟨b, hb, i.2, ?_⟩
  rw [he]
  simp only [randomSpecies, dif_pos hpos]
  rfl

/-! ## Taking -/

def Admits (id : SpeciesId) (g : Gene) : Prop := id = .any ∨ g.species = id

theorem decrement_recounted {g h : Gauge} {v : Int64} {n : Nat} (hd : Gauge.decrement g = .ok v h) :
    Recounted g h (n + 1) n := by
  obtain ⟨hc, ho⟩ := Gauge.decrement_of_ok hd
  exact ⟨by push_cast; omega, ho⟩

theorem increment_recounted {g h : Gauge} {v : Int64} {n : Nat} (hi : Gauge.increment g = .ok v h) :
    Recounted g h n (n + 1) := by
  obtain ⟨hc, ho⟩ := Gauge.increment_of_ok hi
  exact ⟨by push_cast; omega, ho⟩

def release (id : SpeciesId) (creature : Gene) (rest : Species) : Act (Option Gene) := do
  discard <| count .creatures Gauge.decrement
  if rest.isExtinct then
    modifyPool (·.eraseBucket id)
    discard <| count .species Gauge.decrement
    modifyPool heat
    note (.extinct id)
  return some creature

theorem takeFrom_eq {id : SpeciesId} {s rest : Species} {g : Gene} {w : World} {τ : Stream}
    (h : s.select w.stream = (some (g, rest), τ)) :
    takeFrom id s w =
      release id g rest { w with stream := τ, pool := w.pool.setBucket id rest } := by
  have hd : draw s.select w = .ok (some (g, rest)) { w with stream := τ } := by
    simp only [draw, h]
  unfold takeFrom
  rw [bind_ok hd]
  rfl

theorem takeFrom_of_empty {id : SpeciesId} {s : Species} (h : s.members = #[]) (w : World) :
    takeFrom id s w = .ok none w := by
  have hselect : s.select w.stream = (none, w.stream) := by
    simp [Species.select, h]
    rfl
  rw [takeFrom, bind_ok (draw_ok hselect)]
  rfl

section
variable {id : SpeciesId} {s rest : Species} {g : Gene} {l r : List (SpeciesId × Species)}

theorem Lost.of_rest {p q : Pool} (ha : Around id l r) (hf : Filed p.buckets)
    (hp : p.buckets = l ++ (id, s) :: r) (hbag : s.bag = g ::ₘ rest.bag)
    (hne : rest.members ≠ #[]) (hq : q.buckets = l ++ (id, rest) :: r)
    (hg : q.genes = p.genes) (hs : q.species = p.species)
    {v : Int64} (hc : Gauge.decrement p.creatures = .ok v q.creatures) : Lost p g q := by
  obtain ⟨_, hlr, _, hmem⟩ := filed_append_cons.mp (hp ▸ hf)
  have hheld : p.held = g ::ₘ q.held := by
    simp only [Pool.held, hp, hq, contents_append, contents_cons, hbag, Multiset.cons_add,
      Multiset.add_cons]
  refine ⟨hheld, ?_, hg, ?_, ?_⟩
  · rw [hq]
    refine filed_append_cons.mpr ⟨ha.ascending hlr.ascending rest, hlr, hne, fun m hm => ?_⟩
    refine hmem m (Species.mem_bag.mp ?_)
    rw [hbag]
    exact Multiset.mem_cons_of_mem (Species.mem_bag.mpr hm)
  · rw [hs, hp, hq]
    simp only [List.length_append, List.length_cons]
    exact .refl _ _
  · rw [hheld, Multiset.card_cons]
    exact decrement_recounted hc

theorem Lost.of_last {p q : Pool} (hf : Filed p.buckets)
    (hp : p.buckets = l ++ (id, s) :: r) (hbag : s.bag = g ::ₘ rest.bag)
    (he : rest.members = #[]) (hq : q.buckets = l ++ r) (hg : q.genes = p.genes)
    {u v : Int64} (hs : Gauge.decrement p.species = .ok u q.species)
    (hc : Gauge.decrement p.creatures = .ok v q.creatures) : Lost p g q := by
  obtain ⟨_, hlr, _, _⟩ := filed_append_cons.mp (hp ▸ hf)
  have hrest : rest.bag = 0 := by simp [Species.bag, he]
  have hheld : p.held = g ::ₘ q.held := by
    simp only [Pool.held, hp, hq, contents_append, contents_cons, hbag, hrest, Multiset.cons_add,
      Multiset.add_cons, zero_add]
  refine ⟨hheld, hq ▸ hlr, hg, ?_, ?_⟩
  · have hlen : p.buckets.length = q.buckets.length + 1 := by
      rw [hp, hq]
      simp only [List.length_append, List.length_cons]
      omega
    rw [hlen]
    exact decrement_recounted hs
  · rw [hheld, Multiset.card_cons]
    exact decrement_recounted hc

end

theorem of_takeFrom_ok {id : SpeciesId} {s : Species} {w v : World} {x : Option Gene}
    (hf : Filed w.pool.buckets) (hs : w.pool.find? id = some s) (h : takeFrom id s w = .ok x v) :
    ∃ g, x = some g ∧ g.species = id ∧ Lost w.pool g v.pool ∧ Frame w v ∧ v.filed = w.filed := by
  obtain ⟨l, r, ha, hb⟩ := around_of_find? hf hs
  obtain ⟨_, _, hne, hmem⟩ := filed_append_cons.mp (hb ▸ hf)
  obtain ⟨g, rest, τ, hsel, hbag⟩ := Species.select_eq hne w.stream
  have hg : g.species = id := by
    apply hmem g
    rw [← Species.mem_bag, hbag]
    exact Multiset.mem_cons_self ..
  have hset : (w.pool.setBucket id rest).buckets = l ++ (id, rest) :: r := by
    simp only [setBucket, hb, insertBucket_present ha]
  rw [takeFrom_eq hsel, release] at h
  obtain ⟨_, u, h1, h⟩ := of_bind_ok h
  obtain ⟨n, c, hc, rfl⟩ := of_count_ok h1
  by_cases hx : rest.isExtinct = true
  -- the bucket goes with its last member, and only then is the species counted out
  · rw [if_pos hx] at h
    obtain ⟨_, u, h1, h⟩ := of_bind_ok h
    cases h1
    obtain ⟨_, u, h1, h⟩ := of_bind_ok h
    obtain ⟨m, d, hd, rfl⟩ := of_count_ok h1
    cases h
    have hlast : (w.pool.eraseBucket id).buckets = l ++ r := by
      simp only [eraseBucket, hb, ha.filter_append_cons]
    refine ⟨g, rfl, hg, ?_, ⟨rfl, rfl, rfl, fun h => h⟩, rfl⟩
    refine Lost.of_last hf hb hbag (Species.isExtinct_iff.mp hx) ?_ rfl hd hc
    simp only [heat, adjust, setGauge, eraseBucket, hset, ha.filter_append_cons]
  · rw [if_neg hx] at h
    cases h
    refine ⟨g, rfl, hg, ?_, ⟨rfl, rfl, rfl, fun h => h⟩, rfl⟩
    exact Lost.of_rest ha hf hb hbag (fun e => hx (Species.isExtinct_iff.mpr e)) hset rfl rfl hc

theorem takeFrom_done {id : SpeciesId} {s : Species} {w : World} (hp : w.pool.Tallied)
    (hs : w.pool.find? id = some s) : ∃ x v, takeFrom id s w = .ok x v := by
  obtain ⟨l, r, ha, hb⟩ := around_of_find? hp.filed hs
  obtain ⟨_, _, hne, _⟩ := filed_append_cons.mp (hb ▸ hp.filed)
  obtain ⟨g, rest, τ, hsel, hbag⟩ := Species.select_eq hne w.stream
  have hspecies := hp.species
  have hcreatures := hp.creatures
  obtain ⟨_, c, hc, _⟩ := Gauge.decrement_ok (g := w.pool.creatures) (by omega)
  obtain ⟨_, d, hd, _⟩ := Gauge.decrement_ok (g := w.pool.species) (by omega)
  rw [takeFrom_eq hsel, release]
  refine done_bind (count_ok hc) ?_
  by_cases hx : rest.isExtinct = true
  · simp only [if_pos hx]
    exact done_bind rfl (done_bind (count_ok hd) ⟨_, _, rfl⟩)
  · simp only [if_neg hx]
    exact ⟨_, _, rfl⟩

def chosen (id : SpeciesId) (p : Pool) : Draw SpeciesId :=
  if id.isAny then p.randomSpecies else pure id

def takeAt (id : SpeciesId) (p : Pool) : Act (Option Gene) :=
  match p.find? id with
  | none => return none
  | some s => takeFrom id s

theorem take_eq (id : SpeciesId) : take id = entering (getPool >>= fun p =>
    if p.buckets.isEmpty then pure none else draw (chosen id p) >>= fun i => takeAt i p) := by
  unfold take
  congr 2
  funext p
  by_cases he : p.buckets.isEmpty = true
  · rw [if_pos he, if_pos he]
  · rw [if_neg he, if_neg he]
    unfold chosen
    split <;> rfl

theorem isAny_iff {id : SpeciesId} : id.isAny = true ↔ id = .any := by
  simp [SpeciesId.isAny]

theorem chosen_of_ne_any {id : SpeciesId} (hid : id ≠ .any) (p : Pool) (σ : Stream) :
    chosen id p σ = (id, σ) := by
  rw [chosen, if_neg fun h => hid (isAny_iff.mp h)]
  rfl

/-- A pool that holds something passes every request on to a species that would do, and
it has no other one that would. -/
theorem chosen_spec {p : Pool} (hf : Filed p.buckets) (hp : p.buckets ≠ []) (id : SpeciesId)
    (σ : Stream) : ∃ i τ, chosen id p σ = (i, τ) ∧ (∀ g : Gene, g.species = i → Admits id g) ∧
      (p.find? i = none → ∀ g ∈ p.held, ¬ Admits id g) := by
  by_cases ha : id = .any
  · obtain ⟨b, hb, τ, hr⟩ := randomSpecies_mem hp σ
    refine ⟨b.1, τ, ?_, fun g _ => .inl ha, fun hn => ?_⟩
    · rw [chosen, if_pos (isAny_iff.mpr ha), hr]
    · obtain ⟨g, hg⟩ := Array.exists_mem_of_ne_empty _ (hf.inhabited b hb)
      have := (find?_isSome_iff hf).mpr ⟨g, mem_contents.mpr ⟨b, hb, hg⟩, hf.species_eq b hb g hg⟩
      rw [hn] at this
      cases this
  · refine ⟨id, σ, chosen_of_ne_any ha p σ, fun g hg => .inr hg, fun hn g hg hag => ?_⟩
    rcases hag with h | h
    · exact ha h
    · have := (find?_isSome_iff hf).mpr ⟨g, hg, h⟩
      rw [hn] at this
      cases this

inductive Taken (id : SpeciesId) (p : Pool) : Option Gene → Pool → Prop where
  /-- Nothing is held that would do. -/
  | none (h : ∀ g ∈ p.held, ¬ Admits id g) : Taken id p none p
  | some {g : Gene} {q : Pool} (ha : Admits id g) (h : Lost p g q) : Taken id p (some g) q

theorem Taken.tallied {id : SpeciesId} {p q : Pool} {x : Option Gene} (h : Taken id p x q)
    (hp : p.Tallied) : q.Tallied := by
  cases h with
  | none _ => exact hp
  | some _ h => exact h.tallied hp

theorem Taken.genes {id : SpeciesId} {p q : Pool} {x : Option Gene} (h : Taken id p x q) :
    q.genes = p.genes := by
  cases h with
  | none _ => rfl
  | some _ h => exact h.genes

theorem Taken.card_le {id : SpeciesId} {p q : Pool} {x : Option Gene} (h : Taken id p x q) :
    q.held.card ≤ p.held.card := by
  cases h with
  | none _ => exact le_refl _
  | some _ h =>
    rw [h.held, Multiset.card_cons]
    exact Nat.le_succ _

theorem Taken.sound {id : SpeciesId} {p q : Pool} {x : Option Gene} (h : Taken id p x q)
    (hp : p.Sound) : q.Sound := by
  cases h with
  | none _ => exact hp
  | some _ h => exact h.sound hp

theorem Taken.filed {id : SpeciesId} {p q : Pool} {x : Option Gene} (h : Taken id p x q)
    (hp : Filed p.buckets) : Filed q.buckets := by
  cases h with
  | none _ => exact hp
  | some _ h => exact h.filed

theorem held_nil {p : Pool} (h : p.buckets = []) : p.held = 0 := by
  rw [held, h, contents_nil]

theorem of_take_ok {id : SpeciesId} {w v : World} {x : Option Gene} (hf : Filed w.pool.buckets)
    (h : take id w = .ok x v) : Taken id w.pool x v.pool ∧ Frame w v ∧ v.filed = w.filed := by
  rw [take_eq] at h
  obtain ⟨p, u, h1, h⟩ := of_bind_ok (of_entering_ok h)
  cases h1
  rw [notified_pool] at h
  by_cases he : w.pool.buckets = []
  · rw [if_pos (by rw [he]; rfl)] at h
    cases h
    rw [notified_pool, notified_filed]
    exact ⟨.none fun g hg => by rw [held_nil he] at hg; exact absurd hg (Multiset.notMem_zero g),
      frame_notified w, rfl⟩
  · rw [if_neg (by simpa using he)] at h
    -- any species means one that is there, so only a named one can be missing
    obtain ⟨i, τ, hc, hadm, hnone⟩ := chosen_spec hf he id (notified w).stream
    rw [bind_ok (draw_ok hc)] at h
    unfold takeAt at h
    cases hs : w.pool.find? i with
    | none =>
      rw [hs] at h
      cases h
      refine ⟨?_, (frame_notified w).trans (frame_stream _ τ), notified_filed w⟩
      show Taken id w.pool none (notified w).pool
      rw [notified_pool]
      exact .none (hnone hs)
    | some s =>
      rw [hs] at h
      obtain ⟨g, rfl, hg, hl, hfr, hfl⟩ := of_takeFrom_ok
        (w := { notified w with stream := τ }) (by simpa using hf) (by simpa using hs) h
      simp only [notified_pool, notified_filed] at hl hfl
      exact ⟨.some (hadm g hg) hl, (frame_notified w).trans ((frame_stream _ τ).trans hfr), hfl⟩

theorem take_done {w : World} (hp : w.pool.Tallied) (id : SpeciesId) :
    ∃ x v, take id w = .ok x v := by
  rw [take_eq]
  refine done_entering (done_bind rfl ?_)
  rw [notified_pool]
  by_cases he : w.pool.buckets = []
  · rw [if_pos (by rw [he]; rfl)]
    exact ⟨_, _, rfl⟩
  · rw [if_neg (by simpa using he)]
    obtain ⟨i, τ, hc, -⟩ := chosen_spec hp.filed he id (notified w).stream
    refine done_bind (draw_ok hc) ?_
    unfold takeAt
    cases hs : w.pool.find? i with
    | none => exact ⟨_, _, rfl⟩
    | some s =>
      exact takeFrom_done (w := { notified w with stream := τ }) (by simpa using hp)
        (by simpa using hs)

/-- A request is served while something is held that would do. -/
theorem take_some {w : World} (hp : w.pool.Tallied) {id : SpeciesId} {c : Gene}
    (hc : c ∈ w.pool.held) (ha : Admits id c) :
    ∃ g v, take id w = .ok (some g) v ∧ Admits id g := by
  obtain ⟨x, v, hv⟩ := take_done hp id
  obtain ⟨htaken, -, -⟩ := of_take_ok hp.filed hv
  generalize v.pool = q at htaken
  cases htaken with
  | none hnone => exact absurd ha (hnone c hc)
  | some hg _ => exact ⟨_, v, hv, hg⟩

/-! ## Putting -/

def register (id : SpeciesId) (new : Bool) : Act Unit := do
  discard <| count .creatures Gauge.increment
  if new then
    discard <| count .species Gauge.increment
    modifyPool cool
    note (.founded id)

theorem insert_eq (g : Gene) (w : World) :
    insert g w = register g.species (w.pool.find? g.species).isNone
      { w with
        pool := w.pool.setBucket g.species (((w.pool.find? g.species).getD {}).add g)
        filed := g :: w.filed } := rfl

section
variable {g : Gene} {s : Species} {l r : List (SpeciesId × Species)}

theorem Gained.of_member {p q : Pool} (ha : Around g.species l r) (hf : Filed p.buckets)
    (hp : p.buckets = l ++ (g.species, s) :: r) (hq : q.buckets = l ++ (g.species, s.add g) :: r)
    (hg : q.genes = p.genes) (hs : q.species = p.species)
    {v : Int64} (hc : Gauge.increment p.creatures = .ok v q.creatures) : Gained p g q := by
  obtain ⟨_, hlr, _, hmem⟩ := filed_append_cons.mp (hp ▸ hf)
  have hheld : q.held = g ::ₘ p.held := by
    simp only [Pool.held, hp, hq, contents_append, contents_cons, Species.bag_add,
      Multiset.cons_add, Multiset.add_cons]
  refine ⟨hheld, ?_, hg, ?_, ?_⟩
  · rw [hq]
    refine filed_append_cons.mpr ⟨ha.ascending hlr.ascending _, hlr, s.members_add_ne g, ?_⟩
    intro m hm
    rw [← Species.mem_bag, Species.bag_add, Multiset.mem_cons, Species.mem_bag] at hm
    rcases hm with rfl | hm
    · rfl
    · exact hmem m hm
  · rw [hs, hp, hq]
    simp only [List.length_append, List.length_cons]
    exact .refl _ _
  · rw [hheld, Multiset.card_cons]
    exact increment_recounted hc

theorem Gained.of_founder {p q : Pool} (ha : Around g.species l r) (hf : Filed p.buckets)
    (hp : p.buckets = l ++ r) (hq : q.buckets = l ++ (g.species, ({} : Species).add g) :: r)
    (hg : q.genes = p.genes) {u v : Int64} (hs : Gauge.increment p.species = .ok u q.species)
    (hc : Gauge.increment p.creatures = .ok v q.creatures) : Gained p g q := by
  have hlr : Filed (l ++ r) := hp ▸ hf
  have hheld : q.held = g ::ₘ p.held := by
    simp only [Pool.held, hp, hq, contents_append, contents_cons, Species.bag_add,
      Species.bag_empty, Multiset.cons_add, Multiset.add_cons, zero_add]
  refine ⟨hheld, ?_, hg, ?_, ?_⟩
  · rw [hq]
    refine filed_append_cons.mpr
      ⟨ha.ascending hlr.ascending _, hlr, Species.members_add_ne _ g, ?_⟩
    intro m hm
    rw [← Species.mem_bag, Species.bag_add, Species.bag_empty, Multiset.mem_cons] at hm
    rcases hm with rfl | hm
    · rfl
    · exact absurd hm (Multiset.notMem_zero m)
  · have hlen : q.buckets.length = p.buckets.length + 1 := by
      rw [hp, hq]
      simp only [List.length_append, List.length_cons]
      omega
    rw [hlen]
    exact increment_recounted hs
  · rw [hheld, Multiset.card_cons]
    exact increment_recounted hc

end

theorem held_setBucket_add {p : Pool} (h : Ascending p.buckets) (g : Gene) :
    (p.setBucket g.species (((p.find? g.species).getD {}).add g)).held = g ::ₘ p.held := by
  have hset := held_setBucket h g.species (((p.find? g.species).getD {}).add g)
  rw [Species.bag_add, Multiset.add_cons, ← Multiset.cons_add] at hset
  exact add_right_cancel hset

/-- Putting a creature, if it is done, adds it to those held. -/
theorem of_insert_ok {g : Gene} {w v : World} {u : Unit} (hf : Filed w.pool.buckets)
    (h : insert g w = .ok u v) :
    Gained w.pool g v.pool ∧ Frame w v ∧ v.filed = g :: w.filed := by
  rw [insert_eq, register] at h
  obtain ⟨_, x, h1, h⟩ := of_bind_ok h
  obtain ⟨n, c, hc, rfl⟩ := of_count_ok h1
  cases hs : w.pool.find? g.species with
  | none =>
    obtain ⟨l, r, ha, hb⟩ := around_of_find?_none hf hs
    have hset : (w.pool.setBucket g.species (({} : Species).add g)).buckets =
        l ++ (g.species, ({} : Species).add g) :: r := by
      simp only [setBucket, hb, insertBucket_absent ha]
    rw [hs] at h hc
    simp only [Option.isNone_none, if_true] at h
    obtain ⟨_, x, h1, h⟩ := of_bind_ok h
    obtain ⟨m, d, hd, rfl⟩ := of_count_ok h1
    cases h
    exact ⟨Gained.of_founder ha hf hb hset rfl hd hc, ⟨rfl, rfl, rfl, fun h => h⟩, rfl⟩
  | some s =>
    obtain ⟨l, r, ha, hb⟩ := around_of_find? hf hs
    have hset : (w.pool.setBucket g.species (s.add g)).buckets =
        l ++ (g.species, s.add g) :: r := by
      simp only [setBucket, hb, insertBucket_present ha]
    rw [hs] at h hc
    cases h
    exact ⟨Gained.of_member ha hf hb hset rfl rfl hc, ⟨rfl, rfl, rfl, fun h => h⟩, rfl⟩

theorem insert_done {w : World} (hp : w.pool.Tallied) (hc : w.pool.held.card < 2 ^ 63 - 1)
    (g : Gene) : ∃ u v, insert g w = .ok u v := by
  have hspecies := hp.species
  have hcreatures := hp.creatures
  have hle := hp.filed.length_le_card
  change _ ≤ w.pool.held.card at hle
  obtain ⟨_, c, hc, _⟩ := Gauge.increment_ok (g := w.pool.creatures) (by omega)
  obtain ⟨_, d, hd, _⟩ := Gauge.increment_ok (g := w.pool.species) (by omega)
  rw [insert_eq, register]
  refine done_bind (count_ok hc) ?_
  split
  · exact done_bind (count_ok hd) ⟨_, _, rfl⟩
  · exact ⟨_, _, rfl⟩

/-- Putting a creature into a tallied pool breaks off only at the end of the count. By then
the creature is held. -/
theorem of_insert_error {g : Gene} {w v : World} {f : Fault} (hp : w.pool.Tallied)
    (h : insert g w = .error f v) :
    f = .sumOverflow ∧ v.pool.held = g ::ₘ w.pool.held ∧ v.pool.held.card = 2 ^ 63 ∧
      v.pool.genes = w.pool.genes := by
  have hfull : ¬ w.pool.held.card < 2 ^ 63 - 1 := by
    intro hc
    obtain ⟨u, v', hv⟩ := insert_done hp hc g
    rw [hv] at h
    cases h
  have hlt := hp.card_lt
  have hm : w.pool.creatures.current = Int64.maxValue := by
    apply Int64.toInt_inj.mp
    rw [hp.creatures, Gauge.maxValue_toInt]
    omega
  rw [insert_eq, register] at h
  cases h.symm.trans (bind_error (count_error (Gauge.increment_max hm)))
  have hheld := held_setBucket_add hp.filed.ascending g
  refine ⟨rfl, hheld, ?_, rfl⟩
  show (setBucket _ _ _).held.card = _
  rw [hheld, Multiset.card_cons]
  omega

theorem of_put_ok {g : Gene} {w v : World} {u : Unit} (hf : Filed w.pool.buckets)
    (h : put g w = .ok u v) : Gained w.pool g v.pool ∧ Frame w v ∧ v.filed = g :: w.filed := by
  obtain ⟨hg, hfr, hfl⟩ := of_insert_ok (by simpa using hf) (of_entering_ok h)
  rw [notified_pool] at hg
  rw [notified_filed] at hfl
  exact ⟨hg, (frame_notified w).trans hfr, hfl⟩

theorem put_done {w : World} (hp : w.pool.Tallied) (hc : w.pool.held.card < 2 ^ 63 - 1)
    (g : Gene) : ∃ u v, put g w = .ok u v :=
  done_entering (insert_done (by simpa using hp) (by simpa using hc) g)

theorem of_put_error {g : Gene} {w v : World} {f : Fault} (hp : w.pool.Tallied)
    (h : put g w = .error f v) :
    f = .sumOverflow ∧ v.pool.held = g ::ₘ w.pool.held ∧ v.pool.held.card = 2 ^ 63 ∧
      v.pool.genes = w.pool.genes := by
  obtain ⟨u, hu, rfl⟩ := of_entering_error h
  have := of_insert_error (by simpa using hp) hu
  rwa [notified_pool] at this

end Biotope.Pool
