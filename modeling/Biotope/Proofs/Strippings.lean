import Biotope.Proofs.Climates
import Biotope.Proofs.Prunings

/-!
# Strippings

With every toss a success, pruning strips a creature. The root keeps no arm and no item, and each
child outside templates is released by itself, stripped in its turn. In a pool that is as hot as
can be no toss fails until a release founds a species and cools the pool. So a pruning with
certain odds is a stripping up to a toss that comes after such a release.
-/

namespace Biotope

/-- The creature without its arms and items. A template stays. -/
def Gene.strip : Gene → Gene
  | .branch q _ _ => .branch q none none
  | .sequence _ => .sequence []
  | g => g

namespace Pool

/-! ## Many creatures returned -/

def returnedAll (gs : List Gene) (p : Pool) : Pool := gs.foldl (fun q g => returned g q) p

def foundings : List Gene → Pool → List Event
  | [], _ => []
  | g :: gs, p => founding g p ++ foundings gs (returned g p)

theorem temperature_returned (g : Gene) (p : Pool) :
    (returned g p).temperature = replay (founding g p) p.temperature := by
  unfold returned founding
  cases (p.find? g.species).isNone <;> rfl

theorem temperature_returnedAll (gs : List Gene) (p : Pool) :
    (returnedAll gs p).temperature = replay (foundings gs p) p.temperature := by
  induction gs generalizing p with
  | nil => rfl
  | cons g gs ih =>
    rw [foundings, replay_append, ← temperature_returned]
    exact ih (returned g p)

theorem isSome_find?_returned {g : Gene} {p : Pool} {id : SpeciesId}
    (h : (p.find? id).isSome = true) : ((returned g p).find? id).isSome = true := by
  rw [← Option.isNone_eq_false_iff] at h ⊢
  rw [isNone_find?_returned, h, Bool.and_false]

theorem isSome_find?_returnedAll (gs : List Gene) {p : Pool} {id : SpeciesId}
    (h : (p.find? id).isSome = true) : ((returnedAll gs p).find? id).isSome = true := by
  induction gs generalizing p with
  | nil => exact h
  | cons g gs ih => exact ih (isSome_find?_returned h)

/-- Creatures whose species are there found none. -/
theorem foundings_eq_nil {gs : List Gene} {p : Pool}
    (h : ∀ g ∈ gs, (p.find? g.species).isSome = true) : foundings gs p = [] := by
  induction gs generalizing p with
  | nil => rfl
  | cons g gs ih =>
    obtain ⟨hg, hgs⟩ := List.forall_mem_cons.mp h
    have hfounding : founding g p = [] := by
      rw [founding, Option.isNone_eq_false_iff.mpr hg, if_neg Bool.false_ne_true]
    rw [foundings, hfounding, List.nil_append]
    exact ih fun f hf => isSome_find?_returned (hgs f hf)

end Pool

namespace Program

open Act

/-! ## Releases of a pruning -/

def releases : List Deed → List Gene :=
  List.filterMap fun
    | .toss .. => none
    | .release g => some g

theorem releases_append (ds es : List Deed) : releases (ds ++ es) = releases ds ++ releases es :=
  List.filterMap_append

section
variable {p : Probability} {ds : List Deed} {w v : World}

theorem Enacted.pool_eq (h : Enacted p ds w v) : v.pool = Pool.returnedAll (releases ds) w.pool := by
  induction h with
  | nil => rfl
  | cons hd _ ih =>
    cases hd with
    | toss hflip => rw [ih, (Pool.calm_flip p).idle.pool_eq hflip]; rfl
    | release hput => rw [ih, (Pool.of_put_returned hput).2]; rfl

theorem Enacted.creatures_eq (h : Enacted p ds w v) :
    v.pool.creatures.current.toInt = w.pool.creatures.current.toInt + (releases ds).length := by
  induction h with
  | nil => exact (Int.add_zero _).symm
  | @cons d ds w u v hd _ ih =>
    cases hd with
    | toss hflip => rw [ih, (Pool.calm_flip p).idle.pool_eq hflip]; rfl
    | @release g _ _ hput =>
      obtain ⟨hroom, hpool⟩ := Pool.of_put_returned hput
      have hbump := (Gauge.increment_of_ok (Gauge.increment_bump hroom.creatures)).1
      have hlength : (releases (.release g :: ds)).length = (releases ds).length + 1 := rfl
      rw [ih, hpool, Pool.creatures_returned, hbump, hlength]
      push_cast
      omega

end

/-! ## Strippings -/

def stripping (cs : List Gene) : List Deed := cs.flatMap fun c => [.toss c true, .release c.strip]

theorem stripping_append (cs cs' : List Gene) :
    stripping (cs ++ cs') = stripping cs ++ stripping cs' := List.flatMap_append

theorem releases_stripping (cs : List Gene) : releases (stripping cs) = cs.map Gene.strip := by
  induction cs with
  | nil => rfl
  | cons c cs ih => exact congrArg (c.strip :: ·) ih

mutual

theorem prunes_strip : ∀ g, Prunes g (stripping (limbs g)) g.strip
  | .branch q left right => by
    rw [limbs, stripping_append]
    exact .branch (prunesSlot_strip left) (prunesSlot_strip right)
  | .sequence genes => .sequence (prunesAll_strip genes)
  | .get template => .get template
  | .chop _ | .copy _ | .merge | .mutate _ | .put => .leaf rfl

theorem prunesSlot_strip : ∀ slot, PrunesSlot slot (stripping (limbsSlot slot)) none
  | none => .empty
  | some child => by
    rw [limbsSlot, stripping_append]
    exact .cut (prunes_strip child)

theorem prunesAll_strip : ∀ items, PrunesAll items (stripping (limbsAll items)) []
  | [] => .nil
  | item :: items => by
    rw [limbsAll, stripping_append]
    exact .cut (prunes_strip item) (prunesAll_strip items)

end

/-! ## Where a pruning deviates -/

def Deviates (cs : List Gene) (ds : List Deed) : Prop :=
  ∃ done c rest es, cs = done ++ c :: rest ∧ ds = stripping done ++ .toss c false :: es

section
variable {cs cs' : List Gene} {ds es : List Deed}

theorem Deviates.append (h : Deviates cs ds) : Deviates (cs ++ cs') (ds ++ es) := by
  obtain ⟨done, c, rest, fs, rfl, rfl⟩ := h
  exact ⟨done, c, rest ++ cs', fs ++ es, by simp, by simp⟩

theorem Deviates.after (h : Deviates cs' es) : Deviates (cs ++ cs') (stripping cs ++ es) := by
  obtain ⟨done, c, rest, fs, rfl, rfl⟩ := h
  exact ⟨cs ++ done, c, rest, fs, by simp, by simp [stripping_append]⟩

theorem deviates_kept (c : Gene) : Deviates (c :: cs) (.toss c false :: ds) := ⟨[], c, cs, ds, rfl, rfl⟩

end

mutual

/-- A pruning is the stripping or deviates from it. -/
theorem Prunes.strips_or_deviates : ∀ {g h : Gene} {ds : List Deed}, Prunes g ds h →
    ds = stripping (limbs g) ∧ h = g.strip ∨ Deviates (limbs g) ds
  | .branch .., _, _, .branch hl hr => by
    rw [limbs, stripping_append]
    rcases hl.strips_or_deviates with ⟨rfl, rfl⟩ | hl
    · rcases hr.strips_or_deviates with ⟨rfl, rfl⟩ | hr
      · exact .inl ⟨rfl, rfl⟩
      · exact .inr hr.after
    · exact .inr hl.append
  | .sequence _, _, _, .sequence h => by
    rw [limbs]
    rcases h.strips_or_deviates with ⟨rfl, rfl⟩ | h
    · exact .inl ⟨rfl, rfl⟩
    · exact .inr h
  | .get _, _, _, .get _ => .inl ⟨rfl, rfl⟩
  | .chop _, _, _, .leaf _ | .copy _, _, _, .leaf _ | .merge, _, _, .leaf _
  | .mutate _, _, _, .leaf _ | .put, _, _, .leaf _ => .inl ⟨rfl, rfl⟩

theorem PrunesSlot.strips_or_deviates : ∀ {slot x : Option Gene} {ds : List Deed},
    PrunesSlot slot ds x → ds = stripping (limbsSlot slot) ∧ x = none ∨ Deviates (limbsSlot slot) ds
  | none, _, _, .empty => .inl ⟨rfl, rfl⟩
  | some c, _, _, .kept h => by
    rw [limbsSlot, stripping_append]
    rcases h.strips_or_deviates with ⟨rfl, -⟩ | h
    · exact .inr (deviates_kept c).after
    · exact .inr h.append
  | some _, _, _, .cut h => by
    rw [limbsSlot, stripping_append]
    rcases h.strips_or_deviates with ⟨rfl, rfl⟩ | h
    · exact .inl ⟨rfl, rfl⟩
    · exact .inr h.append

theorem PrunesAll.strips_or_deviates : ∀ {gs hs : List Gene} {ds : List Deed}, PrunesAll gs ds hs →
    ds = stripping (limbsAll gs) ∧ hs = [] ∨ Deviates (limbsAll gs) ds
  | [], _, _, .nil => .inl ⟨rfl, rfl⟩
  | c :: _, _, _, .kept h _ => by
    rw [limbsAll, stripping_append]
    rcases h.strips_or_deviates with ⟨rfl, -⟩ | h
    · exact .inr (deviates_kept c).after
    · exact .inr h.append
  | c :: _, _, _, .cut h hgs => by
    rw [limbsAll, stripping_append]
    rcases h.strips_or_deviates with ⟨rfl, rfl⟩ | h
    · rcases hgs.strips_or_deviates with ⟨rfl, rfl⟩ | hgs
      · exact .inl ⟨rfl, rfl⟩
      · have hitem : Deviates ([c] ++ _) (stripping [c] ++ _) := hgs.after
        exact .inr hitem.after
    · exact .inr h.append

end

/-! ## Strippings in a hot pool -/

def Runs (p : Probability) (g : Gene) (w : World) (ds : List Deed) (h : Gene) : Prop :=
  Prunes g ds h ∧ ((∃ v, prune p g w = .ok h v ∧ Enacted p ds w v) ∨
    ∃ v, prune p g w = .error .sumOverflow v ∧ Broken p ds w v)

/-- When the children have been stripped a toss fails. By then a species has been founded, and each
founding has made the pool cooler. -/
structure Cooled (w : World) (done : List Gene) : Prop where
  founded : Pool.foundings (done.map Gene.strip) w.pool ≠ []
  failed : ∃ u v, Enacted .always (stripping done) w u ∧ Pool.flip .always u = .ok false v ∧
    u.pool.temperature = replay (Pool.foundings (done.map Gene.strip) w.pool) .always

section
variable {g h : Gene} {w : World}

theorem cooled_of_enacted {done : List Gene} {c : Gene} {es : List Deed} {v : World}
    (ht : w.pool.temperature = .always)
    (he : Enacted .always (stripping done ++ .toss c false :: es) w v) : Cooled w done := by
  obtain ⟨u, hu, hes⟩ := enacted_append.mp he
  cases hes with
  | cons htoss _ =>
    cases htoss with
    | toss hflip =>
      have htemperature : u.pool.temperature =
          replay (Pool.foundings (done.map Gene.strip) w.pool) .always := by
        rw [hu.pool_eq, releases_stripping, Pool.temperature_returnedAll, ht]
      refine ⟨fun hnone => ?_, u, _, hu, hflip, htemperature⟩
      -- without a founding the pool would be as hot as before
      rw [hnone] at htemperature
      obtain ⟨v, hv, -⟩ := Pool.flip_certain htemperature
      cases hv.symm.trans hflip

theorem broken_cases {done : List Gene} {c : Gene} {es : List Deed} {v : World}
    (hb : Broken .always (stripping done ++ .toss c false :: es) w v) :
    Broken .always (stripping done) w v ∨
      ∃ fs u, Enacted .always (stripping done ++ .toss c false :: fs) w u := by
  obtain ⟨before, k, after, u, heq, hu, hk⟩ := hb
  rcases List.append_eq_append_iff.mp heq with ⟨fs, rfl, hfs⟩ | ⟨fs, hfs, hk'⟩
  · cases fs with
    | nil => cases hfs
    | cons d fs =>
      cases hfs
      exact .inr ⟨fs, u, hu⟩
  · cases fs with
    | nil => cases hk'
    | cons d fs =>
      cases hk'
      exact .inl ⟨before, k, fs, u, hfs, hu, hk⟩

theorem strips_or_cools (g : Gene) (ht : w.pool.temperature = .always) :
    Runs .always g w (stripping (limbs g)) g.strip ∨
      ∃ done c rest es h, limbs g = done ++ c :: rest ∧
        Runs .always g w (stripping done ++ .toss c false :: es) h ∧ Cooled w done := by
  have hfollows := follows_prune .always g
  cases hr : prune .always g w with
  | ok h v =>
    obtain ⟨ds, hds, hv⟩ := (hfollows.ok_iff w h v).mp hr
    rcases hds.strips_or_deviates with ⟨rfl, rfl⟩ | ⟨done, c, rest, es, hlimbs, rfl⟩
    · exact .inl ⟨hds, .inl ⟨v, hr, hv⟩⟩
    · exact .inr ⟨done, c, rest, es, h, hlimbs, ⟨hds, .inl ⟨v, hr, hv⟩⟩, cooled_of_enacted ht hv⟩
  | error e v =>
    obtain ⟨rfl, ds, h, hds, hv⟩ := hfollows.of_error w e v hr
    rcases hds.strips_or_deviates with ⟨rfl, rfl⟩ | ⟨done, c, rest, es, hlimbs, rfl⟩
    · exact .inl ⟨hds, .inr ⟨v, hr, hv⟩⟩
    · rcases broken_cases hv with hbroken | ⟨fs, u, hu⟩
      · refine .inl ⟨prunes_strip g, .inr ⟨v, hr, ?_⟩⟩
        rw [hlimbs, stripping_append]
        exact hbroken.append
      · exact .inr ⟨done, c, rest, es, h, hlimbs, ⟨hds, .inr ⟨v, hr, hv⟩⟩, cooled_of_enacted ht hu⟩

def Known (cs : List Gene) (p : Pool) : Prop :=
  ∀ c ∈ cs, (p.find? c.strip.species).isSome = true

theorem Known.foundings_eq_nil {cs : List Gene} {p : Pool} (h : Known cs p) :
    Pool.foundings (cs.map Gene.strip) p = [] := by
  refine Pool.foundings_eq_nil fun k hk => ?_
  obtain ⟨c, hc, rfl⟩ := List.mem_map.mp hk
  exact h c hc

/-- If the species are there, only the count of creatures can break a stripping off. -/
theorem full_of_broken {cs : List Gene} {v : World} (hknown : Known cs w.pool)
    (hb : Broken .always (stripping cs) w v) :
    Int64.maxValue.toInt < w.pool.creatures.current.toInt + cs.length := by
  obtain ⟨before, k, after, u, heq, hu, hroom, -⟩ := hb
  have hreleases := releases_stripping cs
  rw [heq, releases_append] at hreleases
  have hlength := congrArg List.length hreleases
  rw [List.length_append, List.length_map] at hlength
  have hk : k ∈ cs.map Gene.strip := hreleases ▸ List.mem_append_right _ List.mem_cons_self
  obtain ⟨c, hc, rfl⟩ := List.mem_map.mp hk
  have hspecies : (u.pool.find? c.strip.species).isNone = false := by
    rw [hu.pool_eq]
    exact Option.isNone_eq_false_iff.mpr (Pool.isSome_find?_returnedAll _ (hknown c hc))
  have hfull : u.pool.creatures.current = Int64.maxValue := by
    by_contra hfull
    refine hroom ⟨hfull, fun hnone => ?_⟩
    rw [hspecies] at hnone
    cases hnone
  have hcount := hu.creatures_eq
  rw [hfull] at hcount
  have hlast : (releases (.release c.strip :: after)).length = (releases after).length + 1 := rfl
  omega

theorem strips_of_known (ht : w.pool.temperature = .always) (hknown : Known (limbs g) w.pool) :
    if w.pool.creatures.current.toInt + (limbs g).length ≤ Int64.maxValue.toInt then
      ∃ v, prune .always g w = .ok g.strip v ∧
        v.pool = Pool.returnedAll ((limbs g).map Gene.strip) w.pool
    else ∃ v, prune .always g w = .error .sumOverflow v := by
  rcases strips_or_cools g ht with ⟨-, ⟨v, hv, henacted⟩ | ⟨v, hv, hbroken⟩⟩ |
    ⟨done, c, rest, -, -, hlimbs, -, hcooled⟩
  · have hcount := henacted.creatures_eq
    rw [releases_stripping, List.length_map] at hcount
    have hmax := v.pool.creatures.current.toInt_le
    rw [if_pos (by omega)]
    refine ⟨v, hv, ?_⟩
    rw [henacted.pool_eq, releases_stripping]
  · have hfull := full_of_broken hknown hbroken
    rw [if_neg (by omega)]
    exact ⟨v, hv⟩
  · have hdone : Known done w.pool := fun k hk => hknown k (hlimbs ▸ List.mem_append_left _ hk)
    exact absurd hdone.foundings_eq_nil hcooled.founded

end

/-- Out of a pool as hot as can be, pruning with certain odds strips the creature: each child goes
into the pool by itself, after those below it and without them, and the root is left bare. It goes
another way only from a toss that fails, and no toss fails before a release has founded a species
and so cooled the pool. It breaks off only in a release for which the gauges have no room. So
where all the species are there already it strips the creature whatever is drawn, if that many
creatures can be counted. -/
theorem prune_strips (g : Gene) (w : World) (ht : w.pool.temperature = .always) :
    (Runs .always g w (stripping (limbs g)) g.strip ∨
      ∃ done c rest es h, limbs g = done ++ c :: rest ∧
        Runs .always g w (stripping done ++ .toss c false :: es) h ∧ Cooled w done) ∧
    (Known (limbs g) w.pool →
      if w.pool.creatures.current.toInt + (limbs g).length ≤ Int64.maxValue.toInt then
        ∃ v, prune .always g w = .ok g.strip v ∧
          v.pool = Pool.returnedAll ((limbs g).map Gene.strip) w.pool
      else ∃ v, prune .always g w = .error .sumOverflow v) :=
  ⟨strips_or_cools g ht, strips_of_known ht⟩

def hotbed : Pool where
  buckets := [(Opcode.branch.bare.species, ⟨#[Opcode.branch.bare]⟩), (Gene.put.species, ⟨#[.put]⟩)]
  temperature := .always
  species := .ofValue 2
  creatures := .ofValue 2

/-- Both species are there, so nothing is founded. -/
theorem prune_strips_nested :
    let w : World := { pool := hotbed, stream := .seeded 3 }
    let g : Gene := .branch .even (some (.branch .even (some .put) none)) none
    w.pool.temperature = .always ∧ Known (limbs g) w.pool ∧
      ∃ v, prune .always g w = .ok (.branch .even none none) v ∧
        v.pool = Pool.returnedAll [.put, .branch .even none none] w.pool := by
  intro w g
  have hknown : Known (limbs g) w.pool := by
    intro c hc
    have hc : c ∈ [Gene.put, .branch .even (some .put) none] := hc
    rcases List.mem_cons.mp hc with rfl | hc
    · simp [Pool.find?, hotbed, w, Gene.strip]
    · obtain rfl := List.mem_singleton.mp hc
      simp [Pool.find?, hotbed, w, Gene.strip, Opcode.bare]
  have ht : w.pool.temperature = .always := rfl
  obtain ⟨-, hstrips⟩ := prune_strips g w ht
  have hroom : w.pool.creatures.current.toInt + (limbs g).length ≤ Int64.maxValue.toInt := by
    show (2 : Int64).toInt + ([Gene.put, .branch .even (some .put) none].length : Int) ≤ _
    decide
  rw [if_pos hroom] at hstrips
  exact ⟨ht, hknown, hstrips hknown⟩

/-- The release of a `Put` founds its species and cools the pool, and the next draw is as high as a
draw can be. So the other item stays. -/
theorem prune_cooled :
    let w : World :=
      { pool := { temperature := .always }, stream := .seeded 0 #[0, 0xFFFFFFFFFFFFFFFF] }
    let g : Gene := .sequence [.put, .merge]
    w.pool.temperature = .always ∧ g.strip.opcodes = {.sequence} ∧
      ∃ h v, prune .always g w = .ok h v ∧ h.opcodes = {.sequence, .merge} := by
  intro w g
  have hopcodes : ((prune .always g).run' w).map Gene.opcodes = some {.sequence, .merge} := by
    decide +kernel
  cases hv : prune .always g w with
  | error fault v =>
    rw [EStateM.run', EStateM.run, hv] at hopcodes
    cases hopcodes
  | ok h v =>
    rw [EStateM.run', EStateM.run, hv] at hopcodes
    exact ⟨rfl, rfl, h, v, rfl, Option.some.inj hopcodes⟩

end Program

end Biotope
