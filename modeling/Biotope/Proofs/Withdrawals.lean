import Biotope.Proofs.Balance
import Biotope.Proofs.Supplies

/-!
# Withdrawals

Whether a request for a species is served depends on its bucket alone, in whatever state the pool
is. The gauges count what is handed out, and where they have come to their least value it is not
handed out after all.
-/

namespace Biotope

open Act

namespace Pool

/-! ## Requests for one species -/

section
variable {id : SpeciesId} {s : Species} {w : World}

theorem take_of_find? (hid : id ≠ .any) (hs : w.pool.find? id = some s) :
    take id w = entering (takeFrom id s) w := by
  have hbuckets : ¬ w.pool.buckets.isEmpty = true := by
    intro he
    rw [find?, List.isEmpty_iff.mp he] at hs
    cases hs
  have hchosen := chosen_of_ne_any hid w.pool (notified w).stream
  have hinner : (getPool >>= fun p => if p.buckets.isEmpty then pure none
      else draw (chosen id p) >>= fun i => takeAt i p) (notified w) =
        takeFrom id s (notified w) := by
    rw [bind_ok (a := getPool) rfl, notified_pool, if_neg hbuckets, bind_ok (draw_ok hchosen),
      takeAt, hs]
  rw [take_eq, entering_eq, hinner, entering_eq]

/-- A request for a species, if none is to fail by rehearsal, is a taking. -/
theorem request_eq_take (hd : w.drill = none) (hid : id ≠ .any) :
    ∃ u, Undisturbed w u ∧ request id w = take id u := by
  obtain ⟨y, u, hy, hcalm, hsome⟩ := calm_assign id w
  obtain rfl := hsome hid
  refine ⟨u, hcalm, ?_⟩
  unfold request
  rw [bind_ok hy]
  exact bind_ok (rehearse_none (hcalm.frame.drill.trans hd))

end

/-! ## Counting out -/

structure Affords (p : Pool) (m n : Nat) : Prop where
  creatures : Int64.minValue.toInt + m ≤ p.creatures.current.toInt
  species : Int64.minValue.toInt + n ≤ p.species.current.toInt

structure Counted (p q : Pool) (m n : Nat) : Prop where
  creatures : q.creatures.current.toInt = p.creatures.current.toInt - m
  species : q.species.current.toInt = p.species.current.toInt - n

section
variable {p q r : Pool} {m n m' n' : Nat}

theorem affords_zero (p : Pool) : Affords p 0 0 :=
  ⟨by simpa using p.creatures.current.minValue_le_toInt,
    by simpa using p.species.current.minValue_le_toInt⟩

theorem Affords.of_add (h : Affords p (m + m') (n + n')) : Affords p m n := by
  have hcreatures := h.creatures
  have hspecies := h.species
  push_cast at hcreatures hspecies
  exact ⟨by omega, by omega⟩

theorem Counted.of_eq (h : q = p) : Counted p q 0 0 := by
  subst h
  exact ⟨by simp, by simp⟩

theorem Counted.trans (h₁ : Counted p q m n) (h₂ : Counted q r m' n') :
    Counted p r (m + m') (n + n') := by
  have := h₁.creatures
  have := h₁.species
  have := h₂.creatures
  have := h₂.species
  constructor
  · push_cast
    omega
  · push_cast
    omega

theorem Counted.affords_iff (h : Counted p q m n) :
    Affords p (m + m') (n + n') ↔ Affords q m' n' := by
  have := h.creatures
  have := h.species
  constructor
  · rintro ⟨hcreatures, hspecies⟩
    push_cast at hcreatures hspecies
    exact ⟨by omega, by omega⟩
  · rintro ⟨hcreatures, hspecies⟩
    constructor
    · push_cast
      omega
    · push_cast
      omega

end

/-- The act takes a creature out, and `n` species with it, if the gauges can count them out, and
breaks off if they cannot. -/
def Withdraws (a : Act (Option Gene)) (w : World) (n : Nat) : Prop :=
  (Affords w.pool 1 n ∧
      ∃ g v, a w = .ok (some g) v ∧ Counted w.pool v.pool 1 n ∧ Frame w v) ∨
    ¬ Affords w.pool 1 n ∧ ∃ v, a w = .error .differenceOverflow v

section
variable {a b : Act (Option Gene)} {id : SpeciesId} {s : Species} {w u : World} {n : Nat}

theorem Withdraws.of_eq (h : Withdraws b u n) (hcreatures : u.pool.creatures = w.pool.creatures)
    (hspecies : u.pool.species = w.pool.species) (hframe : Frame w u) (hab : a w = b u) :
    Withdraws a w n := by
  have hafford : Affords u.pool 1 n ↔ Affords w.pool 1 n := by
    constructor
    · rintro ⟨hc, hs⟩
      exact ⟨hcreatures ▸ hc, hspecies ▸ hs⟩
    · rintro ⟨hc, hs⟩
      exact ⟨hcreatures.symm ▸ hc, hspecies.symm ▸ hs⟩
  rw [Withdraws, ← hafford, hab]
  rcases h with ⟨ha, g, v, hv, hcounted, hframe'⟩ | h
  · refine .inl ⟨ha, g, v, hv, ⟨?_, ?_⟩, hframe.trans hframe'⟩
    · rw [← hcreatures]
      exact hcounted.creatures
    · rw [← hspecies]
      exact hcounted.species
  · exact .inr h

theorem Withdraws.entering (h : Withdraws a (notified w) n) : Withdraws (entering a) w n := by
  rw [Withdraws, notified_pool] at h
  rcases h with ⟨ha, g, v, hv, hcounted, hframe⟩ | ⟨ha, v, hv⟩
  · exact .inl ⟨ha, g, v, entering_ok hv, hcounted, (frame_notified w).trans hframe⟩
  · exact .inr ⟨ha, _, entering_error hv⟩

theorem release_withdraws (id : SpeciesId) (g : Gene) (rest : Species) (w : World) :
    Withdraws (release id g rest) w (if rest.isExtinct then 1 else 0) := by
  have hleast := w.pool.species.current.minValue_le_toInt
  unfold release
  by_cases hc : w.pool.creatures.current = Int64.minValue
  · refine .inr ⟨fun h => ?_, _, bind_error (count_error (Gauge.decrement_min hc))⟩
    have hcreatures := h.creatures
    rw [hc] at hcreatures
    omega
  · have hlt := Gauge.lt_of_ne_min hc
    obtain ⟨_, c, hcount, hcurrent, -⟩ := Gauge.decrement_ok hlt
    rw [← Gauge.minValue_toInt] at hlt
    have hpaid := count_ok (w := w) (t := .creatures) hcount
    by_cases hx : rest.isExtinct = true
    · simp only [if_pos hx]
      let u : World :=
        { w with pool := ({ w.pool with creatures := c } : Pool).eraseBucket id }
      -- with the last of a species a second count follows, which can break off by itself
      by_cases hs : w.pool.species.current = Int64.minValue
      · have hbroken := count_error (w := u) (t := .species) (Gauge.decrement_min hs)
        refine .inr ⟨fun h => ?_, _, (bind_ok hpaid).trans ((bind_ok rfl).trans (bind_error hbroken))⟩
        have hspecies := h.species
        rw [hs] at hspecies
        omega
      · have hlt' := Gauge.lt_of_ne_min hs
        obtain ⟨_, d, hcount', hcurrent', -⟩ := Gauge.decrement_ok hlt'
        rw [← Gauge.minValue_toInt] at hlt'
        have hended := count_ok (w := u) (t := .species) hcount'
        exact .inl ⟨⟨by omega, by omega⟩, g, _, (bind_ok hpaid).trans ((bind_ok rfl).trans
          (bind_ok hended)), ⟨hcurrent, hcurrent'⟩, ⟨rfl, rfl, rfl, fun h => h⟩⟩
    · simp only [if_neg hx]
      exact .inl ⟨⟨by omega, by omega⟩, g, _, bind_ok hpaid, ⟨hcurrent, (Int.sub_zero _).symm⟩,
        ⟨rfl, rfl, rfl, fun h => h⟩⟩

theorem takeFrom_withdraws (hne : s.members ≠ #[]) :
    Withdraws (takeFrom id s) w (if s.bag.card = 1 then 1 else 0) := by
  obtain ⟨g, rest, τ, hselect, hbag⟩ := Species.select_eq hne w.stream
  have hlast : s.bag.card = 1 ↔ rest.isExtinct = true := by
    rw [hbag, Multiset.card_cons, Nat.add_eq_right, Multiset.card_eq_zero, bag_eq_zero_iff]
  have hrelease := release_withdraws id g rest { w with stream := τ, pool := w.pool.setBucket id rest }
  simp only [hlast]
  exact hrelease.of_eq rfl rfl ⟨rfl, rfl, rfl, fun h => h⟩ (takeFrom_eq hselect)

/-- A request for a species is served if there is a creature of it that can be counted out. -/
theorem request_withdraws (hd : w.drill = none) (hid : id ≠ .any)
    (hne : w.pool.filedUnder id ≠ 0) :
    Withdraws (request id) w (if (w.pool.filedUnder id).card = 1 then 1 else 0) := by
  obtain ⟨u, hcalm, hrequest⟩ := request_eq_take hd hid
  cases hs : w.pool.find? id with
  | none =>
    rw [filedUnder, hs] at hne
    exact absurd rfl hne
  | some s =>
    have hbag : w.pool.filedUnder id = s.bag := by rw [filedUnder, hs, Option.getD_some]
    have hmembers : s.members ≠ #[] := by
      rw [hbag, Ne, bag_eq_zero_iff, Species.isExtinct_iff] at hne
      exact hne
    have hserved : Withdraws (entering (takeFrom id s)) u (if s.bag.card = 1 then 1 else 0) :=
      (takeFrom_withdraws hmembers).entering
    rw [hbag]
    refine hserved.of_eq (congrArg _ hcalm.pool) (congrArg _ hcalm.pool) hcalm.frame ?_
    rw [hrequest, take_of_find? hid (hcalm.pool ▸ hs)]

theorem take_missed (hid : id ≠ .any) (h : w.pool.filedUnder id = 0) :
    ∃ v, take id w = .ok none v ∧ Undisturbed w v := by
  have hchosen := chosen_of_ne_any hid w.pool (notified w).stream
  have hmissed : takeAt id w.pool (notified w) = .ok none (notified w) := by
    unfold takeAt
    cases hs : w.pool.find? id with
    | none => rfl
    | some s =>
      have hempty : s.members = #[] := by
        rwa [filedUnder, hs, Option.getD_some, bag_eq_zero_iff, Species.isExtinct_iff] at h
      exact takeFrom_of_empty hempty (notified w)
  refine ⟨notified w, ?_, undisturbed_notified w⟩
  rw [take_eq]
  apply entering_ok
  rw [bind_ok (a := getPool) rfl, notified_pool]
  by_cases he : w.pool.buckets.isEmpty = true
  · rw [if_pos he]
    rfl
  · rw [if_neg he, bind_ok (draw_ok hchosen)]
    exact hmissed

theorem request_missed (hd : w.drill = none) (hid : id ≠ .any) (h : w.pool.filedUnder id = 0) :
    ∃ v, request id w = .ok none v ∧ Undisturbed w v := by
  obtain ⟨u, hcalm, hrequest⟩ := request_eq_take hd hid
  rw [← hcalm.pool] at h
  obtain ⟨v, hv, hcalm'⟩ := take_missed hid h
  exact ⟨v, hrequest.trans hv, hcalm.trans hcalm'⟩

end

end Pool

end Biotope
