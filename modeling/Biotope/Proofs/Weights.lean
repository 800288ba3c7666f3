import Biotope.Pool.Seeding
import Biotope.Proofs.Acts
import Biotope.Proofs.Floats

/-!
# Checked settings

Settings that pass their check can be planned: both chances are probabilities, and the
weights are of the right number, none negative and not all zero. The check looks at each
weight and at the sign of their total only. If the weights are so large that their total
is infinite, planning breaks off.
-/

namespace Biotope

open Act

namespace Weights

theorem getLastD_runningSums (acc : Float) (ws : List Float) (d : Float) :
    (runningSums acc ws).getLastD d = ws.foldl (· + ·) acc := by
  induction ws generalizing acc d with
  | nil => rfl
  | cons w ws ih =>
    rw [runningSums, List.getLastD_cons, ih]
    rfl

/-- The sampler starts its sums with the first weight and the check starts at zero. -/
theorem total_cases (w : Float) (ws : List Float) :
    total (w :: ws) = ws.foldl (· + ·) w ∨ total (w :: ws) = 0.0 ∧ ws.foldl (· + ·) w = -0.0 := by
  have h := foldl_add_cases (w :: ws)
  have hneg : (w :: ws).foldl (· + ·) (-0.0) = ws.foldl (· + ·) w := by
    rw [List.foldl_cons, negZero_add]
  rw [hneg] at h
  exact h

structure Checked (ws : List Float) : Prop where
  count : ws.length = 8
  finite : ∀ w ∈ ws, Decimal.isFinite w = true
  not_neg : ∀ w ∈ ws, ¬ w < 0.0
  total : ¬ total ws ≤ 0.0

theorem checked_iff {ws : List Float} : weightsError? ws = none ↔ Checked ws := by
  unfold weightsError?
  constructor
  · intro h
    split at h
    · cases h
    · split at h
      · cases h
      · split at h
        · cases h
        · rename_i hcount hvalue htotal
          simp only [List.any_eq_true, not_exists, not_and, Bool.or_eq_true, Bool.not_eq_true',
            decide_eq_true_eq, not_or, Bool.not_eq_false] at hvalue
          exact ⟨not_not.mp hcount, fun w hw => (hvalue w hw).1, fun w hw => (hvalue w hw).2,
            htotal⟩
  · intro h
    have hvalue : ¬ (ws.any fun w => !Decimal.isFinite w || decide (w < 0.0)) = true := by
      simp only [List.any_eq_true, not_exists, not_and, Bool.or_eq_true, Bool.not_eq_true',
        decide_eq_true_eq, not_or, Bool.not_eq_false]
      exact fun w hw => ⟨h.finite w hw, h.not_neg w hw⟩
    rw [if_neg (not_not.mpr h.count), if_neg hvalue, if_neg h.total]

/-- Checked weights are accepted unless their total is infinite. -/
theorem ofList_checked {ws : List Float} (h : Checked ws) :
    (Decimal.isFinite (Biotope.total ws) = true ∧ ∃ W, ofList ws = .ok (.ok W)) ∨
      (Decimal.isFinite (Biotope.total ws) = false ∧ ofList ws = .error .weightTotal) := by
  have hvalue : ¬ (ws.any fun w => !decide (0.0 ≤ w)) = true := by
    simp only [List.any_eq_true, not_exists, not_and, Bool.not_eq_true', decide_eq_false_iff_not,
      not_not]
    exact fun w hw => Decimal.zero_le_of_not_lt (h.finite w hw) (h.not_neg w hw)
  cases ws with
  | nil => cases h.count
  | cons w ws =>
    have hfold := total_cases w ws
    have hzero : ¬ (ws.foldl (· + ·) w == 0.0) = true := by
      intro heq
      rcases hfold with ht | ⟨ht, -⟩
      · exact h.total (ht ▸ Decimal.le_of_beq heq)
      · apply h.total
        rw [ht]
        decide
    have hfinite : Decimal.isFinite (ws.foldl (· + ·) w) =
        Decimal.isFinite (Biotope.total (w :: ws)) := by
      rcases hfold with ht | ⟨ht, ht'⟩
      · rw [ht]
      · rw [ht, ht']
        rfl
    simp only [ofList, if_neg (not_not.mpr h.count), if_neg hvalue, getLastD_runningSums,
      if_neg hzero, hfinite]
    cases hf : Decimal.isFinite (Biotope.total (w :: ws)) with
    | true => exact .inl ⟨rfl, _, rfl⟩
    | false => exact .inr ⟨rfl, rfl⟩

end Weights

namespace Pool

/-! ## Plans -/

structure Follows (s : PoolSettings) (t : Probability) (g : Grower) : Prop where
  temperature : t.value = s.initialTemperature
  complexity : g.complexity.value = s.relativeComplexity
  depth : g.maximumDepth = s.maximumDepth.toNat
  policy : g.policy = s.getPolicy
  uniform : s.opcodeWeights = none → g.weights = none
  weighted : ∀ ws ∈ s.opcodeWeights, ∃ W ∈ g.weights, Weights.ofList ws = .ok (.ok W)

theorem value_of_ofFloat? {x : Float} {p : Probability} (h : Probability.ofFloat? x = some p) :
    p.value = x := by
  unfold Probability.ofFloat? at h
  split at h
  · cases h
    rfl
  · cases h

theorem follows_of_plan {s : PoolSettings} {t : Probability} {g : Grower}
    (h : plan s = .ok (.ok (t, g))) : Follows s t g := by
  unfold plan at h
  split at h
  · cases h
  · split at h
    · cases h
    · cases h
    · rename_i hcomplexity htemperature
      have ht := value_of_ofFloat? htemperature
      have hc := value_of_ofFloat? hcomplexity
      split at h
      · rename_i hnone
        cases h
        refine ⟨ht, hc, rfl, rfl, fun _ => rfl, ?_⟩
        intro ws hws
        rw [hnone] at hws
        cases hws
      · rename_i ws hsome
        split at h
        · cases h
        · cases h
        · rename_i W hW
          cases h
          refine ⟨ht, hc, rfl, rfl, ?_, ?_⟩
          · intro hnone
            rw [hnone] at hsome
            cases hsome
          · intro vs hvs
            rw [hsome] at hvs
            cases hvs
            exact ⟨W, rfl, hW⟩

section
variable {s : PoolSettings} (h : s.check? = none)
include h

theorem of_check : (∃ c, Probability.ofFloat? s.relativeComplexity = some c) ∧
    (∃ t, Probability.ofFloat? s.initialTemperature = some t) ∧
      ∀ ws ∈ s.opcodeWeights, Weights.Checked ws := by
  unfold PoolSettings.check? at h
  split at h
  · cases h
  · split at h
    · cases h
    · split at h
      · cases h
      · rename_i hcomplexity htemperature _
        rw [Option.isNone_iff_eq_none] at hcomplexity htemperature
        refine ⟨Option.ne_none_iff_exists'.mp hcomplexity,
          Option.ne_none_iff_exists'.mp htemperature, ?_⟩
        intro ws hws
        rw [Option.mem_def.mp hws] at h
        exact Weights.checked_iff.mp h

theorem plan_finite (hfinite : ∀ ws ∈ s.opcodeWeights, Decimal.isFinite (total ws) = true) :
    ∃ t g, plan s = .ok (.ok (t, g)) ∧ Follows s t g := by
  obtain ⟨⟨c, hc⟩, ⟨t, ht⟩, hchecked⟩ := of_check h
  have hplan : ∃ g, plan s = .ok (.ok (t, g)) := by
    cases hws : s.opcodeWeights with
    | none =>
      simp only [plan, h, hc, ht, hws]
      exact ⟨_, rfl⟩
    | some ws =>
      rcases Weights.ofList_checked (hchecked ws hws) with ⟨-, W, hW⟩ | ⟨hinfinite, -⟩
      · simp only [plan, h, hc, ht, hws, hW]
        exact ⟨_, rfl⟩
      · rw [hfinite ws hws] at hinfinite
        cases hinfinite
  obtain ⟨g, hg⟩ := hplan
  exact ⟨t, g, hg, follows_of_plan hg⟩

theorem plan_infinite {ws : List Float} (hws : ws ∈ s.opcodeWeights)
    (hinfinite : Decimal.isFinite (total ws) = false) : plan s = .error .weightTotal := by
  obtain ⟨⟨c, hc⟩, ⟨t, ht⟩, hchecked⟩ := of_check h
  rcases Weights.ofList_checked (hchecked ws hws) with ⟨hfinite, -⟩ | ⟨-, hfault⟩
  · rw [hinfinite] at hfinite
    cases hfinite
  · simp only [plan, h, hc, ht, Option.mem_def.mp hws, hfault]

end

/-- Settings that pass their check are carried out as planned, as long as the total of their
weights is finite. With an infinite total planning breaks off and leaves the world as it is. -/
theorem plan_checked (s : PoolSettings) (h : s.check? = none) :
    ((∀ ws ∈ s.opcodeWeights, Decimal.isFinite (total ws) = true) →
      ∃ t g, plan s = .ok (.ok (t, g)) ∧ Follows s t g ∧
        seedWith s = seed s.initialCreatures.toNat t g >>= fun _ => pure (.ok ())) ∧
    ∀ ws ∈ s.opcodeWeights, Decimal.isFinite (total ws) = false →
      ∀ w, seedWith s w = .error .weightTotal w := by
  constructor
  · intro hfinite
    obtain ⟨t, g, hplan, hfollows⟩ := plan_finite h hfinite
    refine ⟨t, g, hplan, hfollows, ?_⟩
    rw [seedWith, hplan]
  · intro ws hws hinfinite w
    rw [seedWith, plan_infinite h hws hinfinite]
    rfl

/-- The greatest double may be a weight beside zeros. -/
theorem plan_greatest :
    let greatest : Float := .ofBits 0x7FEFFFFFFFFFFFFF
    let s : PoolSettings := { opcodeWeights := some [0.0, 0.0, 0.0, 0.0, 0.0, 0.0, greatest, 0.0] }
    s.check? = none ∧ ∃ t g, plan s = .ok (.ok (t, g)) ∧ Follows s t g := by
  intro greatest s
  have h : s.check? = none := Option.isNone_iff_eq_none.mp (by decide +kernel)
  have hfinite : ∀ ws ∈ s.opcodeWeights, Decimal.isFinite (total ws) = true := by
    intro ws hws
    cases hws
    decide +kernel
  obtain ⟨t, g, hplan, hfollows, -⟩ := (plan_checked s h).1 hfinite
  exact ⟨h, t, g, hplan, hfollows⟩

/-- Twice the greatest double passes the check and cannot be planned. -/
theorem plan_greatest_twice :
    let greatest : Float := .ofBits 0x7FEFFFFFFFFFFFFF
    let s : PoolSettings :=
      { initialCreatures := 0
        opcodeWeights := some [greatest, greatest, 0.0, 0.0, 0.0, 0.0, 0.0, 0.0] }
    s.check? = none ∧ plan s = .error .weightTotal := by
  intro greatest s
  have h : s.check? = none := Option.isNone_iff_eq_none.mp (by decide +kernel)
  exact ⟨h, plan_infinite h rfl (by decide +kernel)⟩

end Pool

end Biotope
