import Biotope.Proofs.Courses
import Biotope.Proofs.Exchanges
import Biotope.Proofs.FloatSums

/-!
# The temperature band

Speciations cool a pool and extinctions heat it, one step each, and a step ends inside a
band away from zero and one. Inside the band every step is felt, except at the end of the
band that it leads to. So once a species has come or gone, only a setting from outside takes
the temperature out of the band again.
-/

namespace Biotope

open Decimal (isFinite)

namespace Pool

/-! ## One step -/

def warmer (t : Probability) : Probability := (heat { temperature := t }).temperature

def cooler (t : Probability) : Probability := (cool { temperature := t }).temperature

structure Temperate (t : Probability) : Prop where
  floor_le : floor ≤ t.value
  le_ceiling : t.value ≤ ceiling

theorem rational_delta : rational delta = 5902958103587057 / 2 ^ 69 := by
  show ((5902958103587057 : Nat) : ℚ) * 2 ^ (-69 : Int) = _
  norm_num [zpow_neg]

theorem rational_neg_delta : rational (-delta) = -(5902958103587057 / 2 ^ 69) := by
  show -(((5902958103587057 : Nat) : ℚ) * 2 ^ (-69 : Int)) = _
  norm_num [zpow_neg]

theorem rational_floor : rational floor = 5902958103587057 / 2 ^ 68 := by
  show ((5902958103587057 : Nat) : ℚ) * 2 ^ (-68 : Int) = _
  norm_num [zpow_neg]

theorem rational_ceiling : rational ceiling = 9007019110755897 / 2 ^ 53 := by
  show ((9007019110755897 : Nat) : ℚ) * 2 ^ (-53 : Int) = _
  norm_num [zpow_neg]

theorem finite_delta : isFinite delta = true := by decide +kernel
theorem finite_neg_delta : isFinite (-delta) = true := by decide +kernel
theorem finite_floor : isFinite floor = true := by decide +kernel
theorem finite_ceiling : isFinite ceiling = true := by decide +kernel

theorem finite_value (t : Probability) : isFinite t.value = true :=
  Decimal.isFinite_of_inUnit t.inUnit

theorem rational_inUnit {x : Float} (hx : isFinite x = true) :
    0.0 ≤ x ∧ x ≤ 1.0 ↔ 0 ≤ rational x ∧ rational x ≤ 1 := by
  rw [le_iff_rational finite_zero hx, le_iff_rational hx finite_one, rational_zero, rational_one]

def banded (x : Float) : Float := if x < floor then floor else if ceiling < x then ceiling else x

theorem banded_cases {x : Float} (hx : isFinite x = true) :
    (rational x < rational floor ∧ banded x = floor) ∨
      (rational ceiling < rational x ∧ banded x = ceiling) ∨
      rational floor ≤ rational x ∧ rational x ≤ rational ceiling ∧ banded x = x := by
  have hlow := lt_iff_rational hx finite_floor
  have hhigh := lt_iff_rational finite_ceiling hx
  unfold banded
  by_cases h₁ : x < floor
  · exact .inl ⟨hlow.mp h₁, if_pos h₁⟩
  · by_cases h₂ : ceiling < x
    · exact .inr (.inl ⟨hhigh.mp h₂, by rw [if_neg h₁, if_pos h₂]⟩)
    · exact .inr (.inr ⟨not_lt.mp fun h => h₁ (hlow.mpr h), not_lt.mp fun h => h₂ (hhigh.mpr h),
        by rw [if_neg h₁, if_neg h₂]⟩)

theorem banded_spec {x : Float} (hx : isFinite x = true) : isFinite (banded x) = true ∧
    rational floor ≤ rational (banded x) ∧ rational (banded x) ≤ rational ceiling := by
  have hband : rational floor ≤ rational ceiling := by
    rw [rational_floor, rational_ceiling]
    norm_num
  rcases banded_cases hx with ⟨-, h⟩ | ⟨-, h⟩ | ⟨h₁, h₂, h⟩
  · rw [h]
    exact ⟨finite_floor, le_refl _, hband⟩
  · rw [h]
    exact ⟨finite_ceiling, hband, le_refl _⟩
  · rw [h]
    exact ⟨hx, h₁, h₂⟩

section
variable (t : Probability) {step : Float} (hs : isFinite step = true) (h : |rational step| ≤ 1)
include hs h

theorem step_near : isFinite (t.value + step) = true ∧
    |rational (t.value + step) - (rational t.value + rational step)| ≤ 2 ^ ((2 : Int) - 54) := by
  obtain ⟨h0, h1⟩ := (rational_inUnit (finite_value t)).mp t.inUnit
  rw [abs_le] at h
  have hsum : |rational t.value + rational step| < 2 ^ (2 : Int) := by
    rw [abs_lt]
    norm_num
    constructor <;> linarith
  exact add_near (finite_value t) hs (by norm_num) (by norm_num) hsum

theorem value_adjust : (({ temperature := t } : Pool).adjust step).temperature.value =
    banded (t.value + step) := by
  obtain ⟨hf, hlow, hhigh⟩ := banded_spec (step_near t hs h).1
  rw [rational_floor] at hlow
  rw [rational_ceiling] at hhigh
  refine Probability.value_clamp ((rational_inUnit hf).mpr ⟨le_trans ?_ hlow, hhigh.trans ?_⟩) <;> norm_num

theorem temperate_adjust : Temperate (({ temperature := t } : Pool).adjust step).temperature := by
  obtain ⟨hf, hlow, hhigh⟩ := banded_spec (step_near t hs h).1
  have hv := value_adjust t hs h
  constructor
  · rw [hv]
    exact (le_iff_rational finite_floor hf).mpr hlow
  · rw [hv]
    exact (le_iff_rational hf finite_ceiling).mpr hhigh

end

theorem abs_delta : |rational delta| ≤ 1 := by
  rw [rational_delta]
  norm_num [abs_le]

theorem abs_neg_delta : |rational (-delta)| ≤ 1 := by
  rw [rational_neg_delta, abs_neg]
  norm_num [abs_le]

theorem temperate_warmer (t : Probability) : Temperate (warmer t) :=
  temperate_adjust t finite_delta abs_delta

theorem temperate_cooler (t : Probability) : Temperate (cooler t) :=
  temperate_adjust t finite_neg_delta abs_neg_delta

namespace Temperate

variable {t : Probability} (h : Temperate t)
include h

theorem rational_bounds : rational floor ≤ rational t.value ∧ rational t.value ≤ rational ceiling :=
  ⟨(le_iff_rational finite_floor (finite_value t)).mp h.floor_le,
    (le_iff_rational (finite_value t) finite_ceiling).mp h.le_ceiling⟩

/-- The band lies strictly between one step above zero and one step below one. -/
theorem inside : delta < t.value ∧ t.value < 1.0 - delta := by
  have hfinite : isFinite (1.0 - delta) = true := by decide +kernel
  have hend : rational (1.0 - delta) = 9007109182748445 / 2 ^ 53 := by
    show ((9007109182748445 : Nat) : ℚ) * 2 ^ (-53 : Int) = _
    norm_num [zpow_neg]
  obtain ⟨hlow, hhigh⟩ := h.rational_bounds
  rw [lt_iff_rational finite_delta (finite_value t), lt_iff_rational (finite_value t) hfinite,
    rational_delta, hend]
  rw [rational_floor] at hlow
  rw [rational_ceiling] at hhigh
  constructor
  · refine lt_of_lt_of_le ?_ hlow
    norm_num
  · refine lt_of_le_of_lt hhigh ?_
    norm_num

theorem lt_warmer (hne : t.value ≠ ceiling) : t.value < (warmer t).value := by
  obtain ⟨hlow, hhigh⟩ := h.rational_bounds
  obtain ⟨hf, hnear⟩ := step_near t finite_delta abs_delta
  have hv : (warmer t).value = banded (t.value + delta) := value_adjust t finite_delta abs_delta
  rw [lt_iff_rational (finite_value t) (finite_value _), hv]
  have hup : rational t.value < rational (t.value + delta) := by
    have := (abs_le.mp hnear).1
    rw [rational_delta] at this
    norm_num at this
    linarith
  rcases banded_cases hf with ⟨hc, -⟩ | ⟨-, hb⟩ | ⟨-, -, hb⟩
  · exact absurd (hlow.trans_lt hup) hc.not_gt
  · rw [hb]
    refine lt_of_le_of_ne hhigh fun heq => hne ?_
    have hpos : 0 < rational t.value := by
      rw [heq, rational_ceiling]
      norm_num
    exact eq_of_rational_eq (finite_value t) finite_ceiling heq hpos
  · rw [hb]
    exact hup

theorem cooler_lt (hne : t.value ≠ floor) : (cooler t).value < t.value := by
  obtain ⟨hlow, hhigh⟩ := h.rational_bounds
  obtain ⟨hf, hnear⟩ := step_near t finite_neg_delta abs_neg_delta
  have hv : (cooler t).value = banded (t.value + -delta) :=
    value_adjust t finite_neg_delta abs_neg_delta
  rw [lt_iff_rational (finite_value _) (finite_value t), hv]
  have hdown : rational (t.value + -delta) < rational t.value := by
    have := (abs_le.mp hnear).2
    rw [rational_neg_delta] at this
    norm_num at this
    linarith
  rcases banded_cases hf with ⟨-, hb⟩ | ⟨hc, -⟩ | ⟨-, -, hb⟩
  · rw [hb]
    refine lt_of_le_of_ne hlow fun heq => hne ?_
    have hpos : 0 < rational t.value := by
      rw [← heq, rational_floor]
      norm_num
    exact eq_of_rational_eq (finite_value t) finite_floor heq.symm hpos
  · exact absurd (hdown.trans_le hhigh) hc.not_gt
  · rw [hb]
    exact hdown

end Temperate

end Pool

end Biotope
