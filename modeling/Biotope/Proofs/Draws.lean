import Biotope.Proofs.FloatOrder

/-!
# Draws from the unit interval

A draw is a whole number of few bits, scaled down by as many bits. So it stays below one, and a
probability that is sampled is the draw itself.
-/

namespace Biotope

open Decimal (isFinite)

/-- A number of `k` bits that is scaled down by as many bits does not pass the last of the steps
before one. -/
theorem fraction_le {k : Nat} (hk : k ≤ 53) {n : UInt64} (hn : n.toNat < 2 ^ k) {step last : Float}
    (hfinite : isFinite step = true) (hstep : rational step = 1 / 2 ^ k)
    (hfinite' : isFinite last = true) (hlast : rational last = (2 ^ k - 1) / 2 ^ k) :
    isFinite (n.toFloat * step) = true ∧ 0 ≤ rational (n.toFloat * step) ∧
      rational (n.toFloat * step) ≤ rational last := by
  obtain ⟨hn', hvalue⟩ := rational_toFloat (hn.trans_le (Nat.pow_le_pow_right Nat.two_pos hk))
  have hstep0 : 0 ≤ rational step := by
    rw [hstep]
    positivity
  have hlast0 : 0 ≤ rational last := by
    rw [hlast]
    exact div_nonneg (sub_nonneg.mpr (one_le_pow₀ one_le_two)) (by positivity)
  have hrounds := mul_rounds hn' hfinite (by rw [hvalue]; positivity) hstep0
  have hexact : rational n.toFloat * rational step ≤ rational last := by
    have : (n.toNat : ℚ) + 1 ≤ 2 ^ k := by exact_mod_cast hn
    rw [hvalue, hstep, hlast, mul_one_div]
    gcongr
    linarith
  obtain ⟨hproduct, hle⟩ := hrounds.le hfinite' hlast0 hexact
  exact ⟨hproduct, hrounds.nonneg hproduct, hle⟩

namespace Stream

/-- The step between two draws. -/
theorem rational_step : rational (Float.ofBits 0x3CA0000000000000) = 1 / 2 ^ 53 := by
  show ((2 ^ 52 : Nat) : ℚ) * 2 ^ (-105 : Int) = _
  norm_num [zpow_neg]

theorem finite_step : isFinite (Float.ofBits 0x3CA0000000000000) = true := by decide +kernel

/-- The greatest draw. -/
theorem rational_last : rational (Float.ofBits 0x3FEFFFFFFFFFFFFF) = (2 ^ 53 - 1) / 2 ^ 53 := by
  show ((2 ^ 53 - 1 : Nat) : ℚ) * 2 ^ (-53 : Int) = _
  norm_num [zpow_neg]

theorem finite_last : isFinite (Float.ofBits 0x3FEFFFFFFFFFFFFF) = true := by decide +kernel

theorem unit_spec (s : Stream) :
    isFinite (unit s).1 = true ∧ 0 ≤ rational (unit s).1 ∧ rational (unit s).1 < 1 := by
  have hshort : (s.word s.drawn >>> 11).toNat < 2 ^ 53 := by
    rw [UInt64.toNat_shiftRight, Nat.shiftRight_eq_div_pow]
    exact Nat.div_lt_of_lt_mul (s.word s.drawn).toNat_lt
  obtain ⟨hfinite, hnonneg, hle⟩ :=
    fraction_le le_rfl hshort finite_step rational_step finite_last rational_last
  refine ⟨hfinite, hnonneg, lt_of_le_of_lt hle ?_⟩
  rw [rational_last]
  norm_num

theorem unit_lt_one (s : Stream) : (unit s).1 < 1.0 := by
  obtain ⟨hfinite, -, hlt⟩ := s.unit_spec
  exact (lt_iff_rational hfinite finite_one).mpr (rational_one ▸ hlt)

end Stream

theorem Probability.value_sample (s : Stream) : (sample s).1.value = (Stream.unit s).1 := by
  obtain ⟨hfinite, hnonneg, hlt⟩ := s.unit_spec
  refine value_clamp ⟨(le_iff_rational finite_zero hfinite).mpr hnonneg, ?_⟩
  exact (le_iff_rational hfinite finite_one).mpr (rational_one ▸ hlt.le)

end Biotope
