import Biotope.Proofs.FloatSums

/-!
# Products of floats

The exact product of two doubles is rounded as a sum is. A whole number of at most 53 bits is a float without
rounding.
-/

namespace Biotope

open Float.Model (Format UnpackedFloat totalExponent)
open Float.Model.UnpackedFloat
open Decimal (Dyadic isFinite)

/-! ## Rounding a product -/

/-- Nothing is gained by lowering an exponent that is not above its target. -/
theorem roundWithAccuracy_eq_round (s : Sign) {m : Nat} {e : Int}
    (he : e ≤ Format.binary64.targetExponent (totalExponent m e)) :
    roundWithAccuracy Format.binary64 s m e .exact =
      Float.Model.UnpackedFloat.round Format.binary64 s m e := by
  have hshift : (e - Format.binary64.targetExponent (totalExponent m e)).toNat = 0 := by omega
  simp only [Float.Model.UnpackedFloat.round, decreaseExponent, hshift, Nat.shiftLeft_zero,
    Nat.cast_zero, sub_zero]

/-- The exponents of two doubles add up to at most the target exponent of their product. -/
theorem add_le_targetExponent {m m' : Nat} {e e' : Int} (hm : 0 < m) (hm' : 0 < m')
    (hc : (Dyadic.mk m e).Canonical) (hc' : (Dyadic.mk m' e').Canonical) :
    e + e' ≤ Format.binary64.targetExponent (totalExponent (m * m') (e + e')) := by
  rw [targetExponent_eq, totalExponent]
  have hlog (n : Nat) (hn : 2 ^ 52 ≤ m * m') : 52 ≤ (m * m').log2 :=
    (Nat.le_log2 (Nat.mul_pos hm hm').ne').mpr hn
  by_cases h : -1074 < e
  · have hfull : 2 ^ 52 ≤ m := hc.full h
    have := hlog m (hfull.trans (Nat.le_mul_of_pos_right m hm'))
    omega
  · by_cases h' : -1074 < e'
    · have hfull : 2 ^ 52 ≤ m' := hc'.full h'
      have := hlog m' (hfull.trans (Nat.le_mul_of_pos_left m' hm))
      omega
    · omega

theorem float_mul_comm (x y : Float) : x * y = y * x := by
  have hsign (s t : Sign) : s * t = t * s := by cases s <;> cases t <;> rfl
  have hmul : UnpackedFloat.mul Format.binary64 x.toModel.unpack y.toModel.unpack =
      UnpackedFloat.mul Format.binary64 y.toModel.unpack x.toModel.unpack := by
    cases x.toModel.unpack <;> cases y.toModel.unpack <;>
      simp only [UnpackedFloat.mul, hsign, Nat.mul_comm, Int.add_comm]
  exact congrArg (fun u => Float.ofModel (Float.Model.pack u)) hmul

/-! ## Whole numbers -/

theorem round_whole {n : Nat} (hpos : 0 < n) (hn : n < 2 ^ 53) :
    Regular (Float.Model.UnpackedFloat.round Format.binary64 .positive n 0) ∧
      valueOf (Float.Model.UnpackedFloat.round Format.binary64 .positive n 0) = n ∧
      Within 1 (Float.Model.UnpackedFloat.round Format.binary64 .positive n 0) := by
  have hlog : n.log2 < 53 := (Nat.log2_lt hpos.ne').mpr hn
  obtain ⟨a, ha⟩ : ∃ a : Nat, a + n.log2 = 52 := ⟨52 - n.log2, by omega⟩
  obtain ⟨k, hround, hnear⟩ := round_eq .positive hpos (e := 0) (t := -a) (by omega)
  -- the number is shifted to the left until it fills the mantissa, so no digit is rounded away
  have hscaled : (n : ℚ) * 2 ^ ((0 : Int) - -(a : Int)) = (n * 2 ^ a : Nat) := by
    rw [zero_sub, neg_neg, zpow_natCast]
    push_cast
    rfl
  have hk : k = n * 2 ^ a := by
    rw [hscaled, abs_le] at hnear
    have hle : (k : ℚ) < (n * 2 ^ a + 1 : Nat) := by
      push_cast at hnear ⊢
      linarith
    have hge : ((n * 2 ^ a : Nat) : ℚ) < (k + 1 : Nat) := by
      push_cast at hnear ⊢
      linarith
    have hle' : k < n * 2 ^ a + 1 := by exact_mod_cast hle
    have hge' : n * 2 ^ a < k + 1 := by exact_mod_cast hge
    omega
  have hfull : 2 ^ 52 ≤ k := by
    rw [hk, ← ha, Nat.pow_add, Nat.mul_comm]
    exact Nat.mul_le_mul_right _ (Nat.log2_self_le hpos.ne')
  have hshort : k < 2 ^ 53 := by
    rw [hk, show 53 = n.log2 + 1 + a by omega, Nat.pow_add]
    exact Nat.mul_lt_mul_of_pos_right Nat.lt_log2_self (by positivity)
  obtain ⟨hreg, hval, hwithin⟩ := carried_spec .positive hshort.le (e := -a) (by omega)
    fun _ => hfull
  rw [hround]
  refine ⟨hreg, hval.trans ?_, hwithin.mono (by omega)⟩
  show (k : ℚ) * 2 ^ (-(a : Int)) = n
  rw [hk, zpow_neg, zpow_natCast]
  push_cast
  field_simp

/-- A number of at most 53 bits becomes a float as it is. -/
theorem rational_toFloat {n : UInt64} (hn : n.toNat < 2 ^ 53) :
    isFinite n.toFloat = true ∧ rational n.toFloat = n.toNat := by
  rcases Nat.eq_zero_or_pos n.toNat with hz | hpos
  · obtain rfl : n = 0 := UInt64.toNat_inj.mp hz
    exact ⟨by decide +kernel, rfl⟩
  · obtain ⟨hreg, hval, hwithin⟩ := round_whole hpos hn
    have hof : UnpackedFloat.ofUInt64 Format.binary64 n =
        Float.Model.UnpackedFloat.round Format.binary64 .positive n.toNat 0 :=
      normalize_natCast .positive hpos 0
    have hunpack : n.toFloat.toModel.unpack = UnpackedFloat.ofUInt64 Format.binary64 n :=
      unpack_pack (hof ▸ hreg) (hof ▸ hwithin.mono (by omega))
    rw [hof] at hunpack
    exact ⟨isFinite_of_unpack (hunpack ▸ hreg), by rw [rational, hunpack, hval]⟩

end Biotope
