import Mathlib
import Biotope.Decimal.Shortest

/-!
# Rounding to doubles

Rounding a quotient looks at its value only, and a value that is a double rounds to
that double. So a decimal has the bits of any other decimal of the same value, and all
digits of a double read back as its bits.
-/

namespace Biotope.Decimal

/-! ## Whole numbers -/

theorem roundDiv_mul_left {k : Nat} (hk : 0 < k) (n d : Nat) :
    roundDiv (k * n) (k * d) = roundDiv n d := by
  have hlt (a b : Nat) : k * a < k * b ↔ a < b := Nat.mul_lt_mul_left hk
  simp only [roundDiv, Nat.mul_div_mul_left n d hk, Nat.mul_mod_mul_left, Nat.mul_left_comm 2 k, hlt]

theorem roundDiv_congr {n d n' d' : Nat} (hd : 0 < d) (hd' : 0 < d') (h : n * d' = n' * d) :
    roundDiv n d = roundDiv n' d' :=
  calc roundDiv n d = roundDiv (d' * n) (d' * d) := (roundDiv_mul_left hd' n d).symm
    _ = roundDiv (d * n') (d * d') := by
      rw [Nat.mul_comm d' n, h, Nat.mul_comm n', Nat.mul_comm d' d]
    _ = roundDiv n' d' := roundDiv_mul_left hd n' d'

theorem roundDiv_mul_right (m : Nat) {d : Nat} (hd : 0 < d) : roundDiv (m * d) d = m := by
  rw [roundDiv, Nat.mul_mod_left, Nat.mul_div_cancel m hd]
  exact if_pos hd

/-! ## Scales -/

def quotient (n d : Nat) : ℚ := n / d

theorem quotient_pos {n d : Nat} (hn : n ≠ 0) (hd : d ≠ 0) : 0 < quotient n d := by
  unfold quotient
  positivity

theorem quotient_eq_iff {n d n' d' : Nat} (hd : d ≠ 0) (hd' : d' ≠ 0) :
    quotient n d = quotient n' d' ↔ n * d' = n' * d := by
  rw [quotient, quotient, div_eq_div_iff (by positivity) (by positivity)]
  norm_cast

theorem natCast_two_zpow {k : Int} (hk : 0 ≤ k) : (2 : ℚ) ^ k = ((2 ^ k.toNat : Nat) : ℚ) := by
  obtain ⟨j, rfl⟩ := Int.eq_ofNat_of_zero_le hk
  simp

theorem quotient_shift {n d : Nat} (k : Int) :
    quotient n d / 2 ^ k =
      if 0 ≤ k then quotient n (d <<< k.toNat) else quotient (n <<< (-k).toNat) d := by
  split
  case isTrue hk =>
    rw [natCast_two_zpow hk, quotient, quotient, Nat.shiftLeft_eq]
    push_cast
    rw [div_div]
  case isFalse hk =>
    have hneg : (2 : ℚ) ^ k = (2 ^ (-k))⁻¹ := by rw [zpow_neg, inv_inv]
    rw [hneg, natCast_two_zpow (by omega), quotient, quotient, Nat.shiftLeft_eq]
    push_cast
    rw [div_inv_eq_mul, div_mul_eq_mul_div]

theorem shiftLeft_ne_zero {n : Nat} (hn : n ≠ 0) (k : Nat) : n <<< k ≠ 0 := by
  rw [Nat.shiftLeft_eq]
  positivity

theorem quotient_lt_one {n d : Nat} (hd : d ≠ 0) : quotient n d < 1 ↔ n < d := by
  rw [quotient, div_lt_one (by positivity)]
  norm_cast

theorem quotient_lt_zpow {n d : Nat} (hd : d ≠ 0) (k : Int) : quotient n d < 2 ^ k ↔
    (if 0 ≤ k then n < d <<< k.toNat else n <<< (-k).toNat < d) := by
  rw [← div_lt_one (show (0 : ℚ) < 2 ^ k by positivity), quotient_shift]
  split
  · exact quotient_lt_one (shiftLeft_ne_zero hd _)
  · exact quotient_lt_one hd

/-- The logarithms of numerator and denominator tell that of a quotient up to one. -/
theorem log_bounds {n d : Nat} (hn : n ≠ 0) (hd : d ≠ 0) :
    (2 : ℚ) ^ ((n.log2 : Int) - d.log2 - 1) ≤ quotient n d ∧
      quotient n d < 2 ^ ((n.log2 : Int) - d.log2 + 1) := by
  have hpow (a : Nat) : (2 : ℚ) ^ (a : Int) = ((2 ^ a : Nat) : ℚ) := by simp
  have hlow (a : Nat) (ha : a ≠ 0) : (2 : ℚ) ^ (a.log2 : Int) ≤ a := by
    rw [hpow]
    exact_mod_cast Nat.log2_self_le ha
  have hhigh (a : Nat) : (a : ℚ) < 2 ^ ((a.log2 : Int) + 1) := by
    have : ((a.log2 : Int) + 1) = ((a.log2 + 1 : Nat) : Int) := by push_cast; rfl
    rw [this, hpow]
    exact_mod_cast Nat.lt_log2_self
  have hd0 : (0 : ℚ) < d := by positivity
  unfold quotient
  constructor
  · rw [le_div_iff₀ hd0]
    calc (2 : ℚ) ^ ((n.log2 : Int) - d.log2 - 1) * d
        ≤ 2 ^ ((n.log2 : Int) - d.log2 - 1) * 2 ^ ((d.log2 : Int) + 1) := by gcongr; exact (hhigh d).le
      _ = 2 ^ (n.log2 : Int) := by rw [← zpow_add₀ two_ne_zero]; congr 1; omega
      _ ≤ n := hlow n hn
  · rw [div_lt_iff₀ hd0]
    calc (n : ℚ) < 2 ^ ((n.log2 : Int) + 1) := hhigh n
      _ = 2 ^ ((n.log2 : Int) - d.log2 + 1) * 2 ^ (d.log2 : Int) := by
        rw [← zpow_add₀ two_ne_zero]; congr 1; omega
      _ ≤ 2 ^ ((n.log2 : Int) - d.log2 + 1) * d := by gcongr; exact hlow d hd

theorem zpow_le_iff {b : Nat} (hb : 1 < b) {x : ℚ} (hx : 0 < x) (k : Int) :
    (b : ℚ) ^ k ≤ x ↔ k ≤ Int.log b x :=
  Int.zpow_le_iff_le_log hb hx

/-- The scale leaves 53 binary digits. -/
theorem scaleOf_eq {n d : Nat} (hn : n ≠ 0) (hd : d ≠ 0) :
    scaleOf n d = max (-1074) (Int.log 2 (quotient n d) - 52) := by
  have hlog (k : Int) : (2 : ℚ) ^ k ≤ quotient n d ↔ k ≤ Int.log 2 (quotient n d) :=
    zpow_le_iff (b := 2) (by decide) (quotient_pos hn hd) k
  have hbelow := quotient_lt_zpow (n := n) hd ((n.log2 : Int) - d.log2)
  obtain ⟨hlow, hhigh⟩ := log_bounds hn hd
  rw [← not_le, hlog] at hbelow hhigh
  rw [hlog] at hlow
  simp only [scaleOf]
  generalize (n.log2 : Int) - d.log2 = k at hlow hhigh hbelow ⊢
  congr 1
  split at hbelow <;> simp only [*, if_true, if_false, decide_eq_true_eq] <;> split <;> omega

/-! ## Doubles -/

theorem nearestBits_congr {n d n' d' : Nat} (hd : 0 < d) (hd' : 0 < d') (h : n * d' = n' * d) :
    nearestBits n d = nearestBits n' d' := by
  by_cases hn : n = 0
  · have hn' : n' = 0 := by
      rw [hn, Nat.zero_mul] at h
      exact (Nat.mul_eq_zero.mp h.symm).resolve_right hd.ne'
    rw [hn, hn', nearestBits, nearestBits, if_pos rfl, if_pos rfl]
  · have hn' : n' ≠ 0 := by
      rintro rfl
      rw [Nat.zero_mul] at h
      exact (Nat.mul_ne_zero hn hd'.ne') h
    have hq : scaleOf n d = scaleOf n' d' := by
      rw [scaleOf_eq hn hd.ne', scaleOf_eq hn' hd'.ne',
        (quotient_eq_iff hd.ne' hd'.ne').mpr h]
    simp only [nearestBits, if_neg hn, if_neg hn', hq]
    congr 2
    have hpow (k : Nat) : 0 < 2 ^ k := by positivity
    split
    · rw [Nat.shiftLeft_eq, Nat.shiftLeft_eq]
      refine roundDiv_congr (Nat.mul_pos hd (hpow _)) (Nat.mul_pos hd' (hpow _)) ?_
      rw [← Nat.mul_assoc, h, Nat.mul_assoc]
    · rw [Nat.shiftLeft_eq, Nat.shiftLeft_eq]
      refine roundDiv_congr hd hd' ?_
      rw [Nat.mul_right_comm, h, Nat.mul_right_comm]

namespace Dyadic

def value (x : Dyadic) : ℚ := x.significand * 2 ^ x.scale

def code (x : Dyadic) : Nat := x.significand + ((x.scale + 1074).toNat <<< 52)

/-- The significand has 53 binary digits, or fewer at the least scale. -/
structure Canonical (x : Dyadic) : Prop where
  least : -1074 ≤ x.scale
  short : x.significand < 2 ^ 53
  full : -1074 < x.scale → 2 ^ 52 ≤ x.significand

theorem code_eq (x : Dyadic) : x.code = x.significand + (x.scale + 1074).toNat * 2 ^ 52 := by
  unfold code
  rw [Nat.shiftLeft_eq]

theorem ofBits_subnormal {b : Nat} (h : b / 2 ^ 52 % 2 ^ 11 = 0) :
    ofBits b = ⟨b % 2 ^ 52, -1074⟩ := by
  rw [ofBits, Nat.one_shiftLeft, Nat.one_shiftLeft, Nat.shiftRight_eq_div_pow]
  exact if_pos h

theorem ofBits_normal {b : Nat} (h : b / 2 ^ 52 % 2 ^ 11 ≠ 0) :
    ofBits b = ⟨b % 2 ^ 52 + 2 ^ 52, (b / 2 ^ 52 % 2 ^ 11 : Nat) - 1075⟩ := by
  rw [ofBits, Nat.one_shiftLeft, Nat.one_shiftLeft, Nat.shiftRight_eq_div_pow]
  exact if_neg h

theorem canonical_ofBits (b : Nat) : (ofBits b).Canonical := by
  have hlt : b % 2 ^ 52 < 2 ^ 52 := Nat.mod_lt _ (by decide)
  by_cases h : b / 2 ^ 52 % 2 ^ 11 = 0
  · rw [ofBits_subnormal h]
    exact ⟨le_refl _, by dsimp only; omega, fun h => absurd h (lt_irrefl _)⟩
  · rw [ofBits_normal h]
    exact ⟨by dsimp only; omega, by dsimp only; omega, fun _ => Nat.le_add_left _ _⟩

theorem code_ofBits {b : Nat} (hb : b < 2 ^ 63) : (ofBits b).code = b := by
  rw [code_eq]
  by_cases h : b / 2 ^ 52 % 2 ^ 11 = 0
  · rw [ofBits_subnormal h]
    show b % 2 ^ 52 + 0 * 2 ^ 52 = b
    omega
  · rw [ofBits_normal h]
    dsimp only
    omega

theorem quotient_ratio (x : Dyadic) : quotient x.ratio.1 x.ratio.2 = x.value := by
  unfold ratio value
  split
  case isTrue h =>
    rw [quotient, Nat.shiftLeft_eq, natCast_two_zpow h]
    push_cast
    rw [div_one]
  case isFalse h =>
    have hneg : (2 : ℚ) ^ x.scale = (2 ^ (-x.scale))⁻¹ := by rw [zpow_neg, inv_inv]
    rw [quotient, Nat.one_shiftLeft, hneg, natCast_two_zpow (by omega)]
    push_cast
    rw [div_eq_mul_inv]

section
variable {x : Dyadic} (hx : x.Canonical) {n d : Nat} (hd : d ≠ 0)
  (hv : quotient n d = x.value)
include hx hd hv

theorem scaleOf_value (hn : n ≠ 0) : scaleOf n d = x.scale := by
  have hlog (k : Int) : (2 : ℚ) ^ k ≤ x.value ↔ k ≤ Int.log 2 x.value :=
    zpow_le_iff (b := 2) (by decide) (hv ▸ quotient_pos hn hd) k
  have hhigh : ¬ x.scale + 53 ≤ Int.log 2 x.value := by
    have hm : (x.significand : ℚ) < 2 ^ 53 := by exact_mod_cast hx.short
    rw [← hlog, zpow_add₀ two_ne_zero, value, mul_comm, not_le]
    gcongr
    exact_mod_cast hm
  have hleast := hx.least
  rw [scaleOf_eq hn hd, hv]
  rcases hleast.eq_or_lt with hs | hs
  · omega
  · have hm : (2 : ℚ) ^ 52 ≤ x.significand := by exact_mod_cast hx.full hs
    have hlow : x.scale + 52 ≤ Int.log 2 x.value := by
      rw [← hlog, zpow_add₀ two_ne_zero, value, mul_comm]
      gcongr
      exact_mod_cast hm
    omega

/-- A quotient that is a double is rounded to that double. -/
theorem nearestBits_value (hc : x.code < infinityBits) : nearestBits n d = x.code := by
  have hshift : quotient n d / 2 ^ x.scale = x.significand := by
    rw [hv, value, mul_div_assoc, div_self (by positivity), mul_one]
  by_cases hn : n = 0
  · have hzero : x.significand = 0 := by
      rw [hn, quotient] at hshift
      exact_mod_cast (by simpa using hshift.symm : (x.significand : ℚ) = 0)
    have hs : x.scale = -1074 := by
      by_contra hs
      have := hx.full (lt_of_le_of_ne hx.least (Ne.symm hs))
      omega
    rw [nearestBits, if_pos hn, code_eq, hzero, hs]
    rfl
  -- at the scale of the double the quotient is whole, so there is nothing to round
  · have hmul {a c : Nat} (hc : c ≠ 0) (h : quotient a c = x.significand) :
        roundDiv a c = x.significand := by
      have ha : a = x.significand * c := by
        rw [quotient, div_eq_iff (by positivity)] at h
        exact_mod_cast h
      rw [ha, roundDiv_mul_right _ (Nat.pos_of_ne_zero hc)]
    rw [quotient_shift] at hshift
    simp only [nearestBits, if_neg hn, scaleOf_value hx hd hv hn]
    rw [show (if 0 ≤ x.scale then roundDiv n (d <<< x.scale.toNat)
      else roundDiv (n <<< (-x.scale).toNat) d) = x.significand from ?_]
    · exact min_eq_left hc.le
    · split at hshift
      case isTrue h => rw [if_pos h]; exact hmul (shiftLeft_ne_zero hd _) hshift
      case isFalse h => rw [if_neg h]; exact hmul hd hshift

end

end Dyadic

end Biotope.Decimal
