import Biotope.Proofs.Rounding

/-!
# Decimals and the doubles they read as

The bits of a decimal depend on its value alone. A value that is a double has the bits
of that double, so the shortest decimal found for some bits reads back as these bits.
-/

namespace Biotope.Decimal

def value (x : Decimal) : ℚ := x.coefficient * 10 ^ x.exponent

def fraction (x : Decimal) : Nat × Nat :=
  if 0 ≤ x.exponent then (x.coefficient * Nat.pow 10 x.exponent.toNat, 1)
  else (x.coefficient, Nat.pow 10 (-x.exponent).toNat)

theorem natCast_ten_zpow {k : Int} (hk : 0 ≤ k) : (10 : ℚ) ^ k = ((Nat.pow 10 k.toNat : Nat) : ℚ) := by
  obtain ⟨j, rfl⟩ := Int.eq_ofNat_of_zero_le hk
  simp

theorem fraction_pos (x : Decimal) : 0 < x.fraction.2 := by
  unfold fraction
  split
  · exact one_pos
  · exact Nat.pow_pos (by decide)

theorem quotient_fraction (x : Decimal) : quotient x.fraction.1 x.fraction.2 = x.value := by
  unfold fraction value
  split
  case isTrue h =>
    rw [quotient, natCast_ten_zpow h]
    push_cast
    rw [div_one]
  case isFalse h =>
    have hneg : (10 : ℚ) ^ x.exponent = (10 ^ (-x.exponent))⁻¹ := by rw [zpow_neg, inv_inv]
    rw [quotient, hneg, natCast_ten_zpow (by omega), div_eq_mul_inv]

theorem value_eq_zero {x : Decimal} : x.value = 0 ↔ x.coefficient = 0 := by
  unfold value
  rw [mul_eq_zero, or_iff_left (by positivity)]
  norm_cast

theorem digitCount_bounds {n : Nat} (hn : n ≠ 0) :
    10 ^ (digitCount n - 1) ≤ n ∧ n < 10 ^ digitCount n := by
  have hle {k : Nat} (hk : 0 < k) : digitCount n ≤ k ↔ n < 10 ^ k :=
    Nat.length_toDigits_le_iff (by decide) hk
  have hpos : 0 < digitCount n := Nat.length_toDigits_pos
  refine ⟨?_, (hle hpos).mp (le_refl _)⟩
  by_cases h1 : digitCount n = 1
  · rw [h1]
    exact Nat.pos_of_ne_zero hn
  · have := mt (hle (k := digitCount n - 1) (by omega)).mpr (by omega)
    omega

theorem digitCount_add {x : Decimal} (hx : x.coefficient ≠ 0) :
    (digitCount x.coefficient : Int) + x.exponent = Int.log 10 x.value + 1 := by
  have hpos : 0 < x.value := by
    unfold value
    positivity
  have hlog (k : Int) : (10 : ℚ) ^ k ≤ x.value ↔ k ≤ Int.log 10 x.value :=
    zpow_le_iff (b := 10) (by decide) hpos k
  obtain ⟨hlow, hhigh⟩ := digitCount_bounds hx
  have hcount : 0 < digitCount x.coefficient := Nat.length_toDigits_pos
  generalize digitCount x.coefficient = c at hlow hhigh hcount ⊢
  have h1 : ((c : Int) - 1) + x.exponent ≤ Int.log 10 x.value := by
    have hc : ((c : Int) - 1) = ((c - 1 : Nat) : Int) := by omega
    rw [← hlog, zpow_add₀ (by norm_num), value, hc, zpow_natCast]
    gcongr
    exact_mod_cast hlow
  have h2 : ¬ (c : Int) + x.exponent ≤ Int.log 10 x.value := by
    rw [← hlog, zpow_add₀ (by norm_num), value, zpow_natCast, not_le]
    gcongr
    exact_mod_cast hhigh
  omega

theorem bits_eq {x : Decimal} (hx : x.coefficient ≠ 0) : x.bits =
    if 400 < Int.log 10 x.value + 1 then infinityBits
    else if Int.log 10 x.value + 1 < -400 then 0
    else nearestBits x.fraction.1 x.fraction.2 := by
  simp only [bits, if_neg hx, digitCount_add hx, fraction]
  split
  · rfl
  · split
    · rfl
    · split <;> rfl

theorem bits_congr {x y : Decimal} (h : x.value = y.value) : x.bits = y.bits := by
  by_cases hx : x.coefficient = 0
  · have hy : y.coefficient = 0 := value_eq_zero.mp (h ▸ value_eq_zero.mpr hx)
    rw [bits, bits, if_pos hx, if_pos hy]
  · have hy : y.coefficient ≠ 0 := fun hy => hx (value_eq_zero.mp (h ▸ value_eq_zero.mpr hy))
    have hfraction : x.fraction.1 * y.fraction.2 = y.fraction.1 * x.fraction.2 := by
      rw [← quotient_eq_iff x.fraction_pos.ne' y.fraction_pos.ne', quotient_fraction,
        quotient_fraction, h]
    rw [bits_eq hx, bits_eq hy, h, nearestBits_congr x.fraction_pos y.fraction_pos hfraction]

/-! ## Decimals of doubles -/

theorem ten_zpow_le : (10 : ℚ) ^ (-401 : Int) ≤ 2 ^ (-1074 : Int) := by
  have h : 2 ^ 1074 ≤ 10 ^ 401 := by decide +kernel
  rw [show (-401 : Int) = -((401 : Nat) : Int) from rfl, show (-1074 : Int) = -((1074 : Nat) : Int) from rfl,
    zpow_neg, zpow_neg, zpow_natCast, zpow_natCast]
  exact inv_anti₀ (by positivity) (by exact_mod_cast h)

theorem two_zpow_lt : (2 : ℚ) ^ (53 : Int) * 2 ^ (971 : Int) < 10 ^ (400 : Int) := by
  have h : 2 ^ 53 * 2 ^ 971 < 10 ^ 400 := by decide +kernel
  exact_mod_cast h

section
variable {x : Dyadic} (hx : x.Canonical) (hc : x.code < infinityBits)
include hx hc

theorem Dyadic.scale_le : x.scale ≤ 971 := by
  have hcode := x.code_eq
  have hleast := hx.least
  have hfull := hx.full
  unfold infinityBits at hc
  omega

theorem Dyadic.log_value (h0 : x.significand ≠ 0) :
    -401 ≤ Int.log 10 x.value ∧ Int.log 10 x.value < 400 := by
  have hpos : 0 < x.value := by
    unfold Dyadic.value
    positivity
  have hlog (k : Int) : (10 : ℚ) ^ k ≤ x.value ↔ k ≤ Int.log 10 x.value :=
    zpow_le_iff (b := 10) (by decide) hpos k
  have hscale := Dyadic.scale_le hx hc
  constructor
  · rw [← hlog]
    calc (10 : ℚ) ^ (-401 : Int) ≤ 2 ^ (-1074 : Int) := ten_zpow_le
      _ ≤ 2 ^ x.scale := zpow_le_zpow_right₀ one_le_two hx.least
      _ ≤ x.significand * 2 ^ x.scale := le_mul_of_one_le_left (by positivity)
        (by exact_mod_cast Nat.pos_of_ne_zero h0)
  · rw [← not_le, ← hlog, not_le]
    calc x.value < 2 ^ (53 : Int) * 2 ^ x.scale := by
          unfold Dyadic.value
          gcongr
          exact_mod_cast hx.short
      _ ≤ 2 ^ (53 : Int) * 2 ^ (971 : Int) := by
        gcongr
        exact one_le_two
      _ < 10 ^ (400 : Int) := two_zpow_lt

theorem bits_of_value {y : Decimal} (hv : y.value = x.value) : y.bits = x.code := by
  by_cases hy : y.coefficient = 0
  · have h0 : x.significand = 0 := by
      have : x.value = 0 := hv ▸ value_eq_zero.mpr hy
      unfold Dyadic.value at this
      exact_mod_cast (mul_eq_zero.mp this).resolve_right (by positivity)
    have hquotient : quotient 0 1 = x.value := by simp [quotient, Dyadic.value, h0]
    have hbits := Dyadic.nearestBits_value hx one_ne_zero hquotient hc
    rw [bits, if_pos hy, ← hbits]
    rfl
  · have h0 : x.significand ≠ 0 := fun h0 =>
      hy (value_eq_zero.mp (hv.trans (by simp [Dyadic.value, h0])))
    -- no double is so far out that its decimals are cut off
    obtain ⟨hlow, hhigh⟩ := Dyadic.log_value hx hc h0
    rw [bits_eq hy, hv, if_neg (by omega), if_neg (by omega)]
    exact Dyadic.nearestBits_value hx y.fraction_pos.ne' (y.quotient_fraction.trans hv) hc

end

theorem value_exactly (x : Dyadic) : (exactly x).value = x.value := by
  unfold exactly
  split
  case isTrue h =>
    rw [value, Dyadic.value, Nat.shiftLeft_eq, natCast_two_zpow h]
    push_cast
    rw [mul_one]
  case isFalse h =>
    obtain ⟨k, hk⟩ : ∃ k : Nat, x.scale = -(k : Int) := ⟨(-x.scale).toNat, by omega⟩
    have hten : (10 : ℚ) ^ k = 2 ^ k * 5 ^ k := by rw [← mul_pow]; norm_num
    rw [value, Dyadic.value, hk, neg_neg, Int.toNat_natCast, zpow_neg, zpow_neg, zpow_natCast,
      zpow_natCast, hten]
    simp only [Nat.pow_eq]
    push_cast
    field_simp

/-- A search ends in what has the bits or in what it was given. -/
theorem bits_search {n d b : Nat} {k : Int} {otherwise : Decimal} (h : otherwise.bits = b) :
    ∀ fuel count, (search n d b k otherwise fuel count).bits = b
  | 0, _ => h
  | fuel + 1, count => by
    simp only [search]
    split
    · assumption
    · split
      · assumption
      · exact bits_search h fuel (count + 1)

theorem bits_shortestOfBits {b : Nat} (hb : b < infinityBits) : (shortestOfBits b).bits = b := by
  have hcode : (Dyadic.ofBits b).code = b := Dyadic.code_ofBits (hb.trans (by decide))
  have hexact : (exactly (Dyadic.ofBits b)).bits = b :=
    (bits_of_value (Dyadic.canonical_ofBits b) (hcode.symm ▸ hb) (value_exactly _)).trans hcode
  simp only [shortestOfBits]
  split
  case isTrue h =>
    have hv : (⟨0, 0⟩ : Decimal).value = (exactly (Dyadic.ofBits b)).value := by
      rw [value_exactly, ← Dyadic.quotient_ratio, h]
      simp [value, quotient]
    rw [bits_congr hv, hexact]
  case isFalse => exact bits_search hexact _ _

end Biotope.Decimal
