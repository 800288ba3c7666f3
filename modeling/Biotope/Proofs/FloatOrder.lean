import Biotope.Proofs.FloatProducts

/-!
# Rounding and order

No double is nearer to an exact sum or product than the rounded one. So rounding does not lead
past a double: what is at most a double is rounded to at most that double, and what is at least
a double to at least that one.
-/

namespace Biotope

open Float.Model (Format UnpackedFloat)
open Float.Model.UnpackedFloat
open Decimal (Dyadic isFinite)

/-! ## Nearest doubles -/

theorem regular_cases {u : UnpackedFloat} (hu : Regular u) (h : 0 ≤ valueOf u) :
    (∃ s, u = .zero s) ∨
      ∃ m e hm, u = .finite .positive m e hm ∧ (Dyadic.mk m e).Canonical := by
  cases hu with
  | zero s => exact .inl ⟨s, rfl⟩
  | @finite s m e hm hc =>
    cases s with
    | positive => exact .inr ⟨m, e, hm, rfl, hc⟩
    | negative => exact absurd h (not_le.mpr (neg_lt_zero.mpr (Dyadic.value_pos hm e)))

theorem near_whole {n : Nat} {q : ℚ} (h : |(n : ℚ) - q| ≤ 1 / 2) (k : Nat) :
    |(n : ℚ) - q| ≤ |(k : ℚ) - q| := by
  by_cases hk : n = k
  · rw [hk]
  · have hone : (1 : ℚ) ≤ |(n : ℚ) - k| := by
      have : (1 : Int) ≤ |(n : Int) - k| := Int.one_le_abs (by omega)
      exact_mod_cast this
    have htriangle := abs_sub_le (n : ℚ) q k
    rw [abs_sub_comm q] at htriangle
    linarith

/-- A double lies on the grid of a given exponent, or is below all numbers that fill a mantissa
there. -/
theorem Decimal.Dyadic.Canonical.grid_or_below {d : Dyadic} (hd : d.Canonical) (t : Int) :
    (∃ k : Nat, d.value = k * 2 ^ t) ∨ -1074 < t ∧ d.value ≤ (2 ^ 52 : Nat) * 2 ^ t := by
  rcases le_or_gt t d.scale with h | h
  · left
    obtain ⟨a, ha⟩ := Int.eq_ofNat_of_zero_le (show 0 ≤ d.scale - t by omega)
    refine ⟨d.significand * 2 ^ a, ?_⟩
    rw [Dyadic.value, show d.scale = a + t by omega, zpow_add₀ two_ne_zero, zpow_natCast]
    push_cast
    ring
  · right
    have hshort : (d.significand : ℚ) ≤ 2 ^ 53 := by exact_mod_cast hd.short.le
    refine ⟨lt_of_le_of_lt hd.least h, ?_⟩
    calc d.value ≤ 2 ^ 53 * 2 ^ d.scale := by unfold Dyadic.value; gcongr
      _ = 2 ^ 52 * 2 ^ (d.scale + 1) := by rw [zpow_add₀ two_ne_zero]; ring
      _ ≤ 2 ^ 52 * 2 ^ t := by gcongr; exacts [one_le_two, h]
      _ = (2 ^ 52 : Nat) * 2 ^ t := by push_cast; rfl

/-- A number as doubles have it, and no double is nearer to `q`. -/
structure Nearest (q : ℚ) (u : UnpackedFloat) : Prop where
  regular : Regular u
  nonneg : 0 ≤ valueOf u
  near : ∀ d : Decimal.Dyadic, d.Canonical → |valueOf u - q| ≤ |d.value - q|

theorem nearest_self {u : UnpackedFloat} (hu : Regular u) (h : 0 ≤ valueOf u) :
    Nearest (valueOf u) u :=
  ⟨hu, h, fun d _ => by rw [sub_self, abs_zero]; exact abs_nonneg _⟩

theorem nearest_round {m : Nat} (hm : 0 < m) (e : Int) :
    Nearest (m * 2 ^ e) (Float.Model.UnpackedFloat.round Format.binary64 .positive m e) := by
  obtain ⟨t, ht⟩ : ∃ t : Int, t = max (m.log2 + 1 + e - 53) (-1074) := ⟨_, rfl⟩
  obtain ⟨n, hreg, hval, -, hnear⟩ := round_grid hm ht .positive
  have hval : valueOf (Float.Model.UnpackedFloat.round Format.binary64 .positive m e) =
      n * 2 ^ t := hval
  refine ⟨hreg, by rw [hval]; positivity, fun d hd => ?_⟩
  have hscale : (m : ℚ) * 2 ^ e = m * 2 ^ (e - t) * 2 ^ t := by
    rw [mul_assoc, ← zpow_add₀ two_ne_zero, Int.sub_add_cancel]
  have hpow : (0 : ℚ) < 2 ^ t := by positivity
  have hgrid (k : Nat) :
      |(n : ℚ) * 2 ^ t - m * 2 ^ e| ≤ |(k : ℚ) * 2 ^ t - m * 2 ^ e| := by
    rw [hscale, ← sub_mul, ← sub_mul, abs_mul, abs_mul]
    exact mul_le_mul_of_nonneg_right (near_whole hnear k) (abs_nonneg _)
  rw [hval]
  rcases hd.grid_or_below t with ⟨k, hk⟩ | ⟨hlow, hbelow⟩
  · rw [hk]
    exact hgrid k
  -- the double is beyond the least number of the grid that fills a mantissa
  · have hfull : ((2 ^ 52 : Nat) : ℚ) * 2 ^ t ≤ m * 2 ^ e := by
      rw [hscale]
      push_cast
      gcongr
      exact full_scaled hm ht hlow
    refine (hgrid (2 ^ 52)).trans ?_
    rw [abs_of_nonpos (sub_nonpos.mpr hfull), abs_of_nonpos (sub_nonpos.mpr (hbelow.trans hfull))]
    linarith

/-! ## Rounded floats -/

/-- The float is a nearest double to `q`, or infinite if that is out of range. -/
def Rounds (z : Float) (q : ℚ) : Prop :=
  ∃ u, z = Float.ofModel (Float.Model.pack u) ∧ Nearest q u

theorem isFinite_infinity (s : Sign) :
    isFinite (Float.ofModel (Float.Model.pack (.infinity s))) = false := by
  cases s <;> decide +kernel

theorem within_of_isFinite {u : UnpackedFloat} (hu : Regular u)
    (h : isFinite (Float.ofModel (Float.Model.pack u)) = true) : Within 971 u := by
  cases hu with
  | zero s => trivial
  | @finite s m e hm hc =>
    by_contra hlarge
    have hlarge : 971 < e := lt_of_not_ge hlarge
    have hover : 2 ^ 11 ≤ (e + (Format.binary64.exponentBias : Nat) + (52 : Nat)).toNat + 1 := by
      have : (e + (Format.binary64.exponentBias : Nat) + (52 : Nat)) = e + 1075 := by
        show e + 1023 + 52 = _
        omega
      omega
    have hpack : pack Format.binary64 (.finite s m e hm) = pack Format.binary64 (.infinity s) := by
      simp only [pack]
      exact if_pos hover
    have hinfinite := isFinite_infinity s
    simp only [Float.Model.pack, hpack] at h hinfinite
    rw [h] at hinfinite
    cases hinfinite

theorem dyadic_of_isFinite {d : Float} (hd : isFinite d = true) (h : 0 ≤ rational d) :
    ∃ b : Decimal.Dyadic, b.Canonical ∧ b.scale ≤ 971 ∧ rational d = b.value := by
  obtain ⟨hreg, hwithin⟩ := regular_unpack hd
  rw [rational] at h ⊢
  rcases regular_cases hreg h with ⟨s, hs⟩ | ⟨m, e, hm, hs, hc⟩
  · rw [hs]
    refine ⟨⟨0, -1074⟩, ⟨le_rfl, by decide, fun h => absurd h (lt_irrefl _)⟩, by decide, ?_⟩
    exact (zero_mul _).symm
  · rw [hs] at hwithin ⊢
    exact ⟨⟨m, e⟩, hc, hwithin, rfl⟩

namespace Rounds

variable {z d : Float} {q : ℚ} (h : Rounds z q)
include h

theorem nearest (hz : isFinite z = true) : Nearest q z.toModel.unpack := by
  obtain ⟨u, rfl, hu⟩ := h
  have hunpack : (Float.ofModel (Float.Model.pack u)).toModel.unpack = u :=
    unpack_pack hu.regular (within_of_isFinite hu.regular hz)
  rwa [hunpack]

theorem nonneg (hz : isFinite z = true) : 0 ≤ rational z := (h.nearest hz).nonneg

variable (hd : isFinite d = true) (hpos : 0 ≤ rational d)
include hd hpos

theorem near (hz : isFinite z = true) : |rational z - q| ≤ |rational d - q| := by
  obtain ⟨b, hb, -, hvalue⟩ := dyadic_of_isFinite hd hpos
  rw [hvalue]
  exact (h.nearest hz).near b hb

theorem ge (hz : isFinite z = true) (hq : rational d ≤ q) : rational d ≤ rational z := by
  have hnear := h.near hd hpos hz
  rw [abs_of_nonpos (sub_nonpos.mpr hq)] at hnear
  have := (abs_le.mp hnear).1
  linarith

theorem le (hq : q ≤ rational d) : isFinite z = true ∧ rational z ≤ rational d := by
  obtain ⟨b, hb, hscale, hvalue⟩ := dyadic_of_isFinite hd hpos
  obtain ⟨u, rfl, hu⟩ := h
  have hle : valueOf u ≤ b.value := by
    have hnear := hu.near b hb
    rw [← hvalue, abs_of_nonneg (sub_nonneg.mpr hq), hvalue] at hnear
    have := (abs_le.mp hnear).2
    linarith
  have hwithin : Within 971 u := by
    rcases regular_cases hu.regular hu.nonneg with ⟨s, rfl⟩ | ⟨m, e, hm, rfl, hc⟩
    · trivial
    · by_contra hlarge
      have hlarge : 971 < e := lt_of_not_ge hlarge
      exact absurd hle (not_le.mpr (Dyadic.value_lt_of_scale_lt hb hc (hscale.trans_lt hlarge)))
  have hunpack : (Float.ofModel (Float.Model.pack u)).toModel.unpack = u :=
    unpack_pack hu.regular hwithin
  refine ⟨isFinite_of_unpack (by rw [hunpack]; exact hu.regular), ?_⟩
  rw [rational, hunpack, hvalue]
  exact hle

end Rounds

/-- The lesser of two numbers is not rounded to the greater float, however ties are broken. -/
theorem Rounds.mono {y z : Float} {p q : ℚ} (h : Rounds y p) (h' : Rounds z q)
    (hy : isFinite y = true) (hz : isFinite z = true) (hlt : p < q) : rational y ≤ rational z := by
  by_contra hgt
  have hgt : rational z < rational y := not_le.mp hgt
  have hlow : rational y + rational z ≤ 2 * p := by
    have hnear := sq_le_sq.mpr (h.near hz (h'.nonneg hz) hy)
    nlinarith only [hnear, hgt]
  have hhigh : 2 * q ≤ rational y + rational z := by
    have hnear := sq_le_sq.mpr (h'.near hy (h.nonneg hy) hz)
    nlinarith only [hnear, hgt]
  linarith

/-! ## Sums and products -/

section
variable {u v : UnpackedFloat} (hu : Regular u) (hv : Regular v) (hu0 : 0 ≤ valueOf u)
  (hv0 : 0 ≤ valueOf v)
include hu hv hu0 hv0

theorem nearest_mul :
    Nearest (valueOf u * valueOf v) (UnpackedFloat.mul Format.binary64 u v) := by
  have hzero (s : Sign) {q : ℚ} (hq : q = 0) : Nearest q (.zero s) :=
    hq ▸ nearest_self (.zero s) le_rfl
  rcases regular_cases hu hu0 with ⟨s, rfl⟩ | ⟨m, e, hm, rfl, hc⟩
  · rcases regular_cases hv hv0 with ⟨t, rfl⟩ | ⟨m', e', hm', rfl, hc'⟩
    · exact hzero _ (zero_mul _)
    · exact hzero _ (zero_mul _)
  · rcases regular_cases hv hv0 with ⟨t, rfl⟩ | ⟨m', e', hm', rfl, hc'⟩
    · exact hzero _ (mul_zero _)
    · have hvalue : valueOf (.finite .positive m e hm) * valueOf (.finite .positive m' e' hm') =
          (m * m' : Nat) * 2 ^ (e + e') := by
        show (m : ℚ) * 2 ^ e * (m' * 2 ^ e') = _
        rw [zpow_add₀ two_ne_zero, Nat.cast_mul]
        ring
      have hmul : UnpackedFloat.mul Format.binary64 (.finite .positive m e hm)
          (.finite .positive m' e' hm') =
          Float.Model.UnpackedFloat.round Format.binary64 .positive (m * m') (e + e') :=
        roundWithAccuracy_eq_round .positive (add_le_targetExponent hm hm' hc hc')
      rw [hvalue, hmul]
      exact nearest_round (Nat.mul_pos hm hm') (e + e')

theorem nearest_add :
    Nearest (valueOf u + valueOf v) (UnpackedFloat.add Format.binary64 u v) := by
  have hself {w : UnpackedFloat} (hw : Regular w) (hw0 : 0 ≤ valueOf w) {q : ℚ}
      (hq : q = valueOf w) : Nearest q w := hq ▸ nearest_self hw hw0
  rcases regular_cases hu hu0 with ⟨s, rfl⟩ | ⟨m, e, hm, rfl, hc⟩
  · rcases regular_cases hv hv0 with ⟨t, rfl⟩ | ⟨m', e', hm', rfl, hc'⟩
    · have hadd : ∃ r, UnpackedFloat.add Format.binary64 (.zero s) (.zero t) = .zero r := by
        cases s <;> cases t <;> exact ⟨_, rfl⟩
      obtain ⟨r, hr⟩ := hadd
      rw [hr]
      exact hself (.zero r) le_rfl (add_zero 0)
    · exact hself hv hv0 (zero_add _)
  · rcases regular_cases hv hv0 with ⟨t, rfl⟩ | ⟨m', e', hm', rfl, hc'⟩
    · exact hself hu hu0 (add_zero _)
    · -- at the lesser exponent both numbers are whole
      obtain ⟨a, ha⟩ : ∃ a, (decreaseExponent m e (min e e')).1 = a := ⟨_, rfl⟩
      obtain ⟨b, hb⟩ : ∃ b, (decreaseExponent m' e' (min e e')).1 = b := ⟨_, rfl⟩
      have hleft := decreaseExponent_value .positive m (min_le_left e e')
      have hright := decreaseExponent_value .positive m' (min_le_right e e')
      rw [ha] at hleft
      rw [hb] at hright
      have hpos : 0 < a := by
        have hvalue := Dyadic.value_pos hm e
        have : (0 : ℚ) < a * 2 ^ min e e' := hleft.symm ▸ hvalue
        exact_mod_cast (pos_iff_pos_of_mul_pos this).mpr (by positivity)
      have hvalue : valueOf (.finite .positive m e hm) + valueOf (.finite .positive m' e' hm') =
          (a + b : Nat) * 2 ^ min e e' := by
        rw [Nat.cast_add, add_mul]
        exact congrArg₂ (· + ·) hleft.symm hright.symm
      have hadd : UnpackedFloat.add Format.binary64 (.finite .positive m e hm)
          (.finite .positive m' e' hm') =
          Float.Model.UnpackedFloat.round Format.binary64 .positive (a + b) (min e e') := by
        subst ha hb
        exact normalize_natCast .positive (Nat.add_pos_left hpos _) _
      rw [hvalue, hadd]
      exact nearest_round (Nat.add_pos_left hpos b) _

end

section
variable {x y : Float} (hx : isFinite x = true) (hy : isFinite y = true) (hx0 : 0 ≤ rational x)
  (hy0 : 0 ≤ rational y)
include hx hy hx0 hy0

theorem mul_rounds : Rounds (x * y) (rational x * rational y) :=
  ⟨_, rfl, nearest_mul (regular_unpack hx).1 (regular_unpack hy).1 hx0 hy0⟩

theorem add_rounds : Rounds (x + y) (rational x + rational y) :=
  ⟨_, rfl, nearest_add (regular_unpack hx).1 (regular_unpack hy).1 hx0 hy0⟩

end

inductive Irregular : UnpackedFloat → Prop where
  | infinity (s : Sign) : Irregular (.infinity s)
  | notANumber : Irregular .notANumber

theorem irregular_unpack {x : Float} (hx : isFinite x = false) : Irregular x.toModel.unpack := by
  rcases Decimal.unpack_of_not_isFinite hx with ⟨s, hs⟩ | hs
  · exact hs ▸ .infinity s
  · exact hs ▸ .notANumber

namespace Irregular

variable {u : UnpackedFloat} (h : Irregular u)
include h

theorem isFinite_eq : isFinite (Float.ofModel (Float.Model.pack u)) = false := by
  cases h with
  | infinity s => exact isFinite_infinity s
  | notANumber => decide +kernel

theorem add_left (v : UnpackedFloat) : Irregular (UnpackedFloat.add Format.binary64 u v) := by
  cases h with
  | infinity s =>
    cases v with
    | infinity t => cases s <;> cases t <;> constructor
    | notANumber => exact .notANumber
    | zero t => exact .infinity s
    | finite t m e hm => exact .infinity s
  | notANumber => exact .notANumber

theorem add_right (v : UnpackedFloat) : Irregular (UnpackedFloat.add Format.binary64 v u) := by
  cases h with
  | infinity s =>
    cases v with
    | infinity t => cases s <;> cases t <;> constructor
    | notANumber => exact .notANumber
    | zero t => exact .infinity s
    | finite t m e hm => exact .infinity s
  | notANumber => cases v <;> exact .notANumber

end Irregular

/-- A sum that is finite has finite summands. -/
theorem isFinite_of_add {x y : Float} (h : isFinite (x + y) = true) :
    isFinite x = true ∧ isFinite y = true := by
  have hsum : x + y = Float.ofModel (Float.Model.pack
      (UnpackedFloat.add Format.binary64 x.toModel.unpack y.toModel.unpack)) := rfl
  rw [hsum] at h
  by_contra hxy
  have hadd : Irregular
      (UnpackedFloat.add Format.binary64 x.toModel.unpack y.toModel.unpack) := by
    rcases not_and_or.mp hxy with hx | hy
    · exact (irregular_unpack (Bool.eq_false_iff.mpr hx)).add_left _
    · exact (irregular_unpack (Bool.eq_false_iff.mpr hy)).add_right _
  rw [hadd.isFinite_eq] at h
  cases h

/-! ## The order of bit patterns -/

theorem Decimal.Dyadic.Canonical.value_lt_of_code_lt {a b : Dyadic} (ha : a.Canonical)
    (hb : b.Canonical) (h : a.code < b.code) : a.value < b.value := by
  have hshort := ha.short
  have hleast := ha.least
  have hshort' := hb.short
  have hleast' := hb.least
  rw [Dyadic.code_eq, Dyadic.code_eq] at h
  rcases lt_trichotomy a.scale b.scale with hs | hs | hs
  · exact Dyadic.value_lt_of_scale_lt ha hb hs
  · rw [hs] at h
    have hm : (a.significand : ℚ) < b.significand := by exact_mod_cast (by omega)
    rw [Dyadic.value, Dyadic.value, hs]
    gcongr
  · have hfull := ha.full (by omega)
    omega

theorem toBits_ofBits {b : UInt64} (hb : b.toNat < Decimal.infinityBits) :
    (Float.ofBits b).toBits = b := by
  have hexp := Decimal.exponent_ne ((Nat.mod_le b.toNat (2 ^ 63)).trans_lt hb)
  exact congrArg UInt64.ofBitVec (pack_unpack b.toBitVec ⟨fun he => absurd he hexp⟩)

/-- Up to the sign the value of a finite pattern can be read off its bits. -/
theorem valueOf_unpack {b : BitVec Format.binary64.numBits} (he : unpackExponent b ≠ -1#_) :
    valueOf (unpack Format.binary64 b) =
      signed (Sign.ofBitVec (unpackSign b)) (Decimal.Dyadic.ofBits b.toNat).value := by
  have hexp := toNat_exponent b
  have hmantissa := toNat_mantissa b
  by_cases he0 : unpackExponent b = 0#_
  · rw [he0] at hexp
    rw [Dyadic.ofBits_subnormal hexp.symm, ← hmantissa]
    by_cases hm0 : unpackMantissa b = 0#_
    · simp only [unpack, he0, hm0]
      simp [valueOf, Dyadic.value, signed_zero]
    · simp only [unpack, he0, if_true, dif_neg hm0]
      rfl
  · have hne : b.toNat / 2 ^ 52 % 2 ^ 11 ≠ 0 := by
      rw [← hexp]
      exact fun h => he0 (BitVec.eq_of_toNat_eq h)
    rw [Dyadic.ofBits_normal hne, ← hmantissa, ← hexp]
    simp only [unpack, if_neg he, if_neg he0, toNat_implicit, valueOf]
    rw [Nat.add_comm]
    rfl

theorem rational_eq {x : Float} (hx : isFinite x = true) : rational x =
    signed (Sign.ofBitVec (@unpackSign Format.binary64 x.toBits.toBitVec))
      (Decimal.Dyadic.ofBits x.toBits.toNat).value :=
  valueOf_unpack (Decimal.exponent_of_isFinite hx)

theorem rational_of_bits {x : Float} (hx : x.toBits.toNat < Decimal.infinityBits) :
    isFinite x = true ∧ rational x = (Decimal.Dyadic.ofBits x.toBits.toNat).value := by
  have hfinite : isFinite x = true := by
    rw [Decimal.isFinite, Decimal.magnitudeBits, decide_eq_true_eq]
    exact (Nat.mod_le _ _).trans_lt hx
  have hsign : @unpackSign Format.binary64 x.toBits.toBitVec = 0#1 := by
    apply BitVec.eq_of_toNat_eq
    rw [toNat_sign]
    unfold Decimal.infinityBits at hx
    exact Nat.div_eq_of_lt (hx.trans (by decide))
  refine ⟨hfinite, ?_⟩
  rw [rational_eq hfinite, hsign]
  rfl

theorem bits_of_pos {x : Float} (hx : isFinite x = true) (hpos : 0 < rational x) :
    0 < x.toBits.toNat ∧ x.toBits.toNat < Decimal.infinityBits := by
  have hvalue := rational_eq hx
  have hlt : x.toBits.toNat < 2 ^ 64 := x.toBits.toNat_lt
  rw [Decimal.isFinite, Decimal.magnitudeBits, Nat.one_shiftLeft, decide_eq_true_eq] at hx
  rcases Nat.lt_or_ge x.toBits.toNat (2 ^ 63) with h | h
  · rw [Nat.mod_eq_of_lt h] at hx
    refine ⟨Nat.pos_of_ne_zero fun hzero => ?_, hx⟩
    rw [(rational_of_bits hx).2, hzero, Dyadic.ofBits_subnormal rfl] at hpos
    exact absurd hpos (by simp [Dyadic.value])
  -- with the sign bit set the number would not be above zero
  · have hsign : @unpackSign Format.binary64 x.toBits.toBitVec = 1#1 := by
      apply BitVec.eq_of_toNat_eq
      rw [toNat_sign]
      change x.toBits.toNat / 2 ^ 63 = 1
      omega
    rw [hvalue, hsign] at hpos
    have hneg : -(Decimal.Dyadic.ofBits x.toBits.toNat).value ≤ 0 := by
      unfold Dyadic.value
      rw [neg_nonpos]
      positivity
    exact absurd hpos (not_lt.mpr hneg)

end Biotope
