import Biotope.Proofs.Floats
import Biotope.Proofs.Rounding

/-!
# Floats as rational numbers

A finite float is a rational number, and floats compare like those numbers. The sum of two
floats is rounded: it misses the sum of the numbers by half a unit of its last digit at most.
-/

namespace Biotope

open Float.Model (Format UnpackedFloat totalExponent)
open Float.Model.UnpackedFloat
open Decimal (Dyadic isFinite)

/-! ## Magnitudes in order -/

namespace Decimal.Dyadic

variable {a b : Dyadic}

theorem value_lt_of_scale_lt (ha : a.Canonical) (hb : b.Canonical) (h : a.scale < b.scale) :
    a.value < b.value := by
  have hleast := ha.least
  have hshort : (a.significand : ℚ) < 2 ^ 53 := by exact_mod_cast ha.short
  have hfull : (2 : ℚ) ^ 52 ≤ b.significand := by exact_mod_cast hb.full (by omega)
  calc a.value < 2 ^ 53 * 2 ^ a.scale := by unfold value; gcongr
    _ = 2 ^ 52 * 2 ^ (a.scale + 1) := by rw [zpow_add₀ two_ne_zero]; ring
    _ ≤ 2 ^ 52 * 2 ^ b.scale := by gcongr; exacts [one_le_two, h]
    _ ≤ b.value := by unfold value; gcongr

theorem compare_value (ha : a.Canonical) (hb : b.Canonical) :
    (compare a.scale b.scale).then (compare a.significand b.significand) =
      compare a.value b.value := by
  rcases lt_trichotomy a.scale b.scale with h | h | h
  · rw [compare_lt_iff_lt.mpr h, compare_lt_iff_lt.mpr (value_lt_of_scale_lt ha hb h)]
    rfl
  · have hpow : (0 : ℚ) < 2 ^ b.scale := by positivity
    rw [compare_eq_iff_eq.mpr h, value, value, h]
    rcases lt_trichotomy a.significand b.significand with hm | hm | hm
    · have hv : (a.significand : ℚ) * 2 ^ b.scale < b.significand * 2 ^ b.scale := by gcongr
      rw [compare_lt_iff_lt.mpr hm, compare_lt_iff_lt.mpr hv]
      rfl
    · rw [hm, compare_eq_iff_eq.mpr rfl, compare_eq_iff_eq.mpr rfl]
      rfl
    · have hv : (b.significand : ℚ) * 2 ^ b.scale < a.significand * 2 ^ b.scale := by gcongr
      rw [compare_gt_iff_gt.mpr hm, compare_gt_iff_gt.mpr hv]
      rfl
  · rw [compare_gt_iff_gt.mpr h, compare_gt_iff_gt.mpr (value_lt_of_scale_lt hb ha h)]
    rfl

theorem compare_neg (p q : ℚ) : compare (-p) (-q) = (compare p q).swap := by
  rcases lt_trichotomy p q with h | h | h
  · rw [compare_lt_iff_lt.mpr h, compare_gt_iff_gt.mpr (neg_lt_neg h)]
    rfl
  · rw [compare_eq_iff_eq.mpr h, compare_eq_iff_eq.mpr (congrArg _ h)]
    rfl
  · rw [compare_gt_iff_gt.mpr h, compare_lt_iff_lt.mpr (neg_lt_neg h)]
    rfl

theorem value_pos {m : Nat} (hm : 0 < m) (e : Int) : 0 < (Dyadic.mk m e).value := by
  unfold value
  positivity

end Decimal.Dyadic

/-! ## Values -/

def signed : Sign → ℚ → ℚ
  | .positive, q => q
  | .negative, q => -q

def valueOf : UnpackedFloat → ℚ
  | .finite s m e _ => signed s (Dyadic.mk m e).value
  | _ => 0

inductive Regular : UnpackedFloat → Prop
  | zero (s : Sign) : Regular (.zero s)
  | finite (s : Sign) {m : Nat} {e : Int} (hm : 0 < m) (h : (Dyadic.mk m e).Canonical) :
    Regular (.finite s m e hm)

theorem compare_regular {u v : UnpackedFloat} (hu : Regular u) (hv : Regular v) :
    u.compare v = some (compare (valueOf u) (valueOf v)) := by
  have hlt {a b : ℚ} (h : a < b) : some Ordering.lt = some (compare a b) := by
    rw [compare_lt_iff_lt.mpr h]
  have hgt {a b : ℚ} (h : b < a) : some Ordering.gt = some (compare a b) := by
    rw [compare_gt_iff_gt.mpr h]
  cases hu with
  | zero s =>
    cases hv with
    | zero t => rfl
    | @finite t m e hm h =>
      have hpos := Dyadic.value_pos hm e
      cases t with
      | positive => exact hlt hpos
      | negative => exact hgt (neg_lt_zero.mpr hpos)
  | @finite s m e hm h =>
    have hpos := Dyadic.value_pos hm e
    cases hv with
    | zero t =>
      cases s with
      | positive => exact hgt hpos
      | negative => exact hlt (neg_lt_zero.mpr hpos)
    | @finite t m' e' hm' h' =>
      have hpos' := Dyadic.value_pos hm' e'
      cases s with
      | positive =>
        cases t with
        | positive => exact congrArg some (Dyadic.compare_value h h')
        | negative => exact hgt ((neg_lt_zero.mpr hpos').trans hpos)
      | negative =>
        cases t with
        | positive => exact hlt ((neg_lt_zero.mpr hpos).trans hpos')
        | negative =>
          -- below zero the order of the magnitudes is turned round
          show some (Ordering.swap _) = some (compare (-_) (-_))
          rw [Dyadic.compare_neg, ← Dyadic.compare_value h h']

/-! ## Packing -/

theorem unpack_packComponents (s : Sign) (e : BitVec 11) (m : BitVec 52) :
    @unpackSign Format.binary64 (packComponents Format.binary64 s e m) = s.toBitVec ∧
      @unpackExponent Format.binary64 (packComponents Format.binary64 s e m) = e ∧
      @unpackMantissa Format.binary64 (packComponents Format.binary64 s e m) = m := by
  have hs := s.toBitVec.isLt
  have he := e.isLt
  have hm := m.isLt
  refine ⟨BitVec.eq_of_toNat_eq ?_, BitVec.eq_of_toNat_eq ?_, BitVec.eq_of_toNat_eq ?_⟩
  · rw [toNat_sign, toNat_packComponents]
    omega
  · rw [toNat_exponent, toNat_packComponents]
    omega
  · rw [toNat_mantissa, toNat_packComponents]
    omega

theorem ofBitVec_toBitVec (s : Sign) : Sign.ofBitVec s.toBitVec = s := by
  cases s <;> rfl

theorem toNat_implicit (m : BitVec 52) : (1#1 ++ m).toNat = 2 ^ 52 + m.toNat := by
  rw [BitVec.toNat_append, ← Nat.shiftLeft_add_eq_or_of_lt m.isLt, Nat.shiftLeft_eq]
  rfl

theorem ofNat_ne {w n k : Nat} (hn : n < 2 ^ w) (hk : k < 2 ^ w) (h : n ≠ k) :
    BitVec.ofNat w n ≠ BitVec.ofNat w k := by
  intro heq
  have := congrArg BitVec.toNat heq
  rw [BitVec.toNat_ofNat, BitVec.toNat_ofNat, Nat.mod_eq_of_lt hn, Nat.mod_eq_of_lt hk] at this
  exact h this

theorem unpack_pack_normal (s : Sign) {k : Nat} {e : Int} (hk : k < 2 ^ 52) (he : -1074 ≤ e)
    (he' : e ≤ 971) (hpos : 0 < 2 ^ 52 + k) :
    unpack Format.binary64 (pack Format.binary64 (.finite s (2 ^ 52 + k) e hpos)) =
      .finite s (2 ^ 52 + k) e hpos := by
  obtain ⟨j, hj⟩ := Int.eq_ofNat_of_zero_le (show 0 ≤ e + 1075 by omega)
  have hne : BitVec.ofNat 11 j ≠ -1#_ := ofNat_ne (k := 2047) (by omega) (by omega) (by omega)
  have hne0 : BitVec.ofNat 11 j ≠ 0#_ := ofNat_ne (by omega) (by omega) (by omega)
  obtain ⟨hs, hx, hm⟩ := unpack_packComponents s (BitVec.ofNat 11 j) (BitVec.ofNat 52 k)
  rw [pack_normal hk he he' hpos, hj, Int.toNat_natCast]
  simp only [unpack, hs, hx, hm, if_neg hne, if_neg hne0, toNat_implicit, ofBitVec_toBitVec,
    BitVec.toNat_ofNat, Nat.mod_eq_of_lt hk]
  congr 1
  rw [Nat.mod_eq_of_lt (by omega)]
  show (j : Int) - (1023 + 52) = e
  omega

theorem unpack_pack_subnormal (s : Sign) {m : Nat} (hm : m < 2 ^ 52) (hpos : 0 < m) :
    unpack Format.binary64 (pack Format.binary64 (.finite s m (-1074) hpos)) =
      .finite s m (-1074) hpos := by
  have hne : (0#11) ≠ -1#_ := by decide
  have hne0 : BitVec.ofNat 52 m ≠ 0#_ := ofNat_ne hm (by omega) (by omega)
  obtain ⟨hs, hx, hmant⟩ := unpack_packComponents s 0#11 (BitVec.ofNat 52 m)
  rw [pack_subnormal hm hpos]
  simp only [unpack, hs, hx, hmant, if_neg hne, if_true, dif_neg hne0, ofBitVec_toBitVec,
    BitVec.toNat_ofNat, Nat.mod_eq_of_lt hm]
  rfl

def Within (k : Int) : UnpackedFloat → Prop
  | .finite _ _ e _ => e ≤ k
  | _ => True

theorem Within.mono {j k : Int} {u : UnpackedFloat} (h : Within j u) (hjk : j ≤ k) : Within k u := by
  cases u with
  | finite s m e hm => exact le_trans h hjk
  | zero s | infinity s | notANumber => trivial

theorem unpack_pack {u : UnpackedFloat} (hu : Regular u) (hf : Within 971 u) :
    unpack Format.binary64 (pack Format.binary64 u) = u := by
  cases hu with
  | zero s => cases s <;> rfl
  | @finite s m e hm h =>
    by_cases hn : 2 ^ 52 ≤ m
    · obtain ⟨k, rfl⟩ := Nat.exists_eq_add_of_le hn
      exact unpack_pack_normal s (by have : 2 ^ 52 + k < 2 ^ 53 := h.short; omega) h.least hf hm
    · have he : e = -1074 := by
        by_contra hne
        exact hn (h.full (lt_of_le_of_ne h.least (Ne.symm hne)))
      subst he
      exact unpack_pack_subnormal s (by omega) hm

theorem unpack_cases (b : BitVec Format.binary64.numBits) :
    (∃ s, unpack Format.binary64 b = .infinity s) ∨ unpack Format.binary64 b = .notANumber ∨
      Regular (unpack Format.binary64 b) ∧ Within 971 (unpack Format.binary64 b) := by
  have hm : (unpackMantissa b).toNat < 2 ^ 52 := (unpackMantissa b).isLt
  by_cases he : unpackExponent b = -1#_
  · by_cases hm0 : unpackMantissa b = 0#_
    · exact .inl ⟨_, by simp only [unpack, he, hm0, if_true]; rfl⟩
    · exact .inr (.inl (by simp only [unpack, he, if_true, if_neg hm0]))
  · refine .inr (.inr ?_)
    by_cases he0 : unpackExponent b = 0#_
    · by_cases hm0 : unpackMantissa b = 0#_
      · simp only [unpack, he0, if_true, dif_pos hm0]
        exact ⟨.zero _, trivial⟩
      · simp only [unpack, he0, if_true, dif_neg hm0]
        refine ⟨.finite _ _ ⟨show (-1074 : Int) ≤ -1074 by omega, ?_, fun h => ?_⟩,
          show (-1074 : Int) ≤ 971 by omega⟩
        · show (unpackMantissa b).toNat < 2 ^ 53
          omega
        · exact absurd (show (-1074 : Int) < -1074 from h) (lt_irrefl _)
    · have hpos : 0 < (unpackExponent b).toNat :=
        Nat.pos_of_ne_zero fun h => he0 (BitVec.eq_of_toNat_eq h)
      have hlt : (unpackExponent b).toNat < 2047 :=
        lt_of_le_of_ne (Nat.lt_succ_iff.mp (unpackExponent b).isLt) fun h =>
          he (BitVec.eq_of_toNat_eq h)
      have himp := toNat_implicit (unpackMantissa b)
      simp only [unpack, if_neg he, if_neg he0]
      refine ⟨.finite _ _ ⟨?_, ?_, fun _ => ?_⟩, ?_⟩
      · show (-1074 : Int) ≤ (unpackExponent b).toNat - (1023 + 52)
        omega
      · show (1#1 ++ unpackMantissa b).toNat < 2 ^ 53
        omega
      · show 2 ^ 52 ≤ (1#1 ++ unpackMantissa b).toNat
        omega
      · show ((unpackExponent b).toNat : Int) - (1023 + 52) ≤ 971
        omega

/-! ## Finite floats -/

/-- The number that a finite float is. -/
def rational (x : Float) : ℚ := valueOf x.toModel.unpack

theorem regular_unpack {x : Float} (h : isFinite x = true) :
    Regular x.toModel.unpack ∧ Within 971 x.toModel.unpack := by
  rcases unpack_cases x.toModel.toBits.toBitVec with ⟨s, hs⟩ | hs | hx
  · have hs : x.toModel.unpack = .infinity s := hs
    rcases Decimal.unpack_of_isFinite h with ⟨t, ht⟩ | ⟨t, m, e, hm, ht⟩ <;>
      cases hs.symm.trans ht
  · have hs : x.toModel.unpack = .notANumber := hs
    rcases Decimal.unpack_of_isFinite h with ⟨t, ht⟩ | ⟨t, m, e, hm, ht⟩ <;>
      cases hs.symm.trans ht
  · exact hx

theorem isFinite_of_unpack {x : Float} (h : Regular x.toModel.unpack) : isFinite x = true := by
  by_contra hx
  rcases Decimal.unpack_of_not_isFinite (Bool.eq_false_iff.mpr hx) with ⟨s, hs⟩ | hs
  · rw [hs] at h
    cases h
  · rw [hs] at h
    cases h

section
variable {x y : Float} (hx : isFinite x = true) (hy : isFinite y = true)
include hx hy

theorem le_iff_rational : x ≤ y ↔ rational x ≤ rational y := by
  have hcmp := compare_regular (regular_unpack hx).1 (regular_unpack hy).1
  have hle : x ≤ y ↔ UnpackedFloat.le x.toModel.unpack y.toModel.unpack = true := decide_eq_true_iff
  rw [hle, UnpackedFloat.le, hcmp, Option.any_some, rational, rational, Ordering.isLE_iff_ne_gt,
    compare_gt_iff_gt, not_lt]

theorem lt_iff_rational : x < y ↔ rational x < rational y := by
  have hcmp := compare_regular (regular_unpack hx).1 (regular_unpack hy).1
  have hlt : x < y ↔ UnpackedFloat.lt x.toModel.unpack y.toModel.unpack = true := decide_eq_true_iff
  rw [hlt, UnpackedFloat.lt, hcmp, beq_iff_eq, Option.some_inj, compare_lt_iff_lt]
  rfl

theorem beq_iff_rational : (x == y) = true ↔ rational x = rational y := by
  have hcmp := compare_regular (regular_unpack hx).1 (regular_unpack hy).1
  have hbeq : (x == y) = UnpackedFloat.beq x.toModel.unpack y.toModel.unpack := rfl
  rw [hbeq, UnpackedFloat.beq, hcmp, beq_iff_eq, Option.some_inj, compare_eq_iff_eq]
  rfl

end

theorem rational_zero : rational 0.0 = 0 := rfl

theorem rational_one : rational 1.0 = 1 := by
  show ((2 ^ 52 : Nat) : ℚ) * 2 ^ (-52 : Int) = 1
  norm_num [zpow_neg]

theorem finite_zero : isFinite 0.0 = true := by decide +kernel
theorem finite_one : isFinite 1.0 = true := by decide +kernel

/-- Finite floats other than zeros differ in value. -/
theorem eq_of_rational_eq {x y : Float} (hx : isFinite x = true) (hy : isFinite y = true)
    (h : rational x = rational y) (hpos : 0 < rational x) : x = y := by
  apply eq_of_unpack_eq
  have hcmp := compare_regular (regular_unpack hx).1 (regular_unpack hy).1
  have hy' : 0 < valueOf y.toModel.unpack := lt_of_lt_of_eq hpos h
  rw [compare_eq_iff_eq.mpr (show valueOf _ = valueOf _ from h)] at hcmp
  rcases Decimal.unpack_of_isFinite hx with ⟨s, hs⟩ | ⟨s, m, e, hm, hs⟩
  · rw [rational, hs] at hpos
    exact absurd hpos (lt_irrefl 0)
  · rcases Decimal.unpack_of_isFinite hy with ⟨t, ht⟩ | ⟨t, m', e', hm', ht⟩
    · rw [ht] at hy'
      exact absurd hy' (lt_irrefl 0)
    · rw [rational, hs] at hpos
      rw [hs, ht] at hcmp ⊢
      rw [ht] at hy'
      cases s with
      | negative => exact absurd hpos (neg_lt_zero.mpr (Dyadic.value_pos hm e)).not_gt
      | positive =>
        cases t with
        | negative => exact absurd hy' (neg_lt_zero.mpr (Dyadic.value_pos hm' e')).not_gt
        | positive =>
          obtain ⟨he, hm⟩ := Ordering.then_eq_eq.mp (Option.some_inj.mp hcmp)
          cases compare_eq_iff_eq.mp he
          cases compare_eq_iff_eq.mp hm
          rfl

/-! ## Rounding -/

/-- The bits that were cut off are kept in mind well enough for rounding: the number lies
below the middle between two mantissas, on it or above it. -/
def Tracks (m : ExtendedMantissa) (q : ℚ) : Prop :=
  ∃ r : ℚ, q = m.mantissa + (if m.roundBit then 1 / 2 else 0) + r ∧ 0 ≤ r ∧ r < 1 / 2 ∧
    (m.stickyBit = false → r = 0)

theorem tracks_exact (n : Nat) : Tracks (.ofMantissaAndAccuracy n .exact) n :=
  ⟨0, by simp [ExtendedMantissa.ofMantissaAndAccuracy], le_refl _, by norm_num, fun _ => rfl⟩

namespace Tracks

variable {m : ExtendedMantissa} {q : ℚ}

theorem shiftRightOne (h : Tracks m q) : Tracks m.shiftRightOne (q / 2) := by
  obtain ⟨r, rfl, h0, h1, hr⟩ := h
  obtain ⟨n, a, b⟩ := m
  have hn : (n : ℚ) = 2 * (n / 2 : Nat) + (n % 2 : Nat) := by exact_mod_cast (Nat.div_add_mod n 2).symm
  refine ⟨((if a then 1 / 2 else 0) + r) / 2, ?_, ?_, ?_, fun hs => ?_⟩
  · rcases Nat.mod_two_eq_zero_or_one n with h2 | h2
    · simp only [ExtendedMantissa.shiftRightOne, hn, h2]
      simp
      ring
    · simp only [ExtendedMantissa.shiftRightOne, hn, h2]
      simp
      ring
  · split <;> linarith
  · split <;> linarith
  · simp only [ExtendedMantissa.shiftRightOne, Bool.or_eq_false_iff] at hs
    simp [hs.1, hr hs.2]

theorem shiftRight (h : Tracks m q) (n : Nat) : Tracks (m >>> n) (q / 2 ^ n) := by
  show Tracks (n.repeat ExtendedMantissa.shiftRightOne m) _
  induction n with
  | zero => simpa [Nat.repeat] using h
  | succ n ih =>
    rw [pow_succ, ← div_div]
    exact ih.shiftRightOne

/-- Rounding goes to a nearest mantissa. -/
theorem near (h : Tracks m q) : |(m.roundedMantissa : ℚ) - q| ≤ 1 / 2 := by
  obtain ⟨r, rfl, h0, h1, hr⟩ := h
  obtain ⟨n, a, b⟩ := m
  rw [abs_le]
  cases a with
  | false =>
    have hround : (ExtendedMantissa.mk n false b).roundedMantissa = n := by cases b <;> rfl
    simp only [hround, Bool.false_eq_true, if_false]
    constructor <;> linarith
  | true =>
    cases b with
    | false =>
      have hround : (ExtendedMantissa.mk n true false).roundedMantissa = n + n % 2 := rfl
      have hmod : (0 : ℚ) ≤ (n % 2 : Nat) ∧ ((n % 2 : Nat) : ℚ) ≤ 1 :=
        ⟨by positivity, by exact_mod_cast Nat.le_of_lt_succ (Nat.mod_lt n two_pos)⟩
      rw [hr rfl, hround, Nat.cast_add]
      simp only [if_true]
      constructor <;> linarith
    | true =>
      have hround : (ExtendedMantissa.mk n true true).roundedMantissa = n + 1 := rfl
      rw [hround, Nat.cast_add, Nat.cast_one]
      simp only [if_true]
      constructor <;> linarith

end Tracks

def carried (s : Sign) (n : Nat) (e : Int) : UnpackedFloat :=
  let (m, e) := shiftToTargetExponent Format.binary64 n e .exact
  if h : m.mantissa = 0 then .zero s else .finite s m.mantissa e (Nat.pos_of_ne_zero h)

theorem roundWithAccuracy_eq (s : Sign) (m : Nat) (e : Int) :
    roundWithAccuracy Format.binary64 s m e .exact =
      carried s (shiftToTargetExponent Format.binary64 m e .exact).1.roundedMantissa
        (shiftToTargetExponent Format.binary64 m e .exact).2 := rfl

theorem targetExponent_eq (t : Int) : Format.binary64.targetExponent t = max (t - 53) (-1074) := rfl

theorem carried_eq (s : Sign) {n m k : Nat} {e : Int}
    (hk : (Format.binary64.targetExponent (totalExponent n e) - e).toNat = k)
    (hm : (ExtendedMantissa.ofMantissaAndAccuracy n .exact >>> k).mantissa = m) :
    carried s n e = if h : m = 0 then .zero s else .finite s m (e + k) (Nat.pos_of_ne_zero h) := by
  subst hk hm
  rfl

theorem signed_zero (s : Sign) : signed s 0 = 0 := by
  cases s <;> simp [signed]

theorem carried_spec (s : Sign) {n : Nat} {e : Int} (hn : n ≤ 2 ^ 53) (he : -1074 ≤ e)
    (hfull : -1074 < e → 2 ^ 52 ≤ n) : Regular (carried s n e) ∧
      valueOf (carried s n e) = signed s (n * 2 ^ e) ∧ Within (e + 1) (carried s n e) := by
  rcases hn.lt_or_eq with hlt | rfl
  · have hlog : n.log2 < 53 := by
      by_cases hz : n = 0
      · subst hz; decide
      · exact (Nat.log2_lt hz).mpr hlt
    have hshift : (Format.binary64.targetExponent (totalExponent n e) - e).toNat = 0 := by
      rw [targetExponent_eq, totalExponent]
      omega
    rw [carried_eq s hshift (show _ = n from rfl)]
    by_cases hz : n = 0
    · rw [dif_pos hz, hz, Nat.cast_zero, zero_mul, signed_zero]
      exact ⟨.zero s, rfl, trivial⟩
    · rw [dif_neg hz]
      refine ⟨.finite s _ ⟨?_, hlt, ?_⟩, ?_, ?_⟩
      · show -1074 ≤ e + 0
        omega
      · intro h
        exact hfull (by simpa using h)
      · show signed s (n * 2 ^ (e + 0)) = _
        rw [add_zero]
      · show e + 0 ≤ e + 1
        omega
  -- a mantissa with one digit too many is a power of two
  · have hshift : (Format.binary64.targetExponent (totalExponent (2 ^ 53) e) - e).toNat = 1 := by
      rw [targetExponent_eq, totalExponent, Nat.log2_two_pow]
      omega
    rw [carried_eq s hshift (show _ = 2 ^ 52 from rfl), dif_neg (by decide)]
    refine ⟨.finite s _ ⟨?_, ?_, fun _ => le_refl _⟩, ?_, ?_⟩
    · show -1074 ≤ e + 1
      omega
    · show 2 ^ 52 < 2 ^ 53
      decide
    · show signed s ((2 ^ 52 : Nat) * 2 ^ (e + 1)) = _
      rw [zpow_add₀ two_ne_zero]
      push_cast
      congr 1
      ring
    · exact le_refl (e + 1)

/-! ## Rounding a magnitude -/

theorem shiftToTargetExponent_eq {m : Nat} {e t : Int}
    (ht : Format.binary64.targetExponent (totalExponent m e) = t) (he : e ≤ t) :
    (shiftToTargetExponent Format.binary64 m e .exact).2 = t ∧
      Tracks (shiftToTargetExponent Format.binary64 m e .exact).1 (m * 2 ^ (e - t)) := by
  subst ht
  generalize hT : Format.binary64.targetExponent (totalExponent m e) = t at he ⊢
  obtain ⟨a, ha⟩ := Int.eq_ofNat_of_zero_le (show 0 ≤ t - e by omega)
  have hshift : shiftToTargetExponent Format.binary64 m e .exact =
      (ExtendedMantissa.ofMantissaAndAccuracy m .exact >>> a, e + a) := by
    simp only [shiftToTargetExponent, hT, shiftToExponent, ha, Int.toNat_natCast]
  rw [hshift]
  refine ⟨by dsimp only; omega, ?_⟩
  have hpow : (2 : ℚ) ^ (e - t) = (2 ^ a)⁻¹ := by
    rw [show e - t = -(a : Int) by omega, zpow_neg, zpow_natCast]
  rw [hpow, ← div_eq_mul_inv]
  exact (tracks_exact m).shiftRight a

theorem log_le {m : Nat} (hm : 0 < m) : (2 : ℚ) ^ (m.log2 : Int) ≤ m := by
  rw [zpow_natCast]
  exact_mod_cast Nat.log2_self_le hm.ne'

theorem lt_log_succ (m : Nat) : (m : ℚ) < 2 ^ ((m.log2 : Int) + 1) := by
  have h : ((m.log2 : Int) + 1) = ((m.log2 + 1 : Nat) : Int) := by push_cast; rfl
  rw [h, zpow_natCast]
  exact_mod_cast Nat.lt_log2_self

theorem abs_signed_sub (s : Sign) (p q : ℚ) : |signed s p - signed s q| = |p - q| := by
  cases s with
  | positive => rfl
  | negative =>
    show |-p - -q| = _
    rw [neg_sub_neg, abs_sub_comm]

/-- Rounding brings a magnitude to a double's exponent, and to a nearest mantissa there. -/
theorem round_eq (s : Sign) {m : Nat} (hm : 0 < m) {e t : Int}
    (ht : t = max (m.log2 + 1 + e - 53) (-1074)) :
    ∃ n : Nat, Float.Model.UnpackedFloat.round Format.binary64 s m e = carried s n t ∧
      |(n : ℚ) - m * 2 ^ (e - t)| ≤ 1 / 2 := by
  obtain ⟨a, ha⟩ : ∃ a, (e - t).toNat = a := ⟨_, rfl⟩
  have hlog : (m <<< a).log2 = m.log2 + a := by
    rw [Nat.shiftLeft_eq, Nat.log2_eq_iff (by positivity), Nat.pow_add, Nat.add_right_comm,
      Nat.pow_add]
    exact ⟨Nat.mul_le_mul_right _ (Nat.log2_self_le hm.ne'),
      Nat.mul_lt_mul_of_pos_right Nat.lt_log2_self (by positivity)⟩
  have htarget : Format.binary64.targetExponent (totalExponent (m <<< a) (e - a)) = t := by
    rw [targetExponent_eq, totalExponent, hlog, ht]
    push_cast
    congr 1
    omega
  obtain ⟨hexp, htracks⟩ := shiftToTargetExponent_eq htarget (by omega)
  refine ⟨(shiftToTargetExponent Format.binary64 (m <<< a) (e - a) .exact).1.roundedMantissa, ?_, ?_⟩
  · have hdec : Float.Model.UnpackedFloat.round Format.binary64 s m e =
        roundWithAccuracy Format.binary64 s (m <<< a) (e - a) .exact := by
      subst ha ht
      rfl
    rw [hdec, roundWithAccuracy_eq, hexp]
  · have hq : ((m <<< a : Nat) : ℚ) * 2 ^ (e - a - t) = m * 2 ^ (e - t) := by
      rw [Nat.shiftLeft_eq]
      push_cast
      rw [← zpow_natCast, mul_assoc, ← zpow_add₀ two_ne_zero]
      congr 2
      omega
    rw [← hq]
    exact htracks.near

section
variable {m : Nat} (hm : 0 < m) {e t : Int} (ht : t = max (m.log2 + 1 + e - 53) (-1074))
include hm ht

/-- Above the least exponent the scaled number fills the mantissa. -/
theorem full_scaled (hlow : -1074 < t) : (2 : ℚ) ^ 52 ≤ m * 2 ^ (e - t) :=
  calc (2 : ℚ) ^ 52 = 2 ^ ((m.log2 : Int) + (e - t)) := by
        rw [show (m.log2 : Int) + (e - t) = (52 : Nat) by omega, zpow_natCast]
    _ = 2 ^ (m.log2 : Int) * 2 ^ (e - t) := zpow_add₀ two_ne_zero _ _
    _ ≤ m * 2 ^ (e - t) := by gcongr; exact log_le hm

/-- A rounded number is a double on the grid of the exponent that it was brought to. -/
theorem round_grid (s : Sign) : ∃ n : Nat,
    Regular (Float.Model.UnpackedFloat.round Format.binary64 s m e) ∧
      valueOf (Float.Model.UnpackedFloat.round Format.binary64 s m e) = signed s (n * 2 ^ t) ∧
      Within (t + 1) (Float.Model.UnpackedFloat.round Format.binary64 s m e) ∧
      |(n : ℚ) - m * 2 ^ (e - t)| ≤ 1 / 2 := by
  obtain ⟨n, hround, hnear⟩ := round_eq s hm ht
  have htop : (m : ℚ) * 2 ^ (e - t) < 2 ^ 53 := by
    calc (m : ℚ) * 2 ^ (e - t) < 2 ^ ((m.log2 : Int) + 1) * 2 ^ (e - t) := by
          gcongr; exact lt_log_succ m
      _ = 2 ^ ((m.log2 : Int) + 1 + (e - t)) := (zpow_add₀ two_ne_zero _ _).symm
      _ ≤ 2 ^ (53 : Int) := zpow_le_zpow_right₀ one_le_two (by omega)
      _ = 2 ^ 53 := rfl
  obtain ⟨hbelow, habove⟩ := abs_le.mp hnear
  have hn : n ≤ 2 ^ 53 := by
    have : (n : ℚ) < (2 ^ 53 + 1 : Nat) := by push_cast; linarith
    exact Nat.lt_succ_iff.mp (by exact_mod_cast this)
  have hfull : -1074 < t → 2 ^ 52 ≤ n := by
    intro hlow
    have hbottom := full_scaled hm ht hlow
    have : ((2 ^ 52 : Nat) : ℚ) < (n + 1 : Nat) := by push_cast; linarith
    exact Nat.lt_succ_iff.mp (by exact_mod_cast this)
  rw [hround]
  obtain ⟨hreg, hval, hwithin⟩ := carried_spec s hn (by omega) hfull
  exact ⟨n, hreg, hval, hwithin, hnear⟩

end

/-- Rounding a number below `2 ^ k` misses it by `2 ^ (k - 54)` at most. -/
theorem round_spec (s : Sign) {m : Nat} (hm : 0 < m) {e k : Int} (hk : -1021 ≤ k)
    (hlt : (m : ℚ) * 2 ^ e < 2 ^ k) :
    Regular (Float.Model.UnpackedFloat.round Format.binary64 s m e) ∧
      |valueOf (Float.Model.UnpackedFloat.round Format.binary64 s m e) - signed s (m * 2 ^ e)| ≤
        2 ^ (k - 54) ∧
      Within (k - 52) (Float.Model.UnpackedFloat.round Format.binary64 s m e) := by
  obtain ⟨t, ht⟩ : ∃ t : Int, t = max (m.log2 + 1 + e - 53) (-1074) := ⟨_, rfl⟩
  obtain ⟨n, hreg, hval, hwithin, hnear⟩ := round_grid hm ht s
  have hscale : (m : ℚ) * 2 ^ (e - t) * 2 ^ t = m * 2 ^ e := by
    rw [mul_assoc, ← zpow_add₀ two_ne_zero, Int.sub_add_cancel]
  have hkt : t ≤ k - 53 := by
    have hexp : (2 : ℚ) ^ ((m.log2 : Int) + e) < 2 ^ k := by
      refine lt_of_le_of_lt ?_ hlt
      rw [zpow_add₀ two_ne_zero]
      gcongr
      exact log_le hm
    have := (zpow_lt_zpow_iff_right₀ one_lt_two).mp hexp
    omega
  refine ⟨hreg, ?_, hwithin.mono (by omega)⟩
  rw [hval, abs_signed_sub, ← hscale, ← sub_mul, abs_mul, abs_of_pos (show (0 : ℚ) < 2 ^ t by positivity)]
  calc |(n : ℚ) - m * 2 ^ (e - t)| * 2 ^ t ≤ 1 / 2 * 2 ^ t := by gcongr
    _ = 2 ^ (t - 1) := by rw [zpow_sub_one₀ two_ne_zero]; ring
    _ ≤ 2 ^ (k - 54) := zpow_le_zpow_right₀ one_le_two (by omega)

/-! ## Sums -/

theorem normalize_natCast (s : Sign) {n : Nat} (hn : 0 < n) (e : Int) :
    UnpackedFloat.normalize Format.binary64 n e s =
      Float.Model.UnpackedFloat.round Format.binary64 .positive n e := by
  have hgt : compare (n : Int) 0 = .gt := Int.compare_eq_gt.mpr (by omega)
  simp only [UnpackedFloat.normalize, hgt, Int.toNat_natCast]

theorem normalize_spec (s : Sign) {m e k : Int} (hk : -1021 ≤ k) (hlt : |(m : ℚ) * 2 ^ e| < 2 ^ k) :
    Regular (UnpackedFloat.normalize Format.binary64 m e s) ∧
      |valueOf (UnpackedFloat.normalize Format.binary64 m e s) - m * 2 ^ e| ≤ 2 ^ (k - 54) ∧
      Within (k - 52) (UnpackedFloat.normalize Format.binary64 m e s) := by
  rcases lt_trichotomy m 0 with hm | rfl | hm
  · obtain ⟨n, rfl⟩ : ∃ n : Nat, m = -n := ⟨(-m).toNat, by omega⟩
    have hn : 0 < n := by omega
    rw [UnpackedFloat.normalize, show compare (-(n : Int)) 0 = .lt from Int.compare_eq_lt.mpr hm]
    simp only [neg_neg, Int.toNat_natCast]
    have hsigned : ((-(n : Int) : Int) : ℚ) * 2 ^ e = signed .negative (n * 2 ^ e) := by
      simp [signed]
    rw [hsigned] at hlt ⊢
    refine round_spec .negative hn hk ?_
    simpa [signed, abs_of_pos (show (0 : ℚ) < n * 2 ^ e by positivity)] using hlt
  · refine ⟨.zero s, ?_, trivial⟩
    show |(0 : ℚ) - _| ≤ _
    simp
    positivity
  · obtain ⟨n, rfl⟩ := Int.eq_ofNat_of_zero_le hm.le
    have hn : 0 < n := by omega
    rw [normalize_natCast s hn]
    refine round_spec .positive hn hk (lt_of_abs_lt ?_)
    exact_mod_cast hlt

theorem decreaseExponent_value (s : Sign) (m : Nat) {e t : Int} (ht : t ≤ e) :
    ((s.apply (decreaseExponent m e t).1 : Int) : ℚ) * 2 ^ t = signed s (m * 2 ^ e) := by
  have hval : ((decreaseExponent m e t).1 : ℚ) * 2 ^ t = m * 2 ^ e := by
    rw [decreaseExponent, Nat.shiftLeft_eq]
    push_cast
    rw [← zpow_natCast, mul_assoc, ← zpow_add₀ two_ne_zero]
    congr 2
    omega
  cases s with
  | positive => simpa [Sign.apply, signed] using hval
  | negative => simpa [Sign.apply, signed] using hval

theorem add_spec {u v : UnpackedFloat} (hu : Regular u) (hv : Regular v) (hu' : Within 971 u)
    (hv' : Within 971 v) {k : Int} (hk : -1021 ≤ k) (hk' : k ≤ 1023)
    (h : |valueOf u + valueOf v| < 2 ^ k) :
    Regular (UnpackedFloat.add Format.binary64 u v) ∧
      |valueOf (UnpackedFloat.add Format.binary64 u v) - (valueOf u + valueOf v)| ≤ 2 ^ (k - 54) ∧
      Within 971 (UnpackedFloat.add Format.binary64 u v) := by
  have hexact {p q : ℚ} (hpq : p = q) : |p - q| ≤ 2 ^ (k - 54) := by
    rw [hpq, sub_self, abs_zero]
    positivity
  cases hu with
  | zero s =>
    cases hv with
    | zero t =>
      have hadd : ∃ r, UnpackedFloat.add Format.binary64 (.zero s) (.zero t) = .zero r := by
        cases s <;> cases t <;> exact ⟨_, rfl⟩
      obtain ⟨r, hr⟩ := hadd
      rw [hr]
      exact ⟨.zero r, hexact (add_zero 0).symm, trivial⟩
    | finite t hm hc => exact ⟨.finite t hm hc, hexact (zero_add _).symm, hv'⟩
  | @finite s m e hm hc =>
    cases hv with
    | zero t => exact ⟨.finite s hm hc, hexact (add_zero _).symm, hu'⟩
    | @finite t m' e' hm' hc' =>
      have hsum : ((s.apply (decreaseExponent m e (min e e')).1 +
          t.apply (decreaseExponent m' e' (min e e')).1 : Int) : ℚ) * 2 ^ min e e' =
          valueOf (.finite s m e hm) + valueOf (.finite t m' e' hm') := by
        rw [Int.cast_add, add_mul, decreaseExponent_value s m (min_le_left e e'),
          decreaseExponent_value t m' (min_le_right e e')]
        rfl
      rw [← hsum] at h ⊢
      obtain ⟨hreg, hnear, hwithin⟩ := normalize_spec .positive hk h
      exact ⟨hreg, hnear, hwithin.mono (by omega)⟩

/-- The sum of two finite floats is finite and misses the exact sum by half a unit of the last
digit at most, here in terms of a power of two that the exact sum is below. -/
theorem add_near {x y : Float} (hx : isFinite x = true) (hy : isFinite y = true) {k : Int}
    (hk : -1021 ≤ k) (hk' : k ≤ 1023) (h : |rational x + rational y| < 2 ^ k) :
    isFinite (x + y) = true ∧ |rational (x + y) - (rational x + rational y)| ≤ 2 ^ (k - 54) := by
  obtain ⟨hx1, hx2⟩ := regular_unpack hx
  obtain ⟨hy1, hy2⟩ := regular_unpack hy
  obtain ⟨hreg, hnear, hwithin⟩ := add_spec hx1 hy1 hx2 hy2 hk hk' h
  have hunpack : (x + y).toModel.unpack =
      UnpackedFloat.add Format.binary64 x.toModel.unpack y.toModel.unpack :=
    unpack_pack hreg hwithin
  exact ⟨isFinite_of_unpack (hunpack ▸ hreg), by rw [rational, hunpack]; exact hnear⟩

end Biotope
