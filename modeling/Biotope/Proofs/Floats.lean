import Mathlib
import Biotope.Probability

/-!
# Floats and their bits

A float is its bit pattern, save that there is one NaN only. So the sign and the other
bits of a float give it back, and a probability, which is neither infinite nor a NaN,
has a magnitude below that of infinity.
-/

namespace Biotope

open Float.Model (Format UnpackedFloat)
open Float.Model.UnpackedFloat

/-! ## Fields of a bit pattern -/

section
variable (b : BitVec Format.binary64.numBits)

theorem toNat_sign : (unpackSign b).toNat = b.toNat / 2 ^ 63 := by
  have hb : b.toNat < 2 ^ 64 := b.isLt
  simp [unpackSign, BitVec.extractLsb_toNat, Nat.shiftRight_eq_div_pow]
  omega

theorem toNat_exponent : (unpackExponent b).toNat = b.toNat / 2 ^ 52 % 2 ^ 11 := by
  simp [unpackExponent, BitVec.extractLsb_toNat, Nat.shiftRight_eq_div_pow]

theorem toNat_mantissa : (unpackMantissa b).toNat = b.toNat % 2 ^ 52 := by
  simp [unpackMantissa, BitVec.extractLsb_toNat]

theorem toNat_packComponents (s : Sign) (e : BitVec 11) (m : BitVec 52) :
    (packComponents Format.binary64 s e m).toNat =
      (s.toBitVec.toNat * 2 ^ 11 + e.toNat) * 2 ^ 52 + m.toNat := by
  show (s.toBitVec ++ e ++ m).toNat = _
  rw [BitVec.toNat_append, BitVec.toNat_append, ← Nat.shiftLeft_add_eq_or_of_lt m.isLt,
    ← Nat.shiftLeft_add_eq_or_of_lt e.isLt, Nat.shiftLeft_eq, Nat.shiftLeft_eq]

theorem packComponents_fields :
    packComponents Format.binary64 (Sign.ofBitVec (unpackSign b)) (unpackExponent b)
      (unpackMantissa b) = b := by
  have hsign : (Sign.ofBitVec (unpackSign b)).toBitVec = unpackSign b := by
    generalize unpackSign b = s
    revert s
    decide
  apply BitVec.eq_of_toNat_eq
  rw [toNat_packComponents, hsign, toNat_sign, toNat_exponent, toNat_mantissa]
  omega

theorem log2_implicit {m : Nat} (h : m < 2 ^ 52) : (2 ^ 52 + m).log2 = 52 :=
  (Nat.log2_eq_iff (by omega)).mpr ⟨by omega, by omega⟩

theorem log2_subnormal {m : Nat} (h : m < 2 ^ 52) : m.log2 < 52 := by
  by_cases h0 : m = 0
  · subst h0; decide
  · exact (Nat.log2_lt h0).mpr h

theorem pack_normal {s : Sign} {m : Nat} {e : Int} (hm : m < 2 ^ 52) (he : -1074 ≤ e)
    (he' : e ≤ 971) (hpos : 0 < 2 ^ 52 + m) :
    pack Format.binary64 (.finite s (2 ^ 52 + m) e hpos) =
      packComponents Format.binary64 s (BitVec.ofNat 11 (e + 1075).toNat) (BitVec.ofNat 52 m) := by
  have hbiased : (e + (Format.binary64.exponentBias : Nat) + (52 : Nat)).toNat = (e + 1075).toNat := by
    congr 1
    show e + 1023 + 52 = _
    omega
  have hsmall : ¬ 2 ^ 11 ≤ (e + 1075).toNat + 1 := by omega
  have hmantissa : BitVec.ofNat 52 (2 ^ 52 + m) = BitVec.ofNat 52 m := by
    apply BitVec.eq_of_toNat_eq
    simp
  simp only [pack, hbiased, if_neg hsmall, log2_implicit hm]
  exact (if_pos rfl).trans (by rw [hmantissa])

theorem pack_subnormal {s : Sign} {m : Nat} (hm : m < 2 ^ 52) (hpos : 0 < m) :
    pack Format.binary64 (.finite s m (-1074) hpos) =
      packComponents Format.binary64 s 0#11 (BitVec.ofNat 52 m) := by
  have hlog : ¬ m.log2 + 1 = 53 := by
    have := log2_subnormal hm
    omega
  have hsmall : ¬ 2 ^ 11 ≤ (-1074 + (Format.binary64.exponentBias : Nat) + (52 : Nat) : Int).toNat + 1 := by
    decide
  simp only [pack, if_neg hsmall]
  exact if_neg hlog

/-- Nothing of a valid pattern is lost on the way to a number and back. -/
theorem pack_unpack (hv : Format.binary64.Valid b) :
    pack Format.binary64 (unpack Format.binary64 b) = b := by
  have hfields := packComponents_fields b
  have hm := (unpackMantissa b).isLt
  by_cases he : unpackExponent b = -1#_
  · by_cases hm0 : unpackMantissa b = 0#_
    · rw [he, hm0] at hfields
      simp only [unpack, he, hm0, if_true]
      exact hfields
    · simp only [unpack, he, if_true, if_neg hm0]
      exact (hv.eq_packedNaN he hm0).symm
  · by_cases he0 : unpackExponent b = 0#_
    · by_cases hm0 : unpackMantissa b = 0#_
      · rw [he0, hm0] at hfields
        simp only [unpack, he0, if_true, hm0, dif_pos]
        exact hfields
      · have hpos : 0 < (unpackMantissa b).toNat :=
          Nat.pos_of_ne_zero fun h => hm0 (BitVec.eq_of_toNat_eq h)
        rw [he0] at hfields
        simp only [unpack, he0, if_true, dif_neg hm0]
        refine (pack_subnormal hm hpos).trans ?_
        rwa [BitVec.ofNat_toNat, BitVec.setWidth_eq]
    -- a normal number: the implicit bit comes and goes
    · have happend : (1#1 ++ unpackMantissa b).toNat = 2 ^ 52 + (unpackMantissa b).toNat := by
        rw [BitVec.toNat_append, ← Nat.shiftLeft_add_eq_or_of_lt hm, Nat.shiftLeft_eq]
        rfl
      have hlt : (unpackExponent b).toNat < 2047 := by
        refine lt_of_le_of_ne (Nat.lt_succ_iff.mp (unpackExponent b).isLt) fun h => he ?_
        exact BitVec.eq_of_toNat_eq h
      have hpos : 0 < (unpackExponent b).toNat :=
        Nat.pos_of_ne_zero fun h => he0 (BitVec.eq_of_toNat_eq h)
      have hunpack : unpack Format.binary64 b = .finite (Sign.ofBitVec (unpackSign b))
          (2 ^ 52 + (unpackMantissa b).toNat) ((unpackExponent b).toNat - 1075) (by omega) := by
        simp only [unpack, if_neg he, if_neg he0, happend]
        rfl
      rw [hunpack, pack_normal hm (by omega) (by omega), Int.sub_add_cancel, Int.toNat_natCast,
        BitVec.ofNat_toNat, BitVec.ofNat_toNat, BitVec.setWidth_eq, BitVec.setWidth_eq]
      exact hfields

end

/-! ## Floats by their bits -/

theorem ofBits_toBits (x : Float) : Float.ofBits x.toBits = x := by
  obtain ⟨⟨b, hv⟩⟩ := x
  have h : UInt64.ofBitVec (pack Format.binary64 (unpack Format.binary64 b.toBitVec)) = b := by
    rw [pack_unpack b.toBitVec hv]
  show Float.ofModel (Float.Model.pack (unpack Format.binary64 b.toBitVec)) = _
  congr 1
  unfold Float.Model.pack
  congr 1

theorem pack_unpack_toModel (x : Float) : Float.ofModel (Float.Model.pack x.toModel.unpack) = x :=
  ofBits_toBits x

theorem eq_of_unpack_eq {x y : Float} (h : x.toModel.unpack = y.toModel.unpack) : x = y := by
  rw [← pack_unpack_toModel x, h, pack_unpack_toModel]

/-! ## Adding zeros -/

theorem unpack_negZero : (-0.0 : Float).toModel.unpack = .zero .negative := rfl

theorem unpack_zero : (0.0 : Float).toModel.unpack = .zero .positive := rfl

theorem zero_cases {x : Float} {s : Sign} (h : x.toModel.unpack = .zero s) :
    x = 0.0 ∨ x = -0.0 := by
  cases s with
  | positive => exact .inl (eq_of_unpack_eq (h.trans unpack_zero.symm))
  | negative => exact .inr (eq_of_unpack_eq (h.trans unpack_negZero.symm))

theorem zero_add_of_ne {z x : Float} {s : Sign} (hz : z.toModel.unpack = .zero s)
    (hx : ∀ t, x.toModel.unpack ≠ .zero t) : z + x = x := by
  have hadd : UnpackedFloat.add Format.binary64 (.zero s) x.toModel.unpack = x.toModel.unpack := by
    cases h : x.toModel.unpack with
    | zero t => exact absurd h (hx t)
    | infinity t => rfl
    | notANumber => rfl
    | finite t m e hm => rfl
  show Float.ofModel (Float.Model.pack
    (UnpackedFloat.add Format.binary64 z.toModel.unpack x.toModel.unpack)) = x
  rw [hz, hadd, pack_unpack_toModel]

/-- The negative zero is the one that adds nothing to any number. -/
theorem negZero_add (x : Float) : -0.0 + x = x := by
  by_cases h : ∃ s, x.toModel.unpack = .zero s
  · obtain ⟨s, hs⟩ := h
    rcases zero_cases hs with rfl | rfl <;> rfl
  · exact zero_add_of_ne unpack_negZero fun t ht => h ⟨t, ht⟩

/-- The positive zero differs from it on the negative zero only. -/
theorem zero_add_cases (x : Float) : 0.0 + x = x ∨ 0.0 + x = 0.0 ∧ x = -0.0 := by
  by_cases h : ∃ s, x.toModel.unpack = .zero s
  · obtain ⟨s, hs⟩ := h
    rcases zero_cases hs with rfl | rfl
    · exact .inl rfl
    · exact .inr ⟨rfl, rfl⟩
  · exact .inl (zero_add_of_ne unpack_zero fun t ht => h ⟨t, ht⟩)

/-- Sums from the left that start at either zero agree, or both are what they started at. -/
theorem foldl_add_cases (xs : List Float) :
    xs.foldl (· + ·) 0.0 = xs.foldl (· + ·) (-0.0) ∨
      xs.foldl (· + ·) 0.0 = 0.0 ∧ xs.foldl (· + ·) (-0.0) = -0.0 := by
  induction xs with
  | nil => exact .inr ⟨rfl, rfl⟩
  | cons x xs ih =>
    rw [List.foldl_cons, List.foldl_cons, negZero_add]
    rcases zero_add_cases x with hx | ⟨hx, rfl⟩
    · rw [hx]
      exact .inl rfl
    · rw [hx]
      exact ih

namespace Decimal

theorem floatOf_magnitudeBits (x : Float) : floatOf (signBit x) (magnitudeBits x) = x := by
  have hlt : x.toBits.toNat < 2 ^ 64 := x.toBits.toNat_lt
  have hbits : (magnitudeBits x + if signBit x then 1 <<< 63 else 0).toUInt64 = x.toBits := by
    apply UInt64.toNat_inj.mp
    simp only [magnitudeBits, signBit, Nat.one_shiftLeft, decide_eq_true_eq,
      Nat.toUInt64_eq, UInt64.toNat_ofNat']
    split <;> omega
  rw [floatOf, hbits, ofBits_toBits]

theorem unpack_one :
    (1.0 : Float).toModel.unpack = .finite .positive (2 ^ 52) (-52) (by decide) := rfl

theorem unpack_of_not_isFinite {x : Float} (h : isFinite x = false) :
    (∃ s, x.toModel.unpack = .infinity s) ∨ x.toModel.unpack = .notANumber := by
  have hexp : @unpackExponent Format.binary64 x.toBits.toBitVec = -1#_ := by
    apply BitVec.eq_of_toNat_eq
    have hlt : x.toBits.toNat < 2 ^ 64 := x.toBits.toNat_lt
    rw [toNat_exponent]
    simp only [isFinite, magnitudeBits, infinityBits, Nat.one_shiftLeft, decide_eq_false_iff_not]
      at h
    show x.toBits.toNat / 2 ^ 52 % 2 ^ 11 = 2047
    omega
  have hunpack : x.toModel.unpack = unpack Format.binary64 x.toBits.toBitVec := rfl
  rw [hunpack]
  simp only [unpack, hexp, if_true]
  split
  · exact .inl ⟨_, rfl⟩
  · exact .inr rfl

theorem exponent_ne {b : UInt64} (h : b.toNat % 2 ^ 63 < infinityBits) :
    @unpackExponent Format.binary64 b.toBitVec ≠ -1#_ := by
  intro he
  have hnat := congrArg BitVec.toNat he
  rw [toNat_exponent] at hnat
  change b.toNat / 2 ^ 52 % 2 ^ 11 = 2047 at hnat
  unfold infinityBits at h
  omega

theorem exponent_of_isFinite {x : Float} (h : isFinite x = true) :
    @unpackExponent Format.binary64 x.toBits.toBitVec ≠ -1#_ := by
  rw [isFinite, magnitudeBits, Nat.one_shiftLeft, decide_eq_true_eq] at h
  exact exponent_ne h

theorem unpack_of_isFinite {x : Float} (h : isFinite x = true) :
    (∃ s, x.toModel.unpack = .zero s) ∨ ∃ s m e hm, x.toModel.unpack = .finite s m e hm := by
  have hexp := exponent_of_isFinite h
  have hunpack : x.toModel.unpack = unpack Format.binary64 x.toBits.toBitVec := rfl
  simp only [unpack, if_neg hexp] at hunpack
  cases hx : x.toModel.unpack with
  | zero s => exact .inl ⟨s, rfl⟩
  | finite s m e hm => exact .inr ⟨s, m, e, hm, rfl⟩
  | infinity s | notANumber =>
    rw [hx] at hunpack
    split at hunpack
    · split at hunpack <;> cases hunpack
    · cases hunpack

theorem zero_le_of_not_lt {x : Float} (h : isFinite x = true) (hx : ¬ x < 0.0) : 0.0 ≤ x := by
  have hlt : ¬ UnpackedFloat.lt x.toModel.unpack (0.0 : Float).toModel.unpack = true :=
    fun h => hx (decide_eq_true h)
  refine decide_eq_true (show UnpackedFloat.le (0.0 : Float).toModel.unpack x.toModel.unpack = true from ?_)
  rw [unpack_zero] at hlt ⊢
  rcases unpack_of_isFinite h with ⟨s, hs⟩ | ⟨s, m, e, hm, hs⟩
  · rw [hs]
    rfl
  · rw [hs] at hlt ⊢
    cases s with
    | positive => rfl
    | negative => exact absurd rfl hlt

theorem le_of_beq {x y : Float} (h : (x == y) = true) : x ≤ y := by
  have hbeq : UnpackedFloat.beq x.toModel.unpack y.toModel.unpack = true := h
  refine decide_eq_true (show UnpackedFloat.le x.toModel.unpack y.toModel.unpack = true from ?_)
  rw [UnpackedFloat.beq, beq_iff_eq] at hbeq
  rw [UnpackedFloat.le, hbeq]
  rfl

theorem isFinite_of_inUnit {x : Float} (h : 0.0 ≤ x ∧ x ≤ 1.0) : isFinite x = true := by
  by_contra hx
  have h0 : (UnpackedFloat.le (0.0 : Float).toModel.unpack x.toModel.unpack) = true :=
    of_decide_eq_true h.1
  have h1 : (UnpackedFloat.le x.toModel.unpack (1.0 : Float).toModel.unpack) = true :=
    of_decide_eq_true h.2
  rw [unpack_zero] at h0
  rw [unpack_one] at h1
  rcases unpack_of_not_isFinite (Bool.eq_false_iff.mpr hx) with ⟨s, hs⟩ | hs
  · rw [hs] at h0 h1
    cases s with
    | positive => exact absurd h1 (by decide)
    | negative => exact absurd h0 (by decide)
  · rw [hs] at h0
    exact absurd h0 (by decide)

end Decimal

theorem Probability.value_clamp {x : Float} (h : 0.0 ≤ x ∧ x ≤ 1.0) : (clamp x).value = x := by
  simp [clamp, h]

end Biotope
