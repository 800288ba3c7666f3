import Biotope.Proofs.Floats
import Biotope.Proofs.Numerals

/-!
# Writing floats

Every layout of a finite float has the value of its shortest decimal, and JSON marks it
as a float by a point or an exponent. So the number that is read is the float that was
written, down to the sign of a zero.
-/

namespace Biotope

namespace Decimal

/-! ## Significant digits -/

theorem head_toDigits_ne_zero {n : Nat} (hn : n ≠ 0) : (Nat.toDigits 10 n).head? ≠ some '0' := by
  induction n using Nat.strong_induction_on with
  | _ n ih =>
    rw [Nat.toDigits_eq_if (by decide)]
    split
    case isTrue h =>
      interval_cases n <;> simp_all
    case isFalse h =>
      rw [List.head?_append_of_ne_nil _ Nat.toDigits_ne_nil]
      exact ih (n / 10) (by omega) (by omega)

theorem rdropWhile_zeros (ds : List Char) :
    ∃ j, ds = ds.rdropWhile (· == '0') ++ List.replicate j '0' := by
  refine ⟨(ds.rtakeWhile (· == '0')).length, ?_⟩
  have h : ds.rtakeWhile (· == '0') = List.replicate (ds.rtakeWhile (· == '0')).length '0' := by
    rw [List.eq_replicate_iff]
    exact ⟨rfl, fun c hc => by simpa using List.mem_rtakeWhile_imp hc⟩
  rw [← h, List.rdropWhile_append_rtakeWhile]

theorem value_mul_pow (c j : Nat) (e : Int) :
    (⟨c * 10 ^ j, e⟩ : Decimal).value = (⟨c, e + j⟩ : Decimal).value := by
  unfold value
  push_cast
  rw [zpow_add₀ (by norm_num), zpow_natCast]
  ring

/-- Digits that make up a decimal, the first of them standing before the `k`-th place. -/
structure Significant (x : Decimal) (ds : List Char) (k : Int) : Prop where
  digits : ∀ c ∈ ds, c.isDigit = true
  ne_nil : ds ≠ []
  leading : ds.head? ≠ some '0'
  value : (⟨digitsValue ds, k - ds.length⟩ : Decimal).value = x.value

theorem significantDigits_spec {x : Decimal} (hx : x.coefficient ≠ 0) :
    Significant x (significantDigits x).1 (significantDigits x).2 := by
  have hkept : (significantDigits x).1 = (Nat.toDigits 10 x.coefficient).rdropWhile (· == '0') := rfl
  have hk : (significantDigits x).2 = (Nat.toDigits 10 x.coefficient).length + x.exponent := rfl
  have hvalue := digitsValue_toDigits x.coefficient
  have hhead := head_toDigits_ne_zero hx
  obtain ⟨j, hj⟩ := rdropWhile_zeros (Nat.toDigits 10 x.coefficient)
  have hdigits (c : Char) (hc : c ∈ Nat.toDigits 10 x.coefficient) : c.isDigit = true :=
    isDigit_toDigits hc
  rw [← hkept] at hj
  generalize Nat.toDigits 10 x.coefficient = all at *
  have hsome : (significantDigits x).1 ≠ [] := by
    intro hnil
    rw [hnil, List.nil_append] at hj
    rw [hj, digitsValue_zeros] at hvalue
    exact hx hvalue.symm
  rw [hk]
  refine ⟨fun c hc => ?_, hsome, ?_, ?_⟩
  · exact hdigits c (hj ▸ List.mem_append_left _ hc)
  · rwa [hj, List.head?_append_of_ne_nil _ hsome] at hhead
  · have hc : digitsValue (significantDigits x).1 * 10 ^ j = x.coefficient := by
      rw [← hvalue, hj, digitsValue_append, digitsValue_zeros, List.length_replicate, Nat.add_zero]
    have hlength : all.length = (significantDigits x).1.length + j := by
      rw [hj, List.length_append, List.length_replicate]
    have hx' : x.value = (⟨digitsValue (significantDigits x).1 * 10 ^ j, x.exponent⟩ : Decimal).value := by
      rw [hc]
    rw [hx', value_mul_pow, hlength]
    congr 2
    push_cast
    ring

end Decimal

namespace Json

open Decimal

namespace Spelling

def decimal (s : Spelling) : Decimal :=
  ⟨digitsValue (s.whole ++ s.fraction), s.exponent.getD 0 - s.fraction.length⟩

structure Spells (s : Spelling) (negative : Bool) (x : Decimal) : Prop where
  legal : s.Legal
  sign : s.negative = negative
  pointed : s.fraction ≠ [] ∨ s.exponent ≠ none
  value : s.decimal.value = x.value

end Spelling

theorem isDigit_zeros {n : Nat} {c : Char} (hc : c ∈ List.replicate n '0') : c.isDigit = true := by
  rw [List.eq_of_mem_replicate hc]
  rfl

theorem exponentText_some (e : Int) : Spelling.exponentText (some e) =
    'e' :: (if e < 0 then "-" ++ toString (-e).toNat else "+" ++ toString e.toNat).toList := by
  by_cases he : e < 0
  · have : (-e).toNat = e.natAbs := by omega
    simp [Spelling.exponentText, he, this]
  · have : e.toNat = e.natAbs := by omega
    simp [Spelling.exponentText, he, this]

section
variable {x : Decimal} {ds : List Char} {k : Int} (h : Significant x ds k) (b : Bool)
include h

/-! ## Spellings of a decimal -/

theorem spells_behind (hk : k ≤ 0) :
    (⟨b, ['0'], List.replicate (-k).toNat '0' ++ ds, none⟩ : Spelling).Spells b x := by
  refine ⟨⟨by simp, by simp, .inl rfl, fun c hc => ?_⟩, rfl, .inl (by simp [h.ne_nil]), ?_⟩
  · exact (List.mem_append.mp hc).elim isDigit_zeros (h.digits c)
  · have hzeros : ['0'] ++ (List.replicate (-k).toNat '0' ++ ds) =
        List.replicate ((-k).toNat + 1) '0' ++ ds := rfl
    rw [← h.value, Spelling.decimal]
    simp only [hzeros, digitsValue_append, digitsValue_zeros, Nat.zero_mul, Nat.zero_add,
      Option.getD_none, List.length_append, List.length_replicate]
    congr 2
    omega

theorem spells_between {n : Nat} (hn : k = n) (h0 : 0 < n) (hlt : n < ds.length) :
    (⟨b, ds.take n, ds.drop n, none⟩ : Spelling).Spells b x := by
  refine ⟨⟨?_, ?_, ?_, ?_⟩, rfl, .inl ?_, ?_⟩
  · exact fun c hc => h.digits c (List.mem_of_mem_take hc)
  · exact fun hnil => (List.take_eq_nil_iff.mp hnil).elim (by omega) h.ne_nil
  · right
    rw [List.head?_take, if_neg (by omega)]
    exact h.leading
  · exact fun c hc => h.digits c (List.mem_of_mem_drop hc)
  · exact fun hnil => absurd (List.drop_eq_nil_iff.mp hnil) (by omega)
  · rw [← h.value, Spelling.decimal]
    simp only [List.take_append_drop, Option.getD_none, List.length_drop]
    congr 2
    omega

theorem spells_before {n : Nat} (hn : k = n) (hle : ds.length ≤ n) :
    (⟨b, ds ++ List.replicate (n - ds.length) '0', ['0'], none⟩ : Spelling).Spells b x := by
  refine ⟨⟨fun c hc => ?_, by simp [h.ne_nil], .inr ?_, by simp⟩, rfl, .inl (by simp), ?_⟩
  · exact (List.mem_append.mp hc).elim (h.digits c) isDigit_zeros
  · rw [List.head?_append_of_ne_nil _ h.ne_nil]
    exact h.leading
  · have hzeros : ds ++ List.replicate (n - ds.length) '0' ++ ['0'] =
        ds ++ List.replicate (n - ds.length + 1) '0' := by
      rw [List.append_assoc, List.replicate_succ']
    rw [← h.value, Spelling.decimal]
    simp only [hzeros, digitsValue_append, digitsValue_zeros, Nat.add_zero, Option.getD_none,
      List.length_replicate, value_mul_pow]
    congr 2
    simp
    omega

theorem spells_scientific :
    (⟨b, ds.take 1, ds.drop 1, some (k - 1)⟩ : Spelling).Spells b x := by
  have hlength : 0 < ds.length := List.length_pos_of_ne_nil h.ne_nil
  refine ⟨⟨?_, by simp [h.ne_nil], .inr ?_, ?_⟩, rfl, .inr (by simp), ?_⟩
  · exact fun c hc => h.digits c (List.mem_of_mem_take hc)
  · rw [List.head?_take, if_neg one_ne_zero]
    exact h.leading
  · exact fun c hc => h.digits c (List.mem_of_mem_drop hc)
  · rw [← h.value, Spelling.decimal]
    simp only [List.take_append_drop, Option.getD_some, List.length_drop]
    congr 2
    omega

theorem positional_spells : ∃ s : Spelling, s.Spells b x ∧ s.exponent = none ∧
    s.text = Spelling.signText b ++ (positional true ds k).toList := by
  by_cases hk : k ≤ 0
  · refine ⟨_, spells_behind h b hk, rfl, ?_⟩
    simp [Spelling.text, Spelling.fractionText, Spelling.exponentText, positional, hk, h.ne_nil, zeros]
  · obtain ⟨n, rfl⟩ := Int.eq_ofNat_of_zero_le (show 0 ≤ k by omega)
    have h0 : 0 < n := by omega
    by_cases hn : n < ds.length
    · have hsub : n - ds.length = 0 := by omega
      refine ⟨_, spells_between h b rfl h0 hn, rfl, ?_⟩
      simp [Spelling.text, Spelling.fractionText, Spelling.exponentText, positional, h0.ne', zeros,
        not_le.mpr hn, hsub]
    · refine ⟨_, spells_before h b rfl (by omega), rfl, ?_⟩
      simp [Spelling.text, Spelling.fractionText, Spelling.exponentText, positional, h0.ne', zeros,
        not_lt.mp hn]

theorem scientific_spells : ∃ s : Spelling, s.Spells b x ∧
    s.text = Spelling.signText b ++ (scientific ds k).toList := by
  refine ⟨_, spells_scientific h b, ?_⟩
  rw [Spelling.text, Spelling.fractionText, exponentText_some, scientific]
  by_cases h1 : ds.length ≤ 1
  · simp only [List.drop_eq_nil_iff, h1, if_true, String.toList_append, String.toList_ofList,
      List.append_assoc]
    rfl
  · simp only [List.drop_eq_nil_iff, h1, if_false, String.toList_append, String.toList_ofList,
      List.append_assoc]
    rfl

end

/-! ## The number that was written -/

theorem signText_toList (b : Bool) (s : String) :
    ((if b then "-" else "") ++ s).toList = Spelling.signText b ++ s.toList := by
  cases b <;> simp [Spelling.signText]

theorem zero_spells {x : Decimal} (h : x.coefficient = 0) (b : Bool) :
    (⟨b, ['0'], ['0'], none⟩ : Spelling).Spells b x := by
  refine ⟨⟨by simp, by simp, .inl rfl, by simp⟩, rfl, .inl (by simp), ?_⟩
  rw [value_eq_zero.mpr h, value_eq_zero]
  rfl

theorem write_spells {x : Float} (hx : isFinite x = true) : ∃ s : Spelling,
    s.Spells (signBit x) (shortest x) ∧ s.text = (inJson.write x).toList := by
  by_cases h0 : (shortest x).coefficient = 0
  · have hwrite : inJson.write x = (if signBit x then "-" else "") ++ "0.0" := by
      simp [Layout.write, hx, h0, inJson]
    refine ⟨_, zero_spells h0 _, ?_⟩
    rw [hwrite, signText_toList]
    rfl
  · have h := significantDigits_spec h0
    have hwrite : (inJson.write x).toList = Spelling.signText (signBit x) ++
        (if (significantDigits (shortest x)).2 < -4 ∨ 16 < (significantDigits (shortest x)).2
          then scientific (significantDigits (shortest x)).1 (significantDigits (shortest x)).2
          else positional true (significantDigits (shortest x)).1
            (significantDigits (shortest x)).2).toList := by
      rw [← signText_toList]
      simp [Layout.write, hx, h0, inJson]
    rw [hwrite]
    split
    · exact scientific_spells h _
    · obtain ⟨s, hs, -, htext⟩ := positional_spells h (signBit x)
      exact ⟨s, hs, htext⟩

theorem Spelling.Spells.bits {s : Spelling} {x : Float} (hx : isFinite x = true)
    (h : s.Spells (signBit x) (shortest x)) : s.decimal.bits = magnitudeBits x :=
  (bits_congr h.value).trans (bits_shortestOfBits (of_decide_eq_true hx))

theorem Spelling.Spells.toFloat {s : Spelling} {x : Float} (hx : isFinite x = true)
    (h : s.Spells (signBit x) (shortest x)) : s.decimal.toFloat s.negative = x := by
  rw [Decimal.toFloat, h.bits hx, h.sign, floatOf_magnitudeBits]

theorem Spelling.Spells.number {s : Spelling} {x : Float} (hx : isFinite x = true)
    (h : s.Spells (signBit x) (shortest x)) : s.number = .float x := by
  have hlt : magnitudeBits x < infinityBits := of_decide_eq_true hx
  have hpointed : ¬ (s.fraction.isEmpty ∧ s.exponent = none) := by
    simpa [Decidable.imp_iff_not_or] using h.pointed
  rw [Spelling.number, numberOf, if_neg (fun hp => hpointed ⟨hp.1, hp.2.1⟩),
    if_neg (fun hp => hpointed ⟨hp.1, hp.2.1⟩)]
  exact (if_neg (h.bits hx ▸ hlt.ne)).trans (congrArg Number.float (h.toFloat hx))

/-- What is written for a finite float spells it. -/
theorem float_spelling {x : Float} (hx : isFinite x = true) : ∃ s : Spelling,
    s.Legal ∧ s.text = (inJson.write x).toList ∧ s.number = .float x := by
  obtain ⟨s, hs, htext⟩ := write_spells hx
  exact ⟨s, hs.legal, htext, hs.number hx⟩

/-! ## Whole numbers -/

def Number.ofInt (n : Int) : Number := if n < 0 then .negative n.natAbs else .natural n.natAbs

def Whole (n : Int) : Prop := -2 ^ 63 ≤ n ∧ n < 2 ^ 64

theorem toString_toList (n : Int) :
    (toString n).toList = Spelling.signText (n < 0) ++ Nat.toDigits 10 n.natAbs := by
  cases n with
  | ofNat m =>
    show (toString m).toList = _
    simp [Spelling.signText]
  | negSucc m =>
    show ("-" ++ toString (m + 1)).toList = _
    simp [Spelling.signText]

theorem int_spelling {n : Int} (hn : Whole n) : ∃ s : Spelling,
    s.Legal ∧ s.text = (toString n).toList ∧ s.number = .ofInt n := by
  refine ⟨⟨n < 0, Nat.toDigits 10 n.natAbs, [], none⟩, ?_, ?_, ?_⟩
  · refine ⟨fun _ => isDigit_toDigits, Nat.toDigits_ne_nil, ?_, by simp⟩
    by_cases h0 : n.natAbs = 0
    · exact .inl (by rw [h0]; rfl)
    · exact .inr (head_toDigits_ne_zero h0)
  · rw [toString_toList, Spelling.text]
    simp [Spelling.fractionText, Spelling.exponentText]
  · unfold Whole at hn
    by_cases h0 : n < 0
    · have hpos : n ≠ 0 := by omega
      have hsmall : n.natAbs ≤ 9223372036854775808 := by omega
      simp [Spelling.number, numberOf, Number.ofInt, digitsValue_toDigits, h0, hpos, hsmall]
    · have hsmall : n.natAbs < 18446744073709551616 := by omega
      simp [Spelling.number, numberOf, Number.ofInt, digitsValue_toDigits, h0, hsmall]

end Json

end Biotope
