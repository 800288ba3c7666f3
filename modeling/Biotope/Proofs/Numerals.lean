import Biotope.Json.Reader
import Biotope.Proofs.Decimals

/-!
# Reading numbers

A number is spelled by a sign, the digits before and behind the point, and an exponent.
The reader finds these parts again, whatever follows them that is not part of a number.
-/

namespace Biotope

/-! ## Digits -/

namespace Decimal

theorem digitsValue_eq (ds : List Char) : digitsValue ds = Nat.ofDigitChars 10 ds 0 := by
  simp only [digitsValue, Nat.ofDigitChars, Nat.mul_comm]

theorem digitsValue_append (ds es : List Char) :
    digitsValue (ds ++ es) = digitsValue ds * 10 ^ es.length + digitsValue es := by
  rw [digitsValue_eq, digitsValue_eq, digitsValue_eq, Nat.ofDigitChars_append,
    Nat.ofDigitChars_eq_ofDigitChars_zero, Nat.mul_comm]

theorem digitsValue_zeros (n : Nat) : digitsValue (List.replicate n '0') = 0 := by
  rw [digitsValue_eq, Nat.ofDigitChars_replicate_zero, Nat.mul_zero]

theorem digitsValue_toDigits (n : Nat) : digitsValue (Nat.toDigits 10 n) = n := by
  rw [digitsValue_eq, Nat.ofDigitChars_ten_toDigits]

theorem isDigit_toDigits {n : Nat} {c : Char} (h : c ∈ Nat.toDigits 10 n) : c.isDigit = true :=
  Nat.isDigit_of_mem_toDigits (by decide) (by decide) h

end Decimal

namespace Json

open Decimal

def NoDigit (cs : List Char) : Prop := cs.head?.any Char.isDigit = false

theorem spanDigits_append {ds cs : List Char} (hds : ∀ c ∈ ds, c.isDigit = true)
    (hcs : NoDigit cs) : spanDigits (ds ++ cs) = (ds, cs) := by
  have hnone : cs.takeWhile Char.isDigit = [] ∧ cs.dropWhile Char.isDigit = cs := by
    cases cs with
    | nil => simp
    | cons c cs => simp_all [NoDigit]
  rw [spanDigits, List.takeWhile_append_of_pos hds, List.dropWhile_append_of_pos hds, hnone.1,
    hnone.2, List.append_nil]

theorem spanWhole_append {ds cs : List Char} (hds : ∀ c ∈ ds, c.isDigit = true) (hne : ds ≠ [])
    (hzero : ds = ['0'] ∨ ds.head? ≠ some '0') (h : NoDigit cs) :
    spanWhole (ds ++ cs) = (ds, cs) := by
  obtain ⟨d, ds, rfl⟩ := List.exists_cons_of_ne_nil hne
  by_cases hd : d = '0'
  · subst hd
    rw [hzero.resolve_right (by simp)]
    rfl
  · rw [← spanDigits_append hds h]
    simp [spanWhole, hd]

/-! ## Spellings -/

structure Spelling where
  negative : Bool
  whole : List Char
  fraction : List Char
  exponent : Option Int

namespace Spelling

def signText (negative : Bool) : List Char := if negative then ['-'] else []

def fractionText (ds : List Char) : List Char := if ds = [] then [] else '.' :: ds

def exponentText : Option Int → List Char
  | none => []
  | some e => 'e' :: (if e < 0 then '-' else '+') :: Nat.toDigits 10 e.natAbs

def text (s : Spelling) : List Char :=
  signText s.negative ++ (s.whole ++ (fractionText s.fraction ++ exponentText s.exponent))

structure Legal (s : Spelling) : Prop where
  whole_digits : ∀ c ∈ s.whole, c.isDigit = true
  whole_some : s.whole ≠ []
  leading : s.whole = ['0'] ∨ s.whole.head? ≠ some '0'
  fraction_digits : ∀ c ∈ s.fraction, c.isDigit = true

def number (s : Spelling) : Number := numberOf s.negative s.whole s.fraction s.exponent

end Spelling

theorem Spelling.Legal.text_eq_cons {s : Spelling} (h : s.Legal) :
    ∃ c cs, s.text = c :: cs ∧ (c = '-' ∨ c.isDigit = true) := by
  obtain ⟨d, ds, hd⟩ := List.exists_cons_of_ne_nil h.whole_some
  rw [text, hd]
  cases s.negative with
  | true => exact ⟨'-', _, rfl, .inl rfl⟩
  | false => exact ⟨d, _, rfl, .inr (h.whole_digits d (hd ▸ List.mem_cons_self))⟩

def Stops (cs : List Char) : Prop :=
  ∀ c ∈ cs.head?, c.isDigit = false ∧ c ≠ '.' ∧ c ≠ 'e' ∧ c ≠ 'E'

theorem Stops.noDigit {cs : List Char} (h : Stops cs) : NoDigit cs := by
  cases cs with
  | nil => rfl
  | cons c cs => exact (h c rfl).1

section
variable {cs : List Char} (off : Nat)

theorem readSign_text {b : Bool} (h : cs.head? ≠ some '-') :
    ∃ k, readSign ⟨Spelling.signText b ++ cs, off⟩ = (b, ⟨cs, k⟩) := by
  cases b with
  | true => exact ⟨_, rfl⟩
  | false =>
    refine ⟨off, ?_⟩
    simp only [readSign, Spelling.signText, Bool.false_eq_true, if_false, List.nil_append]
    split
    · exact absurd rfl h
    · rfl

theorem readWhole_append {ds : List Char} (hds : ∀ c ∈ ds, c.isDigit = true) (hne : ds ≠ [])
    (hzero : ds = ['0'] ∨ ds.head? ≠ some '0') (h : NoDigit cs) :
    ∃ k, readWhole ⟨ds ++ cs, off⟩ = .ok (ds, ⟨cs, k⟩) := by
  have hempty : ds.isEmpty = false := by simpa using hne
  refine ⟨off + ds.length, ?_⟩
  simp only [readWhole, spanWhole_append hds hne hzero h, hempty, Bool.false_eq_true, if_false]
  apply if_neg
  rintro ⟨-, hd⟩
  exact Bool.false_ne_true (h.symm.trans hd)

theorem readFraction_text {ds : List Char} (hds : ∀ c ∈ ds, c.isDigit = true) (h : NoDigit cs)
    (hpoint : cs.head? ≠ some '.') :
    ∃ k, readFraction ⟨Spelling.fractionText ds ++ cs, off⟩ = .ok (ds, ⟨cs, k⟩) := by
  cases ds with
  | nil =>
    refine ⟨off, ?_⟩
    simp only [Spelling.fractionText, if_true, List.nil_append, readFraction]
    split
    · exact absurd rfl hpoint
    · rfl
  | cons d ds =>
    refine ⟨off + 1 + (d :: ds).length, ?_⟩
    simp only [Spelling.fractionText, reduceCtorEq, if_false, List.cons_append, readFraction]
    rw [← List.cons_append, spanDigits_append hds h]
    rfl

theorem readExponent_text (e : Int) (h : NoDigit cs) :
    ∃ k, readExponent ⟨(if e < 0 then '-' else '+') :: (Nat.toDigits 10 e.natAbs ++ cs), off⟩ =
      .ok (e, ⟨cs, k⟩) := by
  have hspan := spanDigits_append (fun _ => isDigit_toDigits (n := e.natAbs)) h
  have hempty : (Nat.toDigits 10 e.natAbs).isEmpty = false := by simp
  refine ⟨off + 1 + (Nat.toDigits 10 e.natAbs).length, ?_⟩
  by_cases he : e < 0
  · have hneg : -(e.natAbs : Int) = e := by omega
    simp only [readExponent, if_pos he, hspan, hempty, digitsValue_toDigits, hneg, if_true,
      Bool.false_eq_true, if_false]
  · have hpos : (e.natAbs : Int) = e := by omega
    simp only [readExponent, if_neg he, hspan, hempty, digitsValue_toDigits, hpos,
      Bool.false_eq_true, if_false]

theorem readPower_text (e : Option Int) (h : Stops cs) :
    ∃ k, readPower ⟨Spelling.exponentText e ++ cs, off⟩ = .ok (e, ⟨cs, k⟩) := by
  cases e with
  | none =>
    refine ⟨off, ?_⟩
    simp only [Spelling.exponentText, List.nil_append, readPower]
    split
    · exact absurd rfl (h _ rfl).2.2.1
    · exact absurd rfl (h _ rfl).2.2.2
    · rfl
  | some e =>
    obtain ⟨k, hk⟩ := readExponent_text (off + 1) e h.noDigit
    refine ⟨k, ?_⟩
    simp only [Spelling.exponentText, List.cons_append, readPower, hk]
    rfl

theorem readNumber_text {s : Spelling} (hs : s.Legal) (h : Stops cs) :
    ∃ k, readNumber ⟨s.text ++ cs, off⟩ = .ok (s.number, ⟨cs, k⟩) := by
  have hpower : NoDigit (Spelling.exponentText s.exponent ++ cs) ∧
      (Spelling.exponentText s.exponent ++ cs).head? ≠ some '.' := by
    cases he : s.exponent with
    | none => exact ⟨h.noDigit, fun hc => (h '.' hc).2.1 rfl⟩
    | some e => exact ⟨rfl, by simp [Spelling.exponentText]⟩
  have hfraction : NoDigit (Spelling.fractionText s.fraction ++
      (Spelling.exponentText s.exponent ++ cs)) := by
    unfold Spelling.fractionText
    split
    · exact hpower.1
    · rfl
  obtain ⟨d, ds, hwhole⟩ := List.exists_cons_of_ne_nil hs.whole_some
  have hsign : (s.whole ++ (Spelling.fractionText s.fraction ++
      (Spelling.exponentText s.exponent ++ cs))).head? ≠ some '-' := by
    have hd := hs.whole_digits d (hwhole ▸ List.mem_cons_self)
    rw [hwhole]
    rintro ⟨⟩
    exact absurd hd (by decide)
  obtain ⟨k₁, h₁⟩ := readSign_text off hsign (b := s.negative)
  obtain ⟨k₂, h₂⟩ := readWhole_append k₁ hs.whole_digits hs.whole_some hs.leading hfraction
  obtain ⟨k₃, h₃⟩ := readFraction_text k₂ hs.fraction_digits hpower.1 hpower.2
  obtain ⟨k₄, h₄⟩ := readPower_text k₃ s.exponent h
  refine ⟨k₄, ?_⟩
  simp only [Spelling.text, List.append_assoc, readNumber, h₁, h₂, h₃, h₄, bind, Except.bind]
  rfl

end

end Json

end Biotope
