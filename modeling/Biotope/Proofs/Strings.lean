import Mathlib
import Biotope.Json.Reader

/-!
# Reading strings

What is written between quotes is read back character by character, however a character
is escaped.
-/

namespace Biotope.Json

/-! ## Escapes -/

section
variable (acc : List Char) (soft : Option Flaw) (cs : List Char) (off : Nat)

theorem readChars_letter {c d : Char} (h : unescaped? c = some d) (hu : c ≠ 'u') :
    readChars acc soft ('\\' :: c :: cs) off = readChars (d :: acc) soft cs (off + 2) := by
  rw [readChars.eq_def]
  split <;> grind

theorem readChars_hex {a b c d : Char} {n : Nat} (h : hex4? a b c d = some n) (hn : n < 0xD800) :
    readChars acc soft ('\\' :: 'u' :: a :: b :: c :: d :: cs) off =
      readChars (.ofNat n :: acc) soft cs (off + 6) := by
  have hhigh : isHighSurrogate n = false := by simp [isHighSurrogate]; omega
  have hlow : isLowSurrogate n = false := by simp [isLowSurrogate]; omega
  rw [readChars.eq_def]
  split <;> grind

theorem readChars_plain {c : Char} (h : ¬ c.toNat < 32) (hq : c ≠ '"') (hb : c ≠ '\\') :
    readChars acc soft (c :: cs) off = readChars (c :: acc) soft cs (off + c.utf8Size) := by
  rw [readChars.eq_def]
  split <;> simp_all

theorem hexValue_hexDigit : ∀ n < 16, hexValue? (hexDigit n) = some n := by decide

theorem hex4_escaped {n : Nat} (h : n < 32) :
    hex4? '0' '0' (hexDigit (n / 16)) (hexDigit (n % 16)) = some n := by
  have hzero : hexValue? '0' = some 0 := by decide
  simp only [hex4?, hzero, hexValue_hexDigit (n / 16) (by omega), hexValue_hexDigit (n % 16) (by omega),
    Option.bind_eq_bind, Option.bind_some]
  exact congrArg some (by omega)

theorem readChars_escaped (c : Char) :
    ∃ k, readChars acc soft (escaped c ++ cs) off = readChars (c :: acc) soft cs k := by
  have hletter (a d : Char) (h : unescaped? a = some d) (hu : a ≠ 'u') :
      ∃ k, readChars acc soft ('\\' :: a :: cs) off = readChars (d :: acc) soft cs k :=
    ⟨_, readChars_letter _ _ _ _ h hu⟩
  unfold escaped
  split
  · exact hletter '"' '"' rfl (by decide)
  · exact hletter '\\' '\\' rfl (by decide)
  · exact hletter 'n' '\n' rfl (by decide)
  · exact hletter 'r' '\r' rfl (by decide)
  · exact hletter 't' '\t' rfl (by decide)
  · exact hletter 'b' '\x08' rfl (by decide)
  · exact hletter 'f' '\x0c' rfl (by decide)
  · split
    case isTrue h =>
      have := readChars_hex acc soft cs off (hex4_escaped h) (by omega)
      rw [Char.ofNat_toNat] at this
      exact ⟨_, this⟩
    case isFalse h =>
      exact ⟨_, readChars_plain _ _ _ _ h ‹_› ‹_›⟩

end

/-! ## Strings -/

theorem readChars_writeChars (acc cs rest : List Char) (off : Nat) :
    ∃ k, readChars acc none (writeChars cs rest) off =
      (⟨String.ofList (acc.reverse ++ cs), none, none⟩, ⟨rest, k⟩) := by
  induction cs generalizing acc off with
  | nil =>
    refine ⟨off + 1, ?_⟩
    rw [List.append_nil]
    rfl
  | cons c cs ih =>
    obtain ⟨k, hk⟩ := readChars_escaped acc none (writeChars cs rest) off c
    obtain ⟨l, hl⟩ := ih (c :: acc) k
    refine ⟨l, ?_⟩
    rw [writeChars, hk, hl, List.reverse_cons, List.append_assoc]
    rfl

theorem readChars_string (s : String) (rest : List Char) (off : Nat) :
    ∃ k, readChars [] none (writeChars s.toList rest) off = (⟨s, none, none⟩, ⟨rest, k⟩) := by
  obtain ⟨k, hk⟩ := readChars_writeChars [] s.toList rest off
  exact ⟨k, by rw [hk, List.reverse_nil, List.nil_append, String.ofList_toList]⟩

end Biotope.Json
