import Biotope.Proofs.Layouts
import Biotope.Proofs.TomlStrings
import Biotope.Toml.Reader

/-!
# Values of a TOML document

What is written for a value is read as that value, as long as what follows cannot be taken
for a part of it: the end of the text or the line, a comma, or a closing bracket.
-/

namespace Biotope.Toml

open Json (Spelling)

/-! ## Digits -/

theorem groups?_eq {p : Char → Bool} {cs : List Char} (h : '_' ∉ cs) :
    groups? p cs = if cs ≠ [] ∧ ∀ c ∈ cs, p c = true then some cs else none := by
  simp [groups?, List.splitOn_eq_singleton h]

theorem not_mem_of_isDigit {ds : List Char} (h : ∀ c ∈ ds, c.isDigit = true) {c : Char}
    (hc : c.isDigit = false) : c ∉ ds := fun hmem => by simp [h c hmem] at hc

theorem groups?_digits {ds : List Char} (h : ∀ c ∈ ds, c.isDigit = true) (hne : ds ≠ []) :
    groups? Char.isDigit ds = some ds := by
  rw [groups?_eq (not_mem_of_isDigit h (by decide)), if_pos ⟨hne, h⟩]

theorem whole?_digits {ds : List Char} (h : ∀ c ∈ ds, c.isDigit = true) (hne : ds ≠ [])
    (hzero : ds = ['0'] ∨ ds.head? ≠ some '0') : whole? ds = some ds := by
  have hguard : ds.length = 1 ∨ ds.head? ≠ some '0' := hzero.imp_left (congrArg List.length)
  simp [whole?, groups?_digits h hne, hguard]

/-! ## Numerals -/

def Numeral (cs : List Char) : Prop := cs ≠ [] ∧ ∀ c ∈ cs, c.isDigit = true ∨ c = '.'

theorem Numeral.of_digits {ds : List Char} (h : ∀ c ∈ ds, c.isDigit = true) (hne : ds ≠ []) :
    Numeral ds := ⟨hne, fun c hc => .inl (h c hc)⟩

namespace Numeral

variable {cs : List Char} (h : Numeral cs)
include h

theorem not_mem {c : Char} (hc : c.isDigit = false) (hp : c ≠ '.') : c ∉ cs :=
  fun hmem => (h.2 c hmem).elim (by simp [hc]) hp

theorem splitSign_text (negative : Bool) :
    Decimal.splitSign (Spelling.signText negative ++ cs) = (negative, cs) := by
  have hminus := h.not_mem (c := '-') rfl (by decide)
  have hplus := h.not_mem (c := '+') rfl (by decide)
  cases negative with
  | true => rfl
  | false =>
    simp only [Spelling.signText, Bool.false_eq_true, if_false, List.nil_append]
    rw [Decimal.splitSign.eq_def]
    split <;> simp_all

theorem integer?_text (negative : Bool) :
    integer? (Spelling.signText negative ++ cs) = (do
      let n ← (fun ds => if negative then -(Decimal.digitsValue ds : Int) else Decimal.digitsValue ds)
        <$> whole? cs
      guard (fits n)
      return n) := by
  have hx := h.not_mem (c := 'x') rfl (by decide)
  have ho := h.not_mem (c := 'o') rfl (by decide)
  have hb := h.not_mem (c := 'b') rfl (by decide)
  have hsign := h.splitSign_text negative
  rw [integer?.eq_def]
  split
  case h_4 => simp only [hsign]
  all_goals
    rename_i heq
    cases negative <;> simp_all [Spelling.signText]

end Numeral

theorem integer?_toString {n : Int} (hn : fits n = true) :
    integer? (toString n).toList = some n := by
  have hne : Nat.toDigits 10 n.natAbs ≠ [] := Nat.toDigits_ne_nil
  have hdigits (c : Char) (hc : c ∈ Nat.toDigits 10 n.natAbs) : c.isDigit = true :=
    Decimal.isDigit_toDigits hc
  have hzero : Nat.toDigits 10 n.natAbs = ['0'] ∨ (Nat.toDigits 10 n.natAbs).head? ≠ some '0' := by
    by_cases h0 : n.natAbs = 0
    · exact .inl (by rw [h0]; rfl)
    · exact .inr (Decimal.head_toDigits_ne_zero h0)
  have hsigned : (if decide (n < 0) then -(n.natAbs : Int) else n.natAbs) = n := by
    by_cases h0 : n < 0 <;> simp only [h0, decide_true, decide_false] <;> grind
  rw [Json.toString_toList, (Numeral.of_digits hdigits hne).integer?_text,
    whole?_digits hdigits hne hzero]
  simp only [Option.map_eq_map, Option.map_some, Option.bind_eq_bind, Option.bind_some,
    Decimal.digitsValue_toDigits, hsigned, hn]
  rfl

/-! ## Floats -/

structure Positional (s : Spelling) : Prop where
  legal : s.Legal
  fraction : s.fraction ≠ []
  exponent : s.exponent = none

namespace Positional

variable {s : Spelling} (h : Positional s)
include h

theorem text_eq : s.text = Spelling.signText s.negative ++ (s.whole ++ '.' :: s.fraction) := by
  simp [Spelling.text, Spelling.fractionText, h.fraction, h.exponent, Spelling.exponentText]

theorem numeral : Numeral (s.whole ++ '.' :: s.fraction) := by
  refine ⟨by simp, fun c hc => ?_⟩
  rcases List.mem_append.mp hc with hc | hc
  · exact .inl (h.legal.whole_digits c hc)
  · rcases List.mem_cons.mp hc with rfl | hc
    · exact .inr rfl
    · exact .inl (h.legal.fraction_digits c hc)

theorem integer?_eq : integer? s.text = none := by
  have hwhole : whole? (s.whole ++ '.' :: s.fraction) = none := by
    rw [whole?, groups?_eq (h.numeral.not_mem rfl (by decide)), if_neg]
    · rfl
    · exact fun hall => absurd (hall.2 '.' (by simp)) (by decide)
  rw [h.text_eq, h.numeral.integer?_text, hwhole]
  rfl

theorem float?_eq (hx : Decimal.isFinite (s.decimal.toFloat s.negative) = true) :
    float? s.text = some (s.decimal.toFloat s.negative) := by
  have hmark : ∀ c ∈ s.whole ++ '.' :: s.fraction, (!isExponentMark c) = true := by
    intro c hc
    have he : c ≠ 'e' := fun heq => h.numeral.not_mem rfl (by decide) (heq ▸ hc)
    have hE : c ≠ 'E' := fun heq => h.numeral.not_mem rfl (by decide) (heq ▸ hc)
    simp [isExponentMark, he, hE]
  have hpoint : ∀ c ∈ s.whole, (c != '.') = true := by
    intro c hc
    have hne : c ≠ '.' := fun heq => not_mem_of_isDigit h.legal.whole_digits rfl (heq ▸ hc)
    simp [hne]
  have hname : s.whole ++ '.' :: s.fraction ≠ ['i', 'n', 'f'] ∧
      s.whole ++ '.' :: s.fraction ≠ ['n', 'a', 'n'] := by
    have hn := h.numeral.not_mem (c := 'n') rfl (by decide)
    constructor <;> intro heq <;> simp [heq] at hn
  have hwhole := whole?_digits h.legal.whole_digits h.legal.whole_some h.legal.leading
  have hfraction := groups?_digits h.legal.fraction_digits h.fraction
  have htake : (s.whole ++ '.' :: s.fraction).takeWhile (fun c => !isExponentMark c) =
      s.whole ++ '.' :: s.fraction := List.takeWhile_eq_self_iff.mpr hmark
  have hvalue : s.decimal = ⟨Decimal.digitsValue (s.whole ++ s.fraction), -s.fraction.length⟩ := by
    simp [Spelling.decimal, h.exponent]
  rw [hvalue] at hx ⊢
  rw [h.text_eq, float?, h.numeral.splitSign_text]
  simp only [if_neg hname.1, if_neg hname.2, htake, List.takeWhile_append_of_pos hpoint,
    List.dropWhile_append_of_pos hpoint]
  simp [hwhole, hfraction, hx]

end Positional

theorem float_positional {x : Float} (hx : Decimal.isFinite x = true) : ∃ s : Spelling,
    Positional s ∧ s.text = (Decimal.inToml.write x).toList ∧ s.decimal.toFloat s.negative = x := by
  have hpositional {s : Spelling} (hs : s.Spells (Decimal.signBit x) (Decimal.shortest x))
      (he : s.exponent = none) : Positional s :=
    ⟨hs.legal, hs.pointed.resolve_right (by simp [he]), he⟩
  by_cases h0 : (Decimal.shortest x).coefficient = 0
  · have hwrite : Decimal.inToml.write x = (if Decimal.signBit x then "-" else "") ++ "0.0" := by
      simp [Decimal.Layout.write, hx, h0, Decimal.inToml]
    have hs := Json.zero_spells h0 (Decimal.signBit x)
    refine ⟨_, hpositional hs rfl, ?_, hs.toFloat hx⟩
    rw [hwrite, Json.signText_toList]
    rfl
  · obtain ⟨s, hs, he, htext⟩ :=
      Json.positional_spells (Decimal.significantDigits_spec h0) (Decimal.signBit x)
    refine ⟨s, hpositional hs he, ?_, hs.toFloat hx⟩
    rw [htext, ← Json.signText_toList]
    simp [Decimal.Layout.write, hx, h0, Decimal.inToml]

/-! ## Words -/

def isWordChar (c : Char) : Bool := c.isAlphanum || c == '-' || c == '.'

structure Word (cs : List Char) (v : Value) : Prop where
  some : cs ≠ []
  chars : ∀ c ∈ cs, isWordChar c = true
  scalar : scalar? cs = .some v

theorem word_bool (b : Bool) : Word (Value.bool b).text.toList (.bool b) := by
  cases b with
  | true =>
    have htext : (Value.bool true).text.toList = ['t', 'r', 'u', 'e'] := by simp [Value.text]
    rw [htext]
    exact ⟨by simp, by simp [isWordChar], rfl⟩
  | false =>
    have htext : (Value.bool false).text.toList = ['f', 'a', 'l', 's', 'e'] := by simp [Value.text]
    rw [htext]
    exact ⟨by simp, by simp [isWordChar], rfl⟩

theorem isWordChar_sign (negative : Bool) {cs : List Char} (h : Numeral cs) :
    ∀ c ∈ Spelling.signText negative ++ cs, isWordChar c = true := by
  intro c hc
  rcases List.mem_append.mp hc with hc | hc
  · cases negative <;> simp [Spelling.signText] at hc
    simp [hc, isWordChar]
  · rcases h.2 c hc with hd | rfl
    · simp [isWordChar, Char.isAlphanum, hd]
    · rfl

theorem scalar?_numeral (negative : Bool) {cs : List Char} (h : Numeral cs) :
    scalar? (Spelling.signText negative ++ cs) =
      ((integer? (Spelling.signText negative ++ cs)).map Value.integer <|>
        (float? (Spelling.signText negative ++ cs)).map Value.float <|>
        (moment? (Spelling.signText negative ++ cs)).map Value.moment) := by
  have he := h.not_mem (c := 'e') rfl (by decide)
  rw [scalar?, if_neg, if_neg]
  · intro heq
    cases negative <;> simp [Spelling.signText] at heq
    simp [heq] at he
  · intro heq
    cases negative <;> simp [Spelling.signText] at heq
    simp [heq] at he

theorem word_integer {n : Int} (hn : fits n = true) :
    Word (Value.integer n).text.toList (.integer n) := by
  have hnumeral : Numeral (Nat.toDigits 10 n.natAbs) :=
    .of_digits (fun _ => Decimal.isDigit_toDigits) Nat.toDigits_ne_nil
  have htext : (Value.integer n).text.toList =
      Spelling.signText (n < 0) ++ Nat.toDigits 10 n.natAbs := by
    rw [Value.text, Json.toString_toList]
  refine ⟨?_, ?_, ?_⟩
  · simp [htext]
  · rw [htext]
    exact isWordChar_sign _ hnumeral
  · have hread := integer?_toString hn
    rw [Json.toString_toList] at hread
    rw [htext, scalar?_numeral _ hnumeral, hread]
    rfl

theorem word_float {x : Float} (hx : Decimal.isFinite x = true) :
    Word (Value.float x).text.toList (.float x) := by
  obtain ⟨s, hs, htext, hvalue⟩ := float_positional hx
  have hfloat := hs.float?_eq (by rwa [hvalue])
  have hinteger := hs.integer?_eq
  rw [hvalue] at hfloat
  have htext' : (Value.float x).text.toList =
      Spelling.signText s.negative ++ (s.whole ++ '.' :: s.fraction) := by
    rw [Value.text, ← htext, hs.text_eq]
  rw [hs.text_eq] at hfloat hinteger
  refine ⟨?_, ?_, ?_⟩
  · simp [htext']
  · rw [htext']
    exact isWordChar_sign _ hs.numeral
  · rw [htext', scalar?_numeral _ hs.numeral, hinteger, hfloat]
    rfl

/-! ## What follows a value -/

def Ends (cs : List Char) : Prop := ∀ c ∈ cs.head?, c = '\n' ∨ c = ',' ∨ c = ']'

theorem Ends.cons {c : Char} (h : c = '\n' ∨ c = ',' ∨ c = ']') (cs : List Char) :
    Ends (c :: cs) := by
  simpa [Ends] using h

theorem endsWord_of_isWordChar {c : Char} (h : isWordChar c = true) : endsWord c = false := by
  by_contra hc
  simp only [endsWord, isSpace, Bool.not_eq_false, Bool.or_eq_true, beq_iff_eq, or_assoc] at hc
  rcases hc with rfl | rfl | rfl | rfl | rfl | rfl | rfl | rfl <;> exact absurd h (by decide)

theorem splitWord_append {cs rest : List Char} (h : ∀ c ∈ cs, isWordChar c = true)
    (hrest : Ends rest) : splitWord (cs ++ rest) = (cs, rest) := by
  have hcs : ∀ c ∈ cs, (!endsWord c) = true := fun c hc => by simp [endsWord_of_isWordChar (h c hc)]
  cases rest with
  | nil => simp [splitWord, List.takeWhile_eq_self_iff.mpr hcs, List.dropWhile_eq_nil_iff.mpr hcs]
  | cons c rest =>
    have hc := hrest c rfl
    have hends : endsWord c = true := by rcases hc with rfl | rfl | rfl <;> rfl
    have hspace : c ≠ ' ' := by rcases hc with rfl | rfl | rfl <;> decide
    simp only [splitWord, List.takeWhile_append_of_pos hcs, List.dropWhile_append_of_pos hcs]
    simp only [hends, Bool.not_true, List.takeWhile_cons, List.dropWhile_cons, Bool.false_eq_true,
      if_false, List.append_nil]
    split
    · simp_all
    · rfl

theorem readValue_word {cs rest : List Char} {v : Value} (h : Word cs v) (hrest : Ends rest)
    (depth fuel : Nat) : readValue depth (fuel + 1) (cs ++ rest) = .ok (v, rest) := by
  have hsplit := splitWord_append h.chars hrest
  have hscalar := h.scalar
  obtain ⟨c, cs, rfl⟩ := List.exists_cons_of_ne_nil h.some
  have hc : isWordChar c = true := h.chars c List.mem_cons_self
  have hfirst : c ≠ '"' ∧ c ≠ '\'' ∧ c ≠ '[' ∧ c ≠ '\x7b' := by
    refine ⟨?_, ?_, ?_, ?_⟩ <;> rintro rfl <;> exact absurd hc (by decide)
  rw [List.cons_append] at hsplit ⊢
  rw [readValue.eq_def]
  split <;> simp_all

theorem stringText_quoted (s : String) :
    ∃ q cs, (stringText s).toList = q :: cs ∧ (q = '"' ∨ q = '\'') := by
  have hbasic : (basic s).toList = '"' :: (escapeAll false 0 s.toList 0 ++ ['"']) := by simp [basic]
  have hmultiline : (multilineBasic s).toList = '"' :: '"' :: '"' ::
      ((opening s).toList ++ escapeAll true 2 s.toList 0 ++ ['"', '"', '"']) := by
    simp [multilineBasic]
  unfold stringText
  dsimp only
  split
  · exact ⟨_, _, hbasic, .inl rfl⟩
  · split
    · exact ⟨'\'', s.toList ++ ['\''], by simp [literal], .inr rfl⟩
    · split
      · exact ⟨_, _, hmultiline, .inl rfl⟩
      · split
        · exact ⟨'\'', _, by simp [multilineLiteral]; rfl, .inr rfl⟩
        · split
          · exact ⟨_, _, hmultiline, .inl rfl⟩
          · exact ⟨_, _, hbasic, .inl rfl⟩

theorem readValue_string (s : String) {rest : List Char} (hrest : Ends rest) (depth fuel : Nat) :
    readValue depth (fuel + 1) ((Value.string s).text.toList ++ rest) = .ok (.string s, rest) := by
  have hquote (q : Char) (hq : q = '"' ∨ q = '\'') : rest.head? ≠ some q := by
    intro h
    rcases hrest q h with rfl | rfl | rfl <;> exact absurd hq (by decide)
  have hread := readString_stringText s (hquote '"' (.inl rfl)) (hquote '\'' (.inr rfl))
  obtain ⟨q, cs, htext, hq⟩ := stringText_quoted s
  rw [Value.text]
  rw [htext, List.cons_append] at hread ⊢
  rcases hq with rfl | rfl
  · simp only [readValue, hread]
    rfl
  · simp only [readValue, hread]
    rfl

/-! ## Blanks -/

def isMark (c : Char) : Bool := !isSpace c && c != '#' && c != '\n' && c != '\r'

theorem skipSpaces_mark {c : Char} (h : isMark c = true) (cs : List Char) :
    skipSpaces (c :: cs) = c :: cs := by
  simp [isMark] at h
  simp [skipSpaces, h]

theorem skipLines_mark {c : Char} (h : isMark c = true) (n : Nat) (cs : List Char) :
    skipLines n (c :: cs) = c :: cs := by
  cases n with
  | zero => rfl
  | succ n =>
    have hspaces := skipSpaces_mark h cs
    simp [isMark] at h
    have hcomment : skipComment (c :: cs) = c :: cs := by
      rw [skipComment.eq_def]
      split <;> simp_all
    rw [skipLines, hspaces, hcomment]
    split <;> simp_all

theorem skipLines_lineEnd (n : Nat) (cs : List Char) :
    skipLines (n + 1) ('\n' :: cs) = skipLines n cs := by
  simp [skipLines, skipSpaces, isSpace, skipComment]

theorem skipLines_indented {c : Char} (h : isMark c = true) (n : Nat) (cs : List Char) :
    skipLines (n + 1) (' ' :: ' ' :: ' ' :: ' ' :: c :: cs) = c :: cs := by
  have hspaces : skipSpaces (' ' :: ' ' :: ' ' :: ' ' :: c :: cs) = skipSpaces (c :: cs) := by
    simp [skipSpaces, isSpace]
  have hskip := skipLines_mark h (n + 1) cs
  rw [skipLines] at hskip ⊢
  rwa [hspaces]

/-! ## Arrays -/

inductive Readable : Nat → Value → Prop
  | bool {depth : Nat} (b : Bool) : Readable depth (.bool b)
  | integer {depth : Nat} {n : Int} (h : fits n = true) : Readable depth (.integer n)
  | float {depth : Nat} {x : Float} (h : Decimal.isFinite x = true) : Readable depth (.float x)
  | string {depth : Nat} (s : String) : Readable depth (.string s)
  | array {depth : Nat} {items : List Value} (h : ∀ v ∈ items, Readable depth v) :
      Readable (depth + 1) (.array items)

theorem Word.mark {cs : List Char} {v : Value} (h : Word cs v) :
    ∃ c ds, cs = c :: ds ∧ isMark c = true ∧ c ≠ ']' := by
  obtain ⟨c, cs, rfl⟩ := List.exists_cons_of_ne_nil h.some
  have hc := endsWord_of_isWordChar (h.chars c List.mem_cons_self)
  have hw := h.chars c List.mem_cons_self
  simp [endsWord] at hc
  exact ⟨c, cs, rfl, by simp [isMark, hc], by simp [hc]⟩

theorem Readable.mark {depth : Nat} {v : Value} (h : Readable depth v) :
    ∃ c cs, v.text.toList = c :: cs ∧ isMark c = true ∧ c ≠ ']' := by
  cases h with
  | bool b => exact (word_bool b).mark
  | integer h => exact (word_integer h).mark
  | float h => exact (word_float h).mark
  | string s =>
    obtain ⟨q, cs, htext, hq⟩ := stringText_quoted s
    rw [Value.text]
    exact ⟨q, cs, htext, by rcases hq with rfl | rfl <;> decide⟩
  | @array _ items h =>
    have htext : ∃ cs, (Value.array items).text.toList = '[' :: cs := by
      match items with
      | [] => exact ⟨_, by simp [Value.text]; rfl⟩
      | [v] => exact ⟨_, by simp [Value.text]; rfl⟩
      | v :: w :: vs => exact ⟨_, by simp [Value.text]; rfl⟩
    obtain ⟨cs, hcs⟩ := htext
    exact ⟨'[', cs, hcs, by decide, by decide⟩

def Reads (depth : Nat) (v : Value) : Prop :=
  ∀ fuel rest, v.text.toList.length < fuel → Ends rest →
    readValue depth fuel (v.text.toList ++ rest) = .ok (v, rest)

theorem readItems_close (depth fuel : Nat) (rest : List Char) :
    readItems depth (fuel + 1) (']' :: rest) = .ok ([], rest) := by
  simp [readItems]

/-- The first item of an array, up to the mark behind it. -/
theorem readItems_cons {depth fuel : Nat} {v : Value} (h : Readable depth v)
    (hreads : Reads depth v) (hfuel : v.text.toList.length < fuel) {d : Char} {rest : List Char}
    (hd : d = ',' ∨ d = ']') :
    readItems depth (fuel + 1) (v.text.toList ++ d :: rest) =
      if d = ']' then .ok ([v], rest)
      else do
        let (items, cs) ← readItems depth fuel (skipLines rest.length rest)
        return (v :: items, cs) := by
  have hends : Ends (d :: rest) := .cons (.inr hd) rest
  have hread := hreads fuel (d :: rest) hfuel hends
  have hmark : isMark d = true := by rcases hd with rfl | rfl <;> decide
  have hskip := skipLines_mark hmark (d :: rest).length rest
  obtain ⟨c, cs, htext, -, hc⟩ := h.mark
  rw [htext, List.cons_append] at hread ⊢
  rw [readItems]
  · simp only [hread, bind, Except.bind, hskip]
    rcases hd with rfl | rfl <;> rfl
  · exact fun _ hcs => hc (List.cons.inj hcs).1

theorem readItems_itemLines {depth : Nat} {vs : List Value} (h : ∀ v ∈ vs, Readable depth v)
    (hreads : ∀ v ∈ vs, Reads depth v) (rest : List Char) {n fuel : Nat} (hn : 2 ≤ n)
    (hfuel : (itemLines vs).toList.length < fuel) :
    readItems depth fuel (skipLines n ((itemLines vs).toList ++ '\n' :: ']' :: rest)) =
      .ok (vs, rest) := by
  induction vs generalizing n fuel with
  | nil =>
    obtain ⟨n, rfl⟩ := Nat.exists_eq_add_of_le' hn
    obtain ⟨fuel, rfl⟩ := Nat.exists_eq_add_of_lt hfuel
    rw [itemLines, String.toList_empty, List.nil_append, skipLines_lineEnd,
      skipLines_mark (by decide), readItems_close]
  | cons v vs ih =>
    have hv := h v List.mem_cons_self
    have hlines : (itemLines (v :: vs)).toList =
        '\n' :: ' ' :: ' ' :: ' ' :: ' ' :: (v.text.toList ++ ',' :: (itemLines vs).toList) := by
      simp [itemLines]
    have hskip : skipLines n ((itemLines (v :: vs)).toList ++ '\n' :: ']' :: rest) =
        v.text.toList ++ ',' :: ((itemLines vs).toList ++ '\n' :: ']' :: rest) := by
      obtain ⟨n, rfl⟩ := Nat.exists_eq_add_of_le' hn
      obtain ⟨c, cs, htext, hmark, -⟩ := hv.mark
      simp only [hlines, htext, List.cons_append, List.append_assoc]
      rw [skipLines_lineEnd, skipLines_indented hmark]
    have hlength := congrArg List.length hlines
    simp only [List.length_cons, List.length_append] at hlength
    obtain ⟨fuel, rfl⟩ : ∃ k, fuel = k + 1 := ⟨fuel - 1, by omega⟩
    -- a line end and an indent, or a line end alone: the blanks here end within two steps
    have htwo : 2 ≤ ((itemLines vs).toList ++ '\n' :: ']' :: rest).length := by
      simp
      omega
    have hrest := ih (fun v hv => h v (List.mem_cons_of_mem _ hv))
      (fun v hv => hreads v (List.mem_cons_of_mem _ hv)) htwo (show _ < fuel by omega)
    rw [hskip, readItems_cons hv (hreads v List.mem_cons_self) (by omega) (.inl rfl),
      if_neg (by decide), hrest]
    rfl

theorem Reads.of_pos {depth : Nat} {v : Value}
    (h : ∀ fuel rest, Ends rest →
      readValue depth (fuel + 1) (v.text.toList ++ rest) = .ok (v, rest)) : Reads depth v := by
  intro fuel rest hfuel hrest
  obtain ⟨fuel, rfl⟩ : ∃ k, fuel = k + 1 := ⟨fuel - 1, by omega⟩
  exact h fuel rest hrest

theorem reads_array {depth : Nat} {items : List Value} (h : ∀ v ∈ items, Readable depth v)
    (ih : ∀ v ∈ items, Reads depth v) : Reads (depth + 1) (.array items) := by
  rintro (_ | fuel) rest hfuel hrest
  · exact absurd hfuel (by omega)
  have hopen (cs : List Char) : readValue (depth + 1) (fuel + 1) ('[' :: cs) = (do
      let (items, cs) ← readItems depth fuel (skipLines cs.length cs)
      return (.array items, cs)) := by
    rw [readValue]
  match items with
  | [] =>
    have htext : (Value.array []).text.toList = ['[', ']'] := by simp [Value.text]
    rw [htext] at hfuel ⊢
    obtain ⟨fuel, rfl⟩ : ∃ k, fuel = k + 1 := ⟨fuel - 1, by simp at hfuel; omega⟩
    rw [List.cons_append, hopen, List.singleton_append, skipLines_mark (by decide), readItems_close]
    rfl
  -- a single item stands on the line of its brackets
  | [v] =>
    have hv := h v List.mem_cons_self
    have htext : (Value.array [v]).text.toList = '[' :: (v.text.toList ++ [']']) := by
      simp [Value.text]
    rw [htext] at hfuel ⊢
    simp only [List.length_cons, List.length_append] at hfuel
    obtain ⟨fuel, rfl⟩ : ∃ k, fuel = k + 1 := ⟨fuel - 1, by omega⟩
    have hskip (n : Nat) : skipLines n (v.text.toList ++ ']' :: rest) =
        v.text.toList ++ ']' :: rest := by
      obtain ⟨c, cs, hcs, hmark, -⟩ := hv.mark
      rw [hcs, List.cons_append, skipLines_mark hmark]
    rw [List.cons_append, hopen, List.append_assoc, List.singleton_append, hskip,
      readItems_cons hv (ih v List.mem_cons_self) (by omega) (.inr rfl), if_pos rfl]
    rfl
  -- two or more have a line each
  | v :: w :: vs =>
    have htext : (Value.array (v :: w :: vs)).text.toList =
        '[' :: ((itemLines (v :: w :: vs)).toList ++ ['\n', ']']) := by
      simp [Value.text]
    rw [htext] at hfuel ⊢
    simp only [List.length_cons, List.length_append] at hfuel
    rw [List.cons_append, hopen, List.append_assoc]
    show (readItems depth fuel (skipLines _ ((itemLines (v :: w :: vs)).toList ++
      '\n' :: ']' :: rest)) >>= _) = _
    rw [readItems_itemLines h ih rest (by simp; omega) (by omega)]
    rfl

theorem Readable.reads {depth : Nat} {v : Value} (h : Readable depth v) : Reads depth v := by
  induction h with
  | bool b => exact .of_pos fun fuel rest hrest => readValue_word (word_bool b) hrest _ fuel
  | integer h => exact .of_pos fun fuel rest hrest => readValue_word (word_integer h) hrest _ fuel
  | float h => exact .of_pos fun fuel rest hrest => readValue_word (word_float h) hrest _ fuel
  | string s => exact .of_pos fun fuel rest hrest => readValue_string s hrest _ fuel
  | array h ih => exact reads_array h ih

end Biotope.Toml
