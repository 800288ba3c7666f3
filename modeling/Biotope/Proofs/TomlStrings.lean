import Mathlib
import Biotope.Toml.Text

/-!
# Strings in four forms

A string is written in the first form that shows it as it is. Whichever form that turns out
to be, the reader gives the string back and stops right behind the closing quotes.
-/

namespace Biotope.Toml

/-! ## Characters -/

theorem isPlain_of_isControl {c : Char} (h : isControl c = false) (hn : c ≠ '\n') :
    isPlain c = true := by
  simp [isControl, isPlain, hn] at h ⊢
  grind

inductive Shown (multiline : Bool) (c : Char) : List Char → Prop
  | plain (hc : isPlain c = true) (hq : c ≠ '"') (hb : c ≠ '\\') : Shown multiline c [c]
  | lineEnd (hm : multiline = true) (hc : c = '\n') : Shown multiline c [c]
  | letter {a : Char} (h : unescaped? a = some c) : Shown multiline c ['\\', a]
  | code {p q r s : Char} (h : codePoint? [p, q, r, s] = some c) :
      Shown multiline c ['\\', 'u', p, q, r, s]

theorem codePoint?_hex4 :
    ∀ n < 128, (hex4 n).length = 4 ∧ codePoint? (hex4 n) = some (Char.ofNat n) := by
  decide

theorem shown_control {multiline : Bool} {c : Char} (h : isControl c = true) :
    Shown multiline c ('\\' :: 'u' :: hex4 c.toNat) := by
  have hlt : c.toNat < 128 := by
    simp only [isControl, Bool.or_eq_true, Bool.and_eq_true, decide_eq_true_eq, beq_iff_eq] at h
    omega
  obtain ⟨hlength, hcode⟩ := codePoint?_hex4 c.toNat hlt
  rw [Char.ofNat_toNat] at hcode
  match hhex : hex4 c.toNat, hlength with
  | [p, q, r, s], _ => exact .code (hhex ▸ hcode)

theorem shown_quote (multiline : Bool) : Shown multiline '"' ['\\', '"'] := .letter rfl

theorem shown_escaped (multiline : Bool) {c : Char} (hq : c ≠ '"') :
    Shown multiline c (escaped multiline c) := by
  unfold escaped
  split
  · exact .letter rfl
  · exact .letter rfl
  · cases multiline with
    | true => exact .lineEnd rfl rfl
    | false => exact .letter rfl
  · exact .letter rfl
  · exact .letter rfl
  · exact .letter rfl
  · split
    case isTrue h => exact shown_control h
    case isFalse h =>
      exact .plain (isPlain_of_isControl (by simpa using h) ‹_›) hq ‹_›

theorem Shown.head {multiline : Bool} {c : Char} {cs : List Char} (h : Shown multiline c cs) :
    ∃ d ds, cs = d :: ds ∧ d ≠ '"' ∧ d ≠ '\r' ∧ (d = '\n' → c = '\n') := by
  cases h with
  | plain hc hq hb =>
    refine ⟨c, [], rfl, hq, ?_, id⟩
    rintro rfl
    exact absurd hc (by decide)
  | lineEnd hm hc => exact ⟨c, [], rfl, by simp [hc], by simp [hc], id⟩
  | letter h => exact ⟨'\\', _, rfl, by simp⟩
  | code h => exact ⟨'\\', _, rfl, by simp⟩

/-! ## One line between double quotes -/

section
variable (acc cs : List Char) {c : Char}

theorem letter_ne {a : Char} (h : unescaped? a = some c) : a ≠ 'x' ∧ a ≠ 'u' ∧ a ≠ 'U' := by
  refine ⟨?_, ?_, ?_⟩ <;> rintro rfl <;> simp [unescaped?] at h

theorem readBasic_shown {text : List Char} (h : Shown false c text) :
    readBasic acc (text ++ cs) = readBasic (c :: acc) cs := by
  cases h with
  | plain hc hq hb =>
    rw [List.singleton_append, readBasic.eq_def]
    split <;> simp_all
  | lineEnd hm => exact absurd hm (by decide)
  | letter h =>
    have hx := letter_ne h
    rw [List.cons_append, List.singleton_append, readBasic.eq_def]
    split <;> grind
  | code h =>
    rw [List.cons_append, readBasic.eq_def]
    split <;> grind

theorem readBasic_escapeAll (cs rest : List Char) :
    readBasic acc (escapeAll false 0 cs 0 ++ '"' :: rest) =
      .ok (String.ofList (acc.reverse ++ cs), rest) := by
  induction cs generalizing acc with
  | nil => simp [escapeAll, readBasic]
  | cons c cs ih =>
    have hstep (text : List Char) (h : Shown false c text) :
        readBasic acc ((text ++ escapeAll false 0 cs 0) ++ '"' :: rest) =
          .ok (String.ofList (acc.reverse ++ c :: cs), rest) := by
      rw [List.append_assoc, readBasic_shown _ _ h, ih, List.reverse_cons, List.append_assoc]
      rfl
    by_cases hq : c = '"'
    · subst hq
      exact hstep _ (shown_quote false)
    · rw [escapeAll]
      · exact hstep _ (shown_escaped false hq)
      · exact hq

end

/-! ## Runs of quotes -/

/-- How three quotes end a string: a quote or two right before them are still part of it. -/
structure Closing (q : Char) (read : List Char → List Char → Except Flaw (Scanned String)) :
    Prop where
  three (acc : List Char) {rest : List Char} (h : rest.head? ≠ some q) :
    read acc (q :: q :: q :: rest) = .ok (String.ofList acc.reverse, rest)
  four (acc : List Char) {rest : List Char} (h : rest.head? ≠ some q) :
    read acc (q :: q :: q :: q :: rest) = .ok (String.ofList (q :: acc).reverse, rest)
  five (acc rest : List Char) :
    read acc (q :: q :: q :: q :: q :: rest) = .ok (String.ofList (q :: q :: acc).reverse, rest)
  within (acc : List Char) {cs : List Char} (h : ¬ [q, q] <+: cs) :
    read acc (q :: cs) = read (q :: acc) cs

theorem Closing.quote {q : Char} {read : List Char → List Char → Except Flaw (Scanned String)}
    (h : Closing q read) (acc : List Char) {body rest : List Char} (hbody : ¬ [q, q] <+: body)
    (hrest : rest.head? ≠ some q) :
    read acc (q :: (body ++ q :: q :: q :: rest)) =
      read (q :: acc) (body ++ q :: q :: q :: rest) := by
  match body, hbody with
  | [], _ => exact (h.four acc hrest).trans (h.three _ hrest).symm
  | [c], _ =>
    by_cases hc : c = q
    · subst hc
      exact (h.five acc rest).trans (h.four _ hrest).symm
    · exact h.within acc (by simp [Ne.symm hc])
  | c :: d :: body, hbody => exact h.within acc (by simpa using hbody)

/-! ## Several lines between double quotes -/

theorem closing_readMultilineBasic : Closing '"' (readMultilineBasic · false) where
  three acc rest h := by
    rw [readMultilineBasic.eq_def]
    split <;> grind
  four acc rest h := by
    rw [readMultilineBasic.eq_def]
    split <;> grind
  five acc rest := by
    rw [readMultilineBasic]
  within acc cs h := by
    have hplain : isPlain '"' = true := by decide
    rw [readMultilineBasic.eq_def]
    split <;> grind

section
variable (acc cs : List Char) {c : Char}

theorem not_atLineEnd_of_letter {a : Char} (h : unescaped? a = some c) :
    atLineEnd ((a :: cs).dropWhile isSpace) = false := by
  unfold unescaped? at h
  split at h <;> first | rfl | cases h

theorem readMultilineBasic_shown {text : List Char} (h : Shown true c text) :
    readMultilineBasic acc false (text ++ cs) = readMultilineBasic (c :: acc) false cs := by
  cases h with
  | plain hc hq hb =>
    have hr : c ≠ '\r' ∧ c ≠ '\n' := by
      constructor <;> rintro rfl <;> simp [isPlain] at hc
    rw [List.singleton_append, readMultilineBasic.eq_def]
    split <;> simp_all
  | lineEnd hm hc =>
    subst hc
    rw [List.singleton_append, readMultilineBasic.eq_def]
    split <;> grind
  | @letter a h =>
    have hx := letter_ne h
    have hend := not_atLineEnd_of_letter cs h
    rw [List.cons_append, List.singleton_append, readMultilineBasic.eq_def]
    split <;> grind
  | code h =>
    rw [List.cons_append, readMultilineBasic.eq_def]
    split <;> grind

end

theorem head_escapeAll (multiline : Bool) {quotes run : Nat} (hrun : quotes ≤ run)
    (cs : List Char) :
    (escapeAll multiline quotes cs run).head? ≠ some '"' := by
  match cs with
  | [] => simp [escapeAll]
  | c :: cs =>
    by_cases hq : c = '"'
    · simp [hq, escapeAll, not_lt.mpr hrun]
    · obtain ⟨d, ds, hd, hdq, -⟩ := (shown_escaped multiline hq).head
      simpa [escapeAll, hq, hd] using hdq

/-- Behind one quote that has no escape, at most one more has none. -/
theorem escapeAll_short {run : Nat} (hrun : 1 ≤ run) (cs : List Char) :
    ¬ ['"', '"'] <+: escapeAll true 2 cs run := by
  match cs with
  | [] => simp [escapeAll]
  | c :: cs =>
    by_cases hq : c = '"'
    · by_cases hlt : run < 2
      · have hhead := head_escapeAll true (show 2 ≤ run + 1 by omega) cs
        cases hcs : escapeAll true 2 cs (run + 1) with
        | nil => simp [hq, escapeAll, hlt, hcs]
        | cons d ds => simpa [hq, escapeAll, hlt, hcs, eq_comm] using hhead
      · simp [hq, escapeAll, hlt]
    · obtain ⟨d, ds, hd, hdq, -⟩ := (shown_escaped true hq).head
      simp [escapeAll, hd, Ne.symm hdq]

theorem readMultilineBasic_escapeAll (acc cs : List Char) (run : Nat) {rest : List Char}
    (hrest : rest.head? ≠ some '"') :
    readMultilineBasic acc false (escapeAll true 2 cs run ++ '"' :: '"' :: '"' :: rest) =
      .ok (String.ofList (acc.reverse ++ cs), rest) := by
  induction cs generalizing acc run with
  | nil =>
    rw [List.append_nil]
    exact closing_readMultilineBasic.three acc hrest
  | cons c cs ih =>
    have hstep (text : List Char) (h : Shown true c text) :
        readMultilineBasic acc false
            ((text ++ escapeAll true 2 cs 0) ++ '"' :: '"' :: '"' :: rest) =
          .ok (String.ofList (acc.reverse ++ c :: cs), rest) := by
      rw [List.append_assoc, readMultilineBasic_shown _ _ h, ih, List.reverse_cons,
        List.append_assoc]
      rfl
    by_cases hq : c = '"'
    · subst hq
      -- the reader keeps no count of quotes, it looks at the two characters behind this one
      by_cases hlt : run < 2
      · have hshort := escapeAll_short (show 1 ≤ run + 1 by omega) cs
        have hquote := closing_readMultilineBasic.quote acc hshort hrest
        simp only [escapeAll, if_pos hlt, List.cons_append]
        rw [hquote, ih, List.reverse_cons, List.append_assoc]
        rfl
      · simp only [escapeAll, if_neg hlt]
        exact hstep _ (shown_quote true)
    · rw [escapeAll]
      · exact hstep _ (shown_escaped true hq)
      · exact hq

/-! ## Between single quotes -/

theorem le_longestRun (q : Char) (cs : List Char) (run best : Nat) :
    best ≤ longestRun q cs run best ∧ run ≤ longestRun q cs run best := by
  induction cs generalizing run best with
  | nil => exact ⟨le_max_right _ _, le_max_left _ _⟩
  | cons c cs ih =>
    rw [longestRun]
    split
    · have := ih (run + 1) best
      omega
    · have := ih 0 (max run best)
      omega

theorem not_mem_of_longestRun {q : Char} {cs : List Char} {run best : Nat}
    (h : longestRun q cs run best = 0) : q ∉ cs := by
  induction cs generalizing run best with
  | nil => simp
  | cons c cs ih =>
    rw [longestRun] at h
    split at h
    · have := le_longestRun q cs (run + 1) best
      omega
    · simpa [Ne.symm ‹_›] using ih h

theorem readLiteral_append {cs : List Char} (hplain : ∀ c ∈ cs, isPlain c = true)
    (hquote : '\'' ∉ cs) (rest : List Char) :
    readLiteral (cs ++ '\'' :: rest) = .ok (String.ofList cs, rest) := by
  have hall : ∀ c ∈ cs, (isPlain c && c != '\'') = true := by
    intro c hc
    have : c ≠ '\'' := fun h => hquote (h ▸ hc)
    simp [hplain c hc, this]
  simp only [readLiteral, List.takeWhile_append_of_pos hall, List.dropWhile_append_of_pos hall]
  simp

theorem closing_readMultilineLiteral : Closing '\'' readMultilineLiteral where
  three acc rest h := by
    rw [readMultilineLiteral.eq_def]
    split <;> grind
  four acc rest h := by
    rw [readMultilineLiteral.eq_def]
    split <;> grind
  five acc rest := by
    rw [readMultilineLiteral]
  within acc cs h := by
    have hplain : isPlain '\'' = true := by decide
    rw [readMultilineLiteral.eq_def]
    split <;> grind

theorem readMultilineLiteral_cons (acc cs : List Char) {c : Char} (h : isControl c = false)
    (hq : c ≠ '\'') : readMultilineLiteral acc (c :: cs) = readMultilineLiteral (c :: acc) cs := by
  have hr : c ≠ '\r' := by
    rintro rfl
    exact absurd h (by decide)
  have hplain := isPlain_of_isControl h
  rw [readMultilineLiteral.eq_def]
  split <;> grind

theorem readMultilineLiteral_append (acc : List Char) {cs : List Char} {run best : Nat}
    (hcontrol : ∀ c ∈ cs, isControl c = false) (hrun : longestRun '\'' cs run best ≤ 2)
    {rest : List Char} (hrest : rest.head? ≠ some '\'') :
    readMultilineLiteral acc (cs ++ '\'' :: '\'' :: '\'' :: rest) =
      .ok (String.ofList (acc.reverse ++ cs), rest) := by
  induction cs generalizing acc run best with
  | nil =>
    rw [List.append_nil]
    exact closing_readMultilineLiteral.three acc hrest
  | cons c cs ih =>
    have hcs : ∀ c ∈ cs, isControl c = false := fun d hd => hcontrol d (List.mem_cons_of_mem _ hd)
    have hnext : readMultilineLiteral acc (c :: (cs ++ '\'' :: '\'' :: '\'' :: rest)) =
        readMultilineLiteral (c :: acc) (cs ++ '\'' :: '\'' :: '\'' :: rest) := by
      by_cases hq : c = '\''
      · subst hq
        -- two more quotes would be the second and third of a run
        refine closing_readMultilineLiteral.quote acc ?_ hrest
        rintro ⟨ds, rfl⟩
        have := (le_longestRun '\'' ds (run + 1 + 1 + 1) best).2
        simp [longestRun] at hrun
        omega
      · exact readMultilineLiteral_cons acc _ (hcontrol c List.mem_cons_self) hq
    have hread : readMultilineLiteral (c :: acc) (cs ++ '\'' :: '\'' :: '\'' :: rest) =
        .ok (String.ofList ((c :: acc).reverse ++ cs), rest) := by
      rw [longestRun] at hrun
      split at hrun
      · exact ih _ hcs hrun
      · exact ih _ hcs hrun
    rw [List.cons_append, hnext, hread, List.reverse_cons, List.append_assoc]
    rfl

/-! ## All forms -/

/-- A string of one line is not taken for one of several. -/
theorem not_quotes_append {q : Char} {cs rest : List Char} (hcs : cs.head? ≠ some q)
    (hrest : rest.head? ≠ some q) : ¬ [q, q] <+: cs ++ q :: rest := by
  rintro ⟨ds, hds⟩
  cases cs with
  | nil => exact hrest (by simp at hds; simp [← hds])
  | cons c cs => exact hcs (by simp at hds; simp [← hds.1])

/-- What stands on the first line of its own begins on the next one. -/
theorem dropLineEnd_opening {s : String} {cs : List Char}
    (h : '\n' ∉ s.toList → cs.head? ≠ some '\n' ∧ cs.head? ≠ some '\r') :
    dropLineEnd ((opening s).toList ++ cs) = cs := by
  unfold opening
  split
  case isTrue => rfl
  case isFalse hn =>
    have hcs := h (by simpa using hn)
    cases cs with
    | nil => rfl
    | cons c cs => simp_all [dropLineEnd]

section
variable (s : String) {rest : List Char}

theorem readString_basic (hrest : rest.head? ≠ some '"') :
    readString ((basic s).toList ++ rest) = .ok (s, rest) := by
  have hread := readBasic_escapeAll [] s.toList rest
  have hhead := head_escapeAll false (le_refl 0) s.toList
  have hshort := not_quotes_append hhead hrest
  have htext : (basic s).toList ++ rest = '"' :: (escapeAll false 0 s.toList 0 ++ '"' :: rest) := by
    simp [basic]
  rw [htext]
  generalize escapeAll false 0 s.toList 0 ++ '"' :: rest = cs at hread hshort
  rw [readString.eq_def]
  split <;> simp_all

theorem readString_literal (hcontrol : ∀ c ∈ s.toList, isControl c = false)
    (hquote : '\'' ∉ s.toList) (hline : '\n' ∉ s.toList) (hrest : rest.head? ≠ some '\'') :
    readString ((literal s).toList ++ rest) = .ok (s, rest) := by
  have hplain : ∀ c ∈ s.toList, isPlain c = true := fun c hc =>
    isPlain_of_isControl (hcontrol c hc) (fun h => hline (h ▸ hc))
  have hread := readLiteral_append hplain hquote rest
  have hhead : s.toList.head? ≠ some '\'' := fun h => hquote (List.mem_of_mem_head? h)
  have hshort := not_quotes_append hhead hrest
  have htext : (literal s).toList ++ rest = '\'' :: (s.toList ++ '\'' :: rest) := by
    simp [literal]
  rw [htext]
  rw [String.ofList_toList] at hread
  generalize s.toList ++ '\'' :: rest = cs at hread hshort
  rw [readString.eq_def]
  split <;> simp_all

theorem readString_multilineBasic (hrest : rest.head? ≠ some '"') :
    readString ((multilineBasic s).toList ++ rest) = .ok (s, rest) := by
  have hread := readMultilineBasic_escapeAll [] s.toList 0 hrest
  have hfirst : '\n' ∉ s.toList →
      (escapeAll true 2 s.toList 0 ++ '"' :: '"' :: '"' :: rest).head? ≠ some '\n' ∧
      (escapeAll true 2 s.toList 0 ++ '"' :: '"' :: '"' :: rest).head? ≠ some '\r' := by
    intro hline
    cases hcs : s.toList with
    | nil => simp [escapeAll]
    | cons c cs =>
      by_cases hq : c = '"'
      · simp [escapeAll, hq]
      · obtain ⟨d, ds, hd, -, hr, hn⟩ := (shown_escaped true hq).head
        have hc : c ≠ '\n' := by
          rintro rfl
          exact hline (by simp [hcs])
        have hdn : d ≠ '\n' := fun h => hc (hn h)
        simp [escapeAll, hd, hr, hdn]
  have htext : (multilineBasic s).toList ++ rest = '"' :: '"' :: '"' ::
      ((opening s).toList ++ (escapeAll true 2 s.toList 0 ++ '"' :: '"' :: '"' :: rest)) := by
    simp [multilineBasic]
  rw [htext, readString, dropLineEnd_opening hfirst, hread]
  simp

theorem readString_multilineLiteral (hcontrol : ∀ c ∈ s.toList, isControl c = false)
    (hrun : longestRun '\'' s.toList 0 0 ≤ 2) (hrest : rest.head? ≠ some '\'') :
    readString ((multilineLiteral s).toList ++ rest) = .ok (s, rest) := by
  have hread := readMultilineLiteral_append [] hcontrol hrun hrest
  have hfirst : '\n' ∉ s.toList →
      (s.toList ++ '\'' :: '\'' :: '\'' :: rest).head? ≠ some '\n' ∧
      (s.toList ++ '\'' :: '\'' :: '\'' :: rest).head? ≠ some '\r' := by
    intro hline
    cases hcs : s.toList with
    | nil => simp
    | cons c cs =>
      have hc := hcontrol c (by simp [hcs])
      constructor
      · rintro ⟨⟩
        exact hline (by simp [hcs])
      · rintro ⟨⟩
        exact absurd hc (by decide)
  have htext : (multilineLiteral s).toList ++ rest = '\'' :: '\'' :: '\'' ::
      ((opening s).toList ++ (s.toList ++ '\'' :: '\'' :: '\'' :: rest)) := by
    simp [multilineLiteral]
  rw [htext, readString, dropLineEnd_opening hfirst, hread]
  simp

/-- Whatever form a string is written in, it is read back, and nothing behind it is. -/
theorem readString_stringText (hdouble : rest.head? ≠ some '"') (hsingle : rest.head? ≠ some '\'') :
    readString ((stringText s).toList ++ rest) = .ok (s, rest) := by
  have hcontrol (h : s.toList.any isControl = false) : ∀ c ∈ s.toList, isControl c = false := by
    simpa using h
  unfold stringText
  simp only [Bool.and_eq_true, Bool.not_eq_true', decide_eq_true_eq]
  split
  · exact readString_basic s hdouble
  · split
    case isTrue h =>
      obtain ⟨⟨hc, hq⟩, hn⟩ := h
      exact readString_literal s (hcontrol hc) (not_mem_of_longestRun hq) (by simpa using hn) hsingle
    · split
      · exact readString_multilineBasic s hdouble
      · split
        case isTrue h => exact readString_multilineLiteral s (hcontrol h.1) h.2 hsingle
        · split
          · exact readString_multilineBasic s hdouble
          · exact readString_basic s hdouble

end

end Biotope.Toml
