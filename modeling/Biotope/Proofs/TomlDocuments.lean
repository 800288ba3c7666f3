import Biotope.Proofs.TomlValues

/-!
# TOML documents of sections

A section is a header and pairs, each on a line. If no name is given twice, the reader makes
a table of every section, with the entries that it was written for and in their order.
-/

namespace Biotope.Toml

/-! ## Names -/

def Bare (name : String) : Prop := name.isEmpty = false ∧ ∀ c ∈ name.toList, isBare c = true

theorem Bare.keyText {name : String} (h : Bare name) : keyText name = name := by
  simp [Toml.keyText, h.1, List.all_eq_true.mpr h.2]

theorem isMark_of_isBare {c : Char} (h : isBare c = true) : isMark c = true := by
  by_contra hc
  simp only [isMark, isSpace, Bool.not_eq_true, Bool.and_eq_false_iff, Bool.not_eq_false',
    Bool.or_eq_true, beq_iff_eq, bne_eq_false_iff_eq, or_assoc] at hc
  rcases hc with rfl | rfl | rfl | rfl | rfl <;> exact absurd h (by decide)

section
variable {name : String} (h : Bare name) {c : Char} {cs rest : List Char} (hc : isBare c = false)
include h

theorem Bare.head : ∃ d ds, name.toList = d :: ds ∧ isBare d = true := by
  have hne : name.toList ≠ [] := by simpa using h.1
  obtain ⟨d, ds, hd⟩ := List.exists_cons_of_ne_nil hne
  exact ⟨d, ds, hd, h.2 d (by simp [hd])⟩

theorem Bare.skipSpaces : skipSpaces (name.toList ++ cs) = name.toList ++ cs := by
  obtain ⟨d, ds, hd, hbare⟩ := h.head
  rw [hd]
  exact skipSpaces_mark (isMark_of_isBare hbare) _

include hc

theorem Bare.append_ne : name.toList ++ rest ≠ c :: cs := by
  obtain ⟨d, ds, hd, hbare⟩ := h.head
  rw [hd]
  rintro ⟨⟩
  exact absurd (hbare.symm.trans hc) (by decide)

theorem readPart_bare : readPart (name.toList ++ c :: cs) = .ok (name, c :: cs) := by
  have hsome : name.toList.isEmpty = false := by simpa using h.1
  have htake : (name.toList ++ c :: cs).takeWhile isBare = name.toList := by
    rw [List.takeWhile_append_of_pos h.2]
    simp [hc]
  have hdrop : (name.toList ++ c :: cs).dropWhile isBare = c :: cs := by
    rw [List.dropWhile_append_of_pos h.2]
    simp [hc]
  rw [readPart]
  · simp only [htake, hdrop, hsome, String.ofList_toList]
    rfl
  · exact fun _ => h.append_ne (by decide)
  · exact fun _ => h.append_ne (by decide)

/-- A name is a whole key if no point follows. -/
theorem readKey_bare (fuel : Nat) (hrest : Toml.skipSpaces (c :: cs) = rest)
    (hpoint : rest.head? ≠ some '.') :
    readKey (fuel + 1) (name.toList ++ c :: cs) = .ok ([name], rest) := by
  have hparts : readParts (fuel + 1) (name.toList ++ c :: cs) = .ok ([name], rest) := by
    simp only [readParts, h.skipSpaces, readPart_bare h hc, bind, Except.bind, hrest]
    split
    · simp at hpoint
    · rfl
  rw [readKey, hparts]
  rfl

end

/-! ## Lines -/

theorem readStatement_header {name : String} (h : Bare name) (fuel : Nat) (rest : List Char) :
    readStatement (fuel + 1) ('[' :: (name.toList ++ ']' :: rest)) = .ok (.header [name], rest) := by
  have hkey := readKey_bare h (c := ']') (by decide) fuel (skipSpaces_mark (by decide) rest) (by simp)
  rw [readStatement]
  · simp only [readHeader, hkey, bind, Except.bind]
    rfl
  · exact fun _ => h.append_ne (by decide)

theorem readStatement_pair {key : String} {v : Value} (h : Bare key) (hv : Readable depthLimit v)
    {fuel : Nat} (hfuel : v.text.toList.length ≤ fuel) {rest : List Char} (hrest : Ends rest) :
    readStatement (fuel + 1) (key.toList ++ ' ' :: '=' :: ' ' :: (v.text.toList ++ rest)) =
      .ok (.pair [key] v, rest) := by
  have hequals : skipSpaces (' ' :: '=' :: ' ' :: (v.text.toList ++ rest)) =
      '=' :: ' ' :: (v.text.toList ++ rest) := rfl
  have hskip : skipSpaces (' ' :: (v.text.toList ++ rest)) = v.text.toList ++ rest := by
    obtain ⟨c, cs, hc, hmark, -⟩ := hv.mark
    rw [hc]
    exact skipSpaces_mark hmark _
  have hkey := readKey_bare h (by decide) fuel hequals (by simp)
  have hread := hv.reads (fuel + 1) rest (by omega) hrest
  rw [readStatement]
  · simp only [hkey, bind, Except.bind, hskip, hread]
    rfl
  · exact fun _ => h.append_ne (by decide)
  · exact fun _ => h.append_ne (by decide)

/-! ## Texts -/

def Passes (text : List Char) (statements : List Statement) : Prop :=
  ∀ fuel rest, (text ++ rest).length < fuel → ∃ fuel', rest.length < fuel' ∧
    readStatements fuel (text ++ rest) = (statements ++ ·) <$> readStatements fuel' rest

theorem Passes.append {text text' : List Char} {statements statements' : List Statement}
    (h : Passes text statements) (h' : Passes text' statements') :
    Passes (text ++ text') (statements ++ statements') := by
  intro fuel rest hfuel
  rw [List.append_assoc] at hfuel ⊢
  obtain ⟨fuel₁, hfuel₁, h₁⟩ := h fuel (text' ++ rest) hfuel
  obtain ⟨fuel₂, hfuel₂, h₂⟩ := h' fuel₁ rest hfuel₁
  refine ⟨fuel₂, hfuel₂, ?_⟩
  rw [h₁, h₂]
  simp

theorem passes_nil : Passes [] [] := fun fuel rest hfuel => ⟨fuel, hfuel, by simp⟩

theorem passes_lineEnd : Passes ['\n'] [] := by
  intro fuel rest hfuel
  refine ⟨fuel, by simp at hfuel; omega, ?_⟩
  obtain ⟨fuel, rfl⟩ : ∃ k, fuel = k + 1 := ⟨fuel - 1, by omega⟩
  rw [List.singleton_append, readStatements, readStatements, List.length_cons, skipLines_lineEnd]
  simp

theorem passes_line {line : List Char} {statement : Statement} {c : Char} {cs : List Char}
    (hline : line = c :: cs) (hc : isMark c = true)
    (h : ∀ rest fuel, line.length ≤ fuel →
      readStatement (fuel + 1) (line ++ '\n' :: rest) = .ok (statement, '\n' :: rest)) :
    Passes (line ++ ['\n']) [statement] := by
  intro fuel rest hfuel
  obtain ⟨fuel, rfl⟩ : ∃ k, fuel = k + 1 := ⟨fuel - 1, by omega⟩
  rw [List.append_assoc, List.singleton_append] at hfuel ⊢
  have hread := h rest (line ++ '\n' :: rest).length (by simp)
  have hend : endLine ('\n' :: rest) = .ok rest := by simp [endLine, skipSpaces, isSpace, skipComment]
  refine ⟨fuel, by simp at hfuel; omega, ?_⟩
  rw [hline, List.cons_append] at hread ⊢
  rw [readStatements, skipLines_mark hc]
  simp only [Nat.succ_eq_add_one, hread, bind, Except.bind, hend]
  cases readStatements fuel rest <;> rfl

/-! ## Sections -/

structure Section.Plain (s : Section) : Prop where
  name : Bare s.name
  keys : ∀ e ∈ s.entries, Bare e.1
  distinct : (s.entries.map (·.1)).Nodup
  values : ∀ e ∈ s.entries, Readable depthLimit e.2

def pairOf (e : String × Value) : Statement := .pair [e.1] e.2

def Section.statements (s : Section) : List Statement := .header [s.name] :: s.entries.map pairOf

theorem passes_header {name : String} (h : Bare name) :
    Passes (("[" ++ keyText name ++ "]\n").toList) [.header [name]] := by
  have hline : ("[" ++ keyText name ++ "]\n").toList = '[' :: (name.toList ++ [']']) ++ ['\n'] := by
    simp [h.keyText]
  rw [hline]
  refine passes_line rfl (by decide) fun rest fuel _ => ?_
  simpa using readStatement_header h fuel ('\n' :: rest)

theorem passes_pair {e : String × Value} (h : Bare e.1) (hv : Readable depthLimit e.2) :
    Passes ((inlineEntry e ++ "\n").toList) [pairOf e] := by
  obtain ⟨key, v⟩ := e
  obtain ⟨c, cs, hc, hbare⟩ := h.head
  have hline : (inlineEntry (key, v) ++ "\n").toList =
      (key.toList ++ ' ' :: '=' :: ' ' :: v.text.toList) ++ ['\n'] := by
    simp [inlineEntry, h.keyText]
  rw [hline]
  refine passes_line (by rw [hc]; rfl) (isMark_of_isBare hbare) fun rest fuel hfuel => ?_
  have hlength : v.text.toList.length ≤ fuel := by simp at hfuel ⊢; omega
  simpa [pairOf] using readStatement_pair h hv hlength (.cons (.inl rfl) rest)

theorem passes_pairs {es : List (String × Value)} (hkeys : ∀ e ∈ es, Bare e.1)
    (hvalues : ∀ e ∈ es, Readable depthLimit e.2) :
    Passes (String.join (es.map fun e => inlineEntry e ++ "\n")).toList (es.map pairOf) := by
  induction es with
  | nil => exact passes_nil
  | cons e es ih =>
    have hrest := ih (fun e he => hkeys e (List.mem_cons_of_mem _ he))
      (fun e he => hvalues e (List.mem_cons_of_mem _ he))
    have hpair := passes_pair (hkeys e List.mem_cons_self) (hvalues e List.mem_cons_self)
    simpa using hpair.append hrest

theorem Section.Plain.passes {s : Section} (h : s.Plain) : Passes s.text.toList s.statements := by
  rw [Section.text, String.toList_append]
  exact (passes_header h.name).append (passes_pairs h.keys h.values)

theorem passes_document {ss : List Section} (h : ∀ s ∈ ss, s.Plain) :
    Passes (documentText ss).toList (ss.flatMap Section.statements) := by
  induction ss with
  | nil => exact passes_nil
  | cons s ss ih =>
    have hs := (h s List.mem_cons_self).passes
    have hss := ih (fun s hs => h s (List.mem_cons_of_mem _ hs))
    cases ss with
    | nil => simpa [documentText] using hs
    | cons t ts =>
      have htext : (documentText (s :: t :: ts)).toList =
          s.text.toList ++ (['\n'] ++ (documentText (t :: ts)).toList) := by
        simp [documentText]
      rw [htext]
      exact hs.append (passes_lineEnd.append hss)

/-! ## Tables -/

theorem new_of_nodup {names rest : List String} {name : String}
    (h : (names ++ name :: rest).Nodup) : name ∉ names := fun hmem =>
  (List.nodup_append.mp h).2.2 name hmem name List.mem_cons_self rfl

theorem lookup?_eq_none {key : String} {entries : Entries} (h : key ∉ entries.map (·.1)) :
    lookup? key entries = none := by
  simp only [lookup?, Option.map_eq_none_iff, List.find?_eq_none, beq_iff_eq]
  rintro e he rfl
  exact h (List.mem_map_of_mem he)

def entryOf (e : String × Value) : String × Item := (e.1, .value e.2)

theorem putPairs_distinct (es : List (String × Value)) {entries : Entries}
    (h : (entries.map (·.1) ++ es.map (·.1)).Nodup) :
    putPairs (es.map fun e => ([e.1], e.2)) entries = .ok (entries ++ es.map entryOf) := by
  induction es generalizing entries with
  | nil =>
    rw [List.map_nil, List.map_nil, List.append_nil]
    rfl
  | cons e es ih =>
    have hnew : e.1 ∉ entries.map (·.1) := new_of_nodup h
    have hput : putPair [e.1] e.2 entries = .ok (entries ++ [entryOf e]) := by
      simp [putPair, putDotted, lookup?_eq_none hnew, entryOf]
    have hnodup : ((entries ++ [entryOf e]).map (·.1) ++ es.map (·.1)).Nodup := by
      simpa [entryOf] using h
    have hrest := ih hnodup
    rw [List.map_cons, putPairs, List.foldlM_cons, hput]
    refine hrest.trans ?_
    simp

def Section.item (s : Section) : String × Item := (s.name, .table .header (s.entries.map entryOf))

theorem close_section {s : Section} (hs : s.Plain) {root : Entries}
    (hnew : s.name ∉ root.map (·.1)) :
    close (.header [s.name]) (s.entries.map fun e => ([e.1], e.2)) root =
      .ok (root ++ [s.item]) := by
  have hpairs : putPairs (s.entries.map fun e => ([e.1], e.2)) [] = .ok (s.entries.map entryOf) :=
    putPairs_distinct s.entries hs.distinct
  simp only [close, List.getLastD_cons, List.getLastD_nil, List.dropLast_singleton, descend,
    openTable, lookup?_eq_none hnew, hpairs]
  rfl

theorem build_pairs (heading : Heading) (es : List (String × Value)) (statements : List Statement)
    (pairs : List (List String × Value)) (root : Entries) :
    build heading pairs root (es.map pairOf ++ statements) =
      build heading ((es.map fun e => ([e.1], e.2)).reverse ++ pairs) root statements := by
  induction es generalizing pairs with
  | nil => rfl
  | cons e es ih => simp [pairOf, build, ih]

theorem build_sections (root : Entries) {s : Section} {ss : List Section} (hs : s.Plain)
    (hss : ∀ t ∈ ss, t.Plain) (hnames : (root.map (·.1) ++ (s :: ss).map (·.name)).Nodup) :
    build (.header [s.name]) (s.entries.map fun e => ([e.1], e.2)).reverse root
        (ss.flatMap Section.statements) = .ok (root ++ (s :: ss).map Section.item) := by
  have hclose := close_section hs (new_of_nodup hnames)
  induction ss generalizing s root with
  | nil => simpa [build] using hclose
  | cons t ts ih =>
    have hnames' : ((root ++ [s.item]).map (·.1) ++ (t :: ts).map (·.name)).Nodup := by
      simpa [Section.item] using hnames
    have ht := hss t List.mem_cons_self
    have hrest := ih _ ht (fun u hu => hss u (List.mem_cons_of_mem _ hu)) hnames'
      (close_section ht (new_of_nodup hnames'))
    simp only [List.flatMap_cons, Section.statements, List.cons_append, build,
      List.reverse_reverse, hclose, bind, Except.bind, build_pairs, List.append_nil]
    refine hrest.trans ?_
    simp

theorem entryValues_entryOf (es : List (String × Value)) : entryValues (es.map entryOf) = es := by
  induction es with
  | nil => simp [entryValues]
  | cons e es ih => simp [entryValues, entryValue, entryOf, Item.toValue, ih]

theorem entryValues_item (ss : List Section) :
    entryValues (ss.map Section.item) = ss.map fun s => (s.name, .table s.entries) := by
  induction ss with
  | nil => simp [entryValues]
  | cons s ss ih =>
    simp [entryValues, entryValue, Section.item, Item.toValue, ih, entryValues_entryOf]

theorem tableOf_sections {ss : List Section} (hss : ∀ s ∈ ss, s.Plain)
    (hnames : (ss.map (·.name)).Nodup) :
    tableOf (ss.flatMap Section.statements) = .ok (ss.map fun s => (s.name, .table s.entries)) := by
  have hbuild : build .none [] [] (ss.flatMap Section.statements) = .ok (ss.map Section.item) := by
    cases ss with
    | nil => rfl
    | cons s ss =>
      have hrest := build_sections [] (hss s List.mem_cons_self)
        (fun t ht => hss t (List.mem_cons_of_mem _ ht)) hnames
      have hclose : close .none [] [] = .ok [] := rfl
      simp only [List.flatMap_cons, Section.statements, List.cons_append, build, List.reverse_nil,
        hclose, bind, Except.bind, build_pairs, List.append_nil]
      exact hrest
  rw [tableOf, hbuild, ← entryValues_item]
  rfl

/-! ## Documents -/

theorem head_documentText (ss : List Section) : (documentText ss).toList.head? ≠ some '\ufeff' := by
  match ss with
  | [] => simp [documentText]
  | [s] => simp [documentText, Section.text]
  | s :: t :: ts => simp [documentText, Section.text]

/-- A document of sections under different names is read back, section by section. -/
theorem read_documentText {ss : List Section} (hss : ∀ s ∈ ss, s.Plain)
    (hnames : (ss.map (·.name)).Nodup) :
    read (documentText ss) = .ok (ss.map fun s => (s.name, .table s.entries)) := by
  have hread : readStatements (documentText ss).toList.length.succ (documentText ss).toList =
      .ok (ss.flatMap Section.statements) := by
    obtain ⟨fuel, hfuel, h⟩ := passes_document hss (documentText ss).toList.length.succ [] (by simp)
    obtain ⟨fuel, rfl⟩ : ∃ k, fuel = k + 1 := ⟨fuel - 1, by omega⟩
    rw [List.append_nil] at h
    rw [h]
    simp [readStatements, skipLines]
  simp only [read, if_neg (head_documentText ss), hread, bind, Except.bind,
    tableOf_sections hss hnames]
  rfl

end Biotope.Toml
