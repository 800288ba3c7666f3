import Biotope.Proofs.Layouts
import Biotope.Proofs.Strings

/-!
# Reading documents

A value that has been written is read back: the reader finds the node that stands for
it, with nothing wrong in it, and stops where the text of the value ends. The length of
the text is fuel enough at any depth.
-/

namespace Biotope.Json

/-! ## Nodes and values -/

mutual

/-- The node stands for the value, and nothing is wrong with it. -/
inductive Reads : Node → Value → Prop
  | null (stop : Nat) : Reads (.null stop) .null
  | bool (b : Bool) (stop : Nat) : Reads (.bool b stop) (.bool b)
  | int (n : Int) (stop : Nat) : Reads (.number (.ofInt n) stop) (.int n)
  | float (x : Float) (stop : Nat) : Reads (.number (.float x) stop) (.float x)
  | string (s : String) (stop : Nat) : Reads (.string ⟨s, none, none⟩ stop) (.string s)
  | array (start : Nat) {items : List (Item Node)} {vs : List Value} (stop : Nat) :
      ReadsItems items vs → Reads (.list start items (.closed stop)) (.array vs)
  | object (start : Nat) {entries : List (Entry Node)} {fs : List (String × Value)} (stop : Nat) :
      ReadsEntries entries fs → Reads (.object start entries (.closed stop)) (.object fs)

inductive ReadsItems : List (Item Node) → List Value → Prop
  | nil : ReadsItems [] []
  | cons {node : Node} {v : Value} (follow next : Nat) {items : List (Item Node)}
      {vs : List Value} : Reads node v → ReadsItems items vs →
      ReadsItems (⟨node, follow, next⟩ :: items) (v :: vs)

inductive ReadsEntries : List (Entry Node) → List (String × Value) → Prop
  | nil : ReadsEntries [] []
  | cons {name : String} {node : Node} {v : Value} (rest : List Char) (off colon follow next : Nat)
      {entries : List (Entry Node)} {fs : List (String × Value)} : Reads node v →
      ReadsEntries entries fs → ReadsEntries (⟨⟨writeChars name.toList rest, off⟩,
        ⟨name, none, none⟩, colon, node, follow, next⟩ :: entries) ((name, v) :: fs)

end

mutual

def Value.Writable : Value → Prop
  | .null | .bool _ | .string _ => True
  | .int n => Whole n
  | .float x => Decimal.isFinite x = true
  | .array vs => AllWritable vs
  | .object fs => FieldsWritable fs

def AllWritable : List Value → Prop
  | [] => True
  | v :: vs => v.Writable ∧ AllWritable vs

def FieldsWritable : List (String × Value) → Prop
  | [] => True
  | f :: fs => FieldWritable f ∧ FieldsWritable fs

def FieldWritable : String × Value → Prop
  | (_, v) => v.Writable

end

theorem Reads.cut?_eq {node : Node} {v : Value} (h : Reads node v) : node.cut? = none := by
  cases h <;> rfl

mutual

theorem Reads.flaw?_eq {node : Node} {v : Value} : Reads node v → node.flaw? = none
  | .null _ | .bool .. | .float .. | .string .. => rfl
  | .int n _ => by
    unfold Number.ofInt
    split <;> rfl
  | .array _ _ h => by rw [Node.flaw?, h.flaw?_eq]; rfl
  | .object _ _ h => by rw [Node.flaw?, h.flaw?_eq]; rfl

theorem ReadsItems.flaw?_eq {items : List (Item Node)} {vs : List Value} :
    ReadsItems items vs → Node.itemsFlaw? items = none
  | .nil => rfl
  | .cons _ _ hv h => by rw [Node.itemsFlaw?, Node.itemFlaw?, hv.flaw?_eq, h.flaw?_eq]; rfl

theorem ReadsEntries.flaw?_eq {entries : List (Entry Node)} {fs : List (String × Value)} :
    ReadsEntries entries fs → Node.fieldsFlaw? entries = none
  | .nil => rfl
  | .cons _ _ _ _ _ hv h => by
    rw [Node.fieldsFlaw?, Node.fieldFlaw?, hv.flaw?_eq, h.flaw?_eq]
    rfl

end

mutual

theorem Reads.value_eq {node : Node} {v : Value} : Reads node v → node.value = v
  | .null _ | .bool .. | .float .. | .string .. => rfl
  | .int n _ => by
    unfold Number.ofInt
    split
    · exact congrArg Value.int (by omega)
    · exact congrArg Value.int (by omega)
  | .array _ _ h => congrArg Value.array h.values_eq
  | .object _ _ h => congrArg Value.object h.values_eq

theorem ReadsItems.values_eq {items : List (Item Node)} {vs : List Value} :
    ReadsItems items vs → Node.itemValues items = vs
  | .nil => rfl
  | .cons _ _ hv h => by rw [Node.itemValues, Node.itemValue, hv.value_eq, h.values_eq]

theorem ReadsEntries.values_eq {entries : List (Entry Node)} {fs : List (String × Value)} :
    ReadsEntries entries fs → Node.entryValues entries = fs
  | .nil => rfl
  | .cons _ _ _ _ _ hv h => by
    rw [Node.entryValues, Node.entryValue, hv.value_eq, h.values_eq]

end

/-! ## The text of a value -/

theorem writeString_append (s : String) (rest cs : List Char) :
    writeString s (rest ++ cs) = writeString s rest ++ cs := by
  have h (ds : List Char) : writeChars ds (rest ++ cs) = writeChars ds rest ++ cs := by
    induction ds with
    | nil => rfl
    | cons d ds ih => rw [writeChars, writeChars, ih, List.append_assoc]
  rw [writeString, writeString, h, List.cons_append]

theorem writeItems_cons (v w : Value) (vs : List Value) (rest : List Char) :
    writeItems (v :: w :: vs) rest = v.write (',' :: writeItems (w :: vs) rest) := rfl

theorem writeFields_cons (f g : String × Value) (fs : List (String × Value)) (rest : List Char) :
    writeFields (f :: g :: fs) rest = writeField f (',' :: writeFields (g :: fs) rest) := rfl

mutual

theorem write_append (cs : List Char) : ∀ (v : Value) (rest : List Char),
    v.write (rest ++ cs) = v.write rest ++ cs
  | .null, _ | .bool true, _ | .bool false, _ => rfl
  | .int n, rest => by rw [Value.write, Value.write, List.append_assoc]
  | .float x, rest => by rw [Value.write, Value.write, List.append_assoc]
  | .string s, rest => by rw [Value.write, Value.write, writeString_append]
  | .array vs, rest => by rw [Value.write, Value.write, writeItems_append, List.cons_append]
  | .object fs, rest => by rw [Value.write, Value.write, writeFields_append, List.cons_append]

theorem writeItems_append (cs : List Char) : ∀ (vs : List Value) (rest : List Char),
    writeItems vs (rest ++ cs) = writeItems vs rest ++ cs
  | [], _ => rfl
  | [v], rest => by rw [writeItems, writeItems, ← write_append, List.cons_append]
  | v :: w :: vs, rest => by
    rw [writeItems_cons, writeItems_cons, writeItems_append, ← List.cons_append, write_append]

theorem writeFields_append (cs : List Char) : ∀ (fs : List (String × Value)) (rest : List Char),
    writeFields fs (rest ++ cs) = writeFields fs rest ++ cs
  | [], _ => rfl
  | [f], rest => by rw [writeFields, writeFields, ← writeField_append, List.cons_append]
  | f :: g :: fs, rest => by
    rw [writeFields_cons, writeFields_cons, writeFields_append, ← List.cons_append,
      writeField_append]

theorem writeField_append (cs : List Char) : ∀ (f : String × Value) (rest : List Char),
    writeField f (rest ++ cs) = writeField f rest ++ cs
  | (name, v), rest => by
    rw [writeField, writeField, write_append, ← List.cons_append, writeString_append]

end

theorem write_eq (v : Value) (cs : List Char) : v.write cs = v.write [] ++ cs :=
  write_append cs v []

def Opens (cs : List Char) : Prop := ∃ c ds, cs = c :: ds ∧ isBlank c = false ∧ c ≠ ']' ∧ c ≠ '}'

theorem opens_of_digit {c : Char} (cs : List Char) (h : c = '-' ∨ c.isDigit = true) :
    Opens (c :: cs) := by
  refine ⟨c, cs, rfl, ?_⟩
  rcases h with rfl | h
  · decide
  · refine ⟨?_, ?_, ?_⟩
    · simp only [isBlank, Bool.or_eq_false_iff, beq_eq_false_iff_ne]
      refine ⟨⟨⟨?_, ?_⟩, ?_⟩, ?_⟩ <;> rintro rfl <;> exact absurd h (by decide)
    · rintro rfl
      exact absurd h (by decide)
    · rintro rfl
      exact absurd h (by decide)

theorem write_opens {v : Value} (hv : v.Writable) (cs : List Char) : Opens (v.write cs) := by
  cases v with
  | null => exact ⟨_, _, rfl, by decide⟩
  | bool b => cases b <;> exact ⟨_, _, rfl, by decide⟩
  | int n =>
    obtain ⟨s, hs, htext, -⟩ := int_spelling hv
    obtain ⟨c, ds, hc, hdigit⟩ := hs.text_eq_cons
    rw [Value.write, ← htext, hc]
    exact opens_of_digit _ hdigit
  | float x =>
    obtain ⟨s, hs, htext, -⟩ := float_spelling hv
    obtain ⟨c, ds, hc, hdigit⟩ := hs.text_eq_cons
    rw [Value.write, ← htext, hc]
    exact opens_of_digit _ hdigit
  | string s => exact ⟨_, _, rfl, by decide⟩
  | array vs => exact ⟨_, _, rfl, by decide⟩
  | object fs => exact ⟨_, _, rfl, by decide⟩

theorem writeItems_opens {v : Value} {vs : List Value} (hv : v.Writable) (cs : List Char) :
    Opens (writeItems (v :: vs) cs) := by
  cases vs with
  | nil => exact write_opens hv _
  | cons w vs => exact write_opens hv _

theorem Opens.length_pos {cs : List Char} (h : Opens cs) : 0 < cs.length := by
  obtain ⟨c, ds, rfl, -⟩ := h
  exact Nat.succ_pos _

theorem skipBlanks_opens {cs : List Char} (h : Opens cs) (off : Nat) :
    skipBlanks cs off = ⟨cs, off⟩ := by
  obtain ⟨c, ds, rfl, hc, -⟩ := h
  simp [skipBlanks, hc]

/-! ## Reading a value -/

theorem readValue_spelling {s : Spelling} (hs : s.Legal) {cs : List Char} (h : Stops cs)
    (fuel off : Nat) : ∃ stop k,
      readValue (fuel + 1) ⟨s.text ++ cs, off⟩ = (.number s.number stop, ⟨cs, k⟩) := by
  obtain ⟨k, hk⟩ := readNumber_text off hs h
  obtain ⟨c, ds, htext, hc⟩ := hs.text_eq_cons
  refine ⟨(⟨cs, k⟩ : Cursor).peeked, k, ?_⟩
  rw [htext, List.cons_append] at hk ⊢
  have hnone (d : Char) (hd : (d = '-' ∨ d.isDigit = true) → False) : c ≠ d := fun h => hd (h ▸ hc)
  have h1 := hnone '"' (by decide)
  have h2 := hnone '[' (by decide)
  have h3 := hnone '{' (by decide)
  have h4 := hnone 'n' (by decide)
  have h5 := hnone 't' (by decide)
  have h6 := hnone 'f' (by decide)
  rw [readValue.eq_def]
  simp [hc, hk]

theorem stops_comma (cs : List Char) : Stops (',' :: cs) := by
  rintro c ⟨⟩
  decide

theorem stops_bracket (cs : List Char) : Stops (']' :: cs) := by
  rintro c ⟨⟩
  decide

theorem stops_brace (cs : List Char) : Stops ('}' :: cs) := by
  rintro c ⟨⟩
  decide

def Finds (fuel : Nat) (v : Value) (cs : List Char) : Prop :=
  ∀ off, ∃ node k, readValue fuel ⟨v.write cs, off⟩ = (node, ⟨cs, k⟩) ∧ Reads node v

def FindsItems (fuel : Nat) (vs : List Value) (cs : List Char) : Prop :=
  ∀ off, ∃ items stop k, readItems fuel ⟨writeItems vs cs, off⟩ = (items, .closed stop, ⟨cs, k⟩) ∧
    ReadsItems items vs

def FindsEntries (fuel : Nat) (fs : List (String × Value)) (cs : List Char) : Prop :=
  ∀ off, ∃ entries stop k,
    readEntries fuel ⟨writeFields fs cs, off⟩ = (entries, .closed stop, ⟨cs, k⟩) ∧
      ReadsEntries entries fs

section
variable {fuel : Nat} {cs : List Char}

theorem finds_spelling {v : Value} {s : Spelling} (hs : s.Legal) (h : Stops cs)
    (hv : v.write cs = s.text ++ cs) (hn : ∀ stop, Reads (.number s.number stop) v) :
    Finds (fuel + 1) v cs := by
  intro off
  obtain ⟨stop, k, hk⟩ := readValue_spelling hs h fuel off
  exact ⟨_, k, by rw [hv]; exact hk, hn stop⟩

theorem finds_string (s : String) : Finds (fuel + 1) (.string s) cs := by
  intro off
  obtain ⟨k, hk⟩ := readChars_string s cs (off + 1)
  refine ⟨.string ⟨s, none, none⟩ k, k, ?_, .string s k⟩
  rw [Value.write, writeString, readValue.eq_def]
  simp only [hk]

theorem finds_array {vs : List Value} (hw : AllWritable vs)
    (h : vs ≠ [] → FindsItems fuel vs cs) : Finds (fuel + 1) (.array vs) cs := by
  intro off
  cases vs with
  | nil => exact ⟨_, _, rfl, .array _ _ .nil⟩
  | cons v vs =>
    obtain ⟨items, stop, k, hk, hitems⟩ := h (by simp) (off + 1)
    have hopens : Opens (writeItems (v :: vs) cs) := writeItems_opens hw.1 cs
    refine ⟨_, k, ?_, .array (off + 1) stop hitems⟩
    rw [Value.write, readValue.eq_def]
    simp only [skipBlanks_opens hopens]
    obtain ⟨c, ds, hc, -, hne, -⟩ := hopens
    rw [hc] at hk ⊢
    simp only [hk]
    split
    case h_1 heq => exact absurd (List.cons.inj heq).1 hne
    case h_2 heq => cases heq
    case h_3 => rfl

theorem writeFields_quote (f : String × Value) (fs : List (String × Value)) (cs : List Char) :
    ∃ ds, writeFields (f :: fs) cs = '"' :: ds := by
  obtain ⟨name, v⟩ := f
  cases fs with
  | nil => exact ⟨_, rfl⟩
  | cons g fs => exact ⟨_, rfl⟩

theorem finds_object {fs : List (String × Value)} (h : fs ≠ [] → FindsEntries fuel fs cs) :
    Finds (fuel + 1) (.object fs) cs := by
  intro off
  cases fs with
  | nil => exact ⟨_, _, rfl, .object _ _ .nil⟩
  | cons f fs =>
    obtain ⟨entries, stop, k, hk, hentries⟩ := h (by simp) (off + 1)
    obtain ⟨ds, hds⟩ := writeFields_quote f fs cs
    refine ⟨_, k, ?_, .object (off + 1) stop hentries⟩
    rw [Value.write, readValue.eq_def]
    rw [hds] at hk ⊢
    simp [skipBlanks, isBlank, hk, Cursor.peeked]

theorem finds_last {v : Value} (h : Finds fuel v (']' :: cs)) : FindsItems (fuel + 1) [v] cs := by
  intro off
  obtain ⟨node, k, hk, hnode⟩ := h off
  refine ⟨_, k + 1, k + 1, ?_, .cons (k + 1) (k + 1) hnode .nil⟩
  rw [writeItems, readItems.eq_def]
  simp [hk, hnode.cut?_eq, skipBlanks, isBlank, Cursor.peeked]

theorem finds_items {v w : Value} {vs : List Value} (hw : w.Writable)
    (h : Finds fuel v (',' :: writeItems (w :: vs) cs)) (hs : FindsItems fuel (w :: vs) cs) :
    FindsItems (fuel + 1) (v :: w :: vs) cs := by
  intro off
  obtain ⟨node, k, hk, hnode⟩ := h off
  obtain ⟨items, stop, l, hl, hitems⟩ := hs (k + 1)
  have hopens : Opens (writeItems (w :: vs) cs) := writeItems_opens hw cs
  refine ⟨_, stop, l, ?_, .cons (k + 1) (k + 2) hnode hitems⟩
  rw [writeItems_cons, readItems.eq_def]
  simp only [hk, hnode.cut?_eq]
  have hcomma : skipBlanks (',' :: writeItems (w :: vs) cs) k = ⟨',' :: writeItems (w :: vs) cs, k⟩ := rfl
  simp only [hcomma, skipBlanks_opens hopens]
  obtain ⟨c, ds, hc, -, hne, -⟩ := hopens
  rw [hc] at hl ⊢
  simp only [hl]
  split
  case h_1 heq => exact absurd (List.cons.inj heq).1 hne
  case h_2 heq => cases heq
  case h_3 => rfl

theorem skipBlanks_colon (ds : List Char) (off : Nat) :
    skipBlanks (':' :: ds) off = ⟨':' :: ds, off⟩ := rfl

theorem finds_lastField {name : String} {v : Value} (hv : v.Writable)
    (h : Finds fuel v ('}' :: cs)) : FindsEntries (fuel + 1) [(name, v)] cs := by
  intro off
  obtain ⟨j, hj⟩ := readChars_string name (':' :: v.write ('}' :: cs)) (off + 1)
  obtain ⟨node, k, hk, hnode⟩ := h (j + 1)
  refine ⟨_, k + 1, k + 1, ?_, .cons (':' :: v.write ('}' :: cs)) (off + 1) (j + 1) (k + 1) (k + 1)
    hnode .nil⟩
  rw [writeFields, writeField, writeString, readEntries.eq_def]
  simp only [hj, skipBlanks_colon, skipBlanks_opens (write_opens hv ('}' :: cs)), hk, hnode.cut?_eq]
  rfl

theorem finds_fields {name : String} {v : Value} {f : String × Value} {fs : List (String × Value)}
    (hv : v.Writable) (h : Finds fuel v (',' :: writeFields (f :: fs) cs))
    (hs : FindsEntries fuel (f :: fs) cs) : FindsEntries (fuel + 1) ((name, v) :: f :: fs) cs := by
  intro off
  obtain ⟨j, hj⟩ := readChars_string name (':' :: v.write (',' :: writeFields (f :: fs) cs)) (off + 1)
  obtain ⟨node, k, hk, hnode⟩ := h (j + 1)
  obtain ⟨entries, stop, l, hl, hentries⟩ := hs (k + 1)
  obtain ⟨ds, hds⟩ := writeFields_quote f fs cs
  refine ⟨_, stop, l, ?_, .cons (':' :: v.write (',' :: writeFields (f :: fs) cs)) (off + 1) (j + 1)
    (k + 1) (k + 2) hnode hentries⟩
  rw [writeFields_cons, writeField, writeString, readEntries.eq_def]
  simp only [hj, skipBlanks_colon, skipBlanks_opens (write_opens hv _), hk, hnode.cut?_eq]
  rw [hds] at hl ⊢
  have hcomma : skipBlanks (',' :: '"' :: ds) k = ⟨',' :: '"' :: ds, k⟩ := rfl
  have hquote : skipBlanks ('"' :: ds) (k + 1) = ⟨'"' :: ds, k + 1⟩ := rfl
  simp only [hcomma, hquote, hl]
  rfl

end

/-! ## Any depth -/

theorem write_length (v : Value) (cs : List Char) :
    (v.write cs).length = (v.write []).length + cs.length := by
  rw [write_eq, List.length_append]

theorem writeField_length (name : String) (v : Value) (cs : List Char) :
    (v.write []).length + cs.length + 2 ≤ (writeField (name, v) cs).length := by
  have h (ds rest : List Char) : rest.length < (writeChars ds rest).length := by
    induction ds with
    | nil => exact Nat.lt_succ_self _
    | cons d ds ih =>
      rw [writeChars, List.length_append]
      omega
  have := h name.toList (':' :: v.write cs)
  rw [List.length_cons, write_length] at this
  rw [writeField, writeString, List.length_cons]
  omega

mutual

/-- The length of its text is fuel enough for a value. -/
theorem readValue_write : ∀ (v : Value) (fuel : Nat) (cs : List Char), v.Writable → Stops cs →
    (v.write []).length ≤ fuel → Finds fuel v cs
  | v, 0, _, hv, _, hlength => absurd (write_opens hv []).length_pos (by omega)
  | .null, _ + 1, _, _, _, _ => fun off => ⟨_, _, rfl, .null _⟩
  | .bool true, _ + 1, _, _, _, _ => fun off => ⟨_, _, rfl, .bool _ _⟩
  | .bool false, _ + 1, _, _, _, _ => fun off => ⟨_, _, rfl, .bool _ _⟩
  | .int n, _ + 1, _, hv, hcs, _ => by
    obtain ⟨s, hs, htext, hn⟩ := int_spelling hv
    exact finds_spelling hs hcs (htext ▸ rfl) fun stop => hn ▸ .int n stop
  | .float x, _ + 1, _, hv, hcs, _ => by
    obtain ⟨s, hs, htext, hn⟩ := float_spelling hv
    exact finds_spelling hs hcs (htext ▸ rfl) fun stop => hn ▸ .float x stop
  | .string s, _ + 1, _, _, _, _ => finds_string s
  | .array vs, fuel + 1, cs, hv, _, hlength => by
    -- the bracket pays for the step down
    refine finds_array hv fun hne => readItems_write vs fuel cs hne hv ?_
    rw [Value.write, List.length_cons] at hlength
    omega
  | .object fs, fuel + 1, cs, hv, _, hlength => by
    refine finds_object fun hne => readEntries_write fs fuel cs hne hv ?_
    rw [Value.write, List.length_cons] at hlength
    omega

theorem readItems_write : ∀ (vs : List Value) (fuel : Nat) (cs : List Char), vs ≠ [] →
    AllWritable vs → (writeItems vs []).length ≤ fuel → FindsItems fuel vs cs
  | [], _, _, hne, _, _ => absurd rfl hne
  | v :: vs, 0, _, _, hv, hlength => by
    have : 0 < (writeItems (v :: vs) []).length := (writeItems_opens hv.1 []).length_pos
    omega
  | [v], fuel + 1, cs, _, hv, hlength => by
    rw [writeItems, write_length] at hlength
    exact finds_last (readValue_write v fuel _ hv.1 (stops_bracket cs) (Nat.le_of_succ_le_succ hlength))
  | v :: w :: vs, fuel + 1, cs, _, hv, hlength => by
    rw [writeItems_cons, write_length, List.length_cons] at hlength
    exact finds_items hv.2.1 (readValue_write v fuel _ hv.1 (stops_comma _) (by omega))
      (readItems_write (w :: vs) fuel cs (by simp) hv.2 (by omega))

theorem readEntries_write : ∀ (fs : List (String × Value)) (fuel : Nat) (cs : List Char), fs ≠ [] →
    FieldsWritable fs → (writeFields fs []).length ≤ fuel → FindsEntries fuel fs cs
  | [], _, _, hne, _, _ => absurd rfl hne
  | f :: fs, 0, _, _, _, hlength => by
    obtain ⟨ds, hds⟩ := writeFields_quote f fs []
    rw [hds] at hlength
    exact absurd hlength (Nat.not_succ_le_zero _)
  | [(name, v)], fuel + 1, cs, _, hv, hlength => by
    have := writeField_length name v ['}']
    rw [writeFields] at hlength
    exact finds_lastField hv.1 (readValue_write v fuel _ hv.1 (stops_brace cs) (by
      rw [List.length_singleton] at this
      omega))
  | (name, v) :: f :: fs, fuel + 1, cs, _, hv, hlength => by
    have := writeField_length name v (',' :: writeFields (f :: fs) [])
    rw [List.length_cons] at this
    rw [writeFields_cons] at hlength
    exact finds_fields hv.1 (readValue_write v fuel _ hv.1 (stops_comma _) (by omega))
      (readEntries_write (f :: fs) fuel cs (by simp) hv.2 (by omega))

end

/-- A text that was written is read as the value it was written for. -/
theorem read_text {v : Value} (hv : v.Writable) :
    Reads (read v.text).root v ∧ (read v.text).rest = none := by
  have hopens := write_opens hv []
  have hlength : (v.write []).length ≤ (v.write []).length + 1 := Nat.le_succ _
  obtain ⟨node, k, hk, hnode⟩ :=
    readValue_write v _ [] hv (fun _ hc => by cases hc) hlength 0
  have htext : v.text.toList = v.write [] := String.toList_ofList
  simp only [read, htext, skipBlanks_opens hopens, hk]
  exact ⟨hnode, rfl⟩

end Biotope.Json
