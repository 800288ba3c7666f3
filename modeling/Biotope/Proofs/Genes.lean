import Biotope.Gene.Codec
import Biotope.Proofs.Documents

/-!
# Genes through JSON

A gene that has been written is read back, at any depth and down to the last bit of its
probabilities. Inside another gene it is read from a value, on its own from a node.
-/

namespace Biotope

open Json (Value Node Reads ReadsItems ReadsEntries DataError Decoded)

theorem Probability.ofFloat?_value (p : Probability) : ofFloat? p.value = some p :=
  dif_pos p.inUnit

namespace Gene

def operandFields : Gene → List (String × Value)
  | branch p left right =>
    [("probability", .float p.value), ("left", slotToJson left), ("right", slotToJson right)]
  | chop p | copy p | mutate p => [("probability", .float p.value)]
  | get template => [("template", slotToJson template)]
  | merge | put => []
  | sequence genes => [("genes", .array (allToJson genes))]

theorem toJson_eq (g : Gene) :
    g.toJson = .object (("geneType", .string g.opcode.name) :: g.operandFields) := by
  cases g <;> rfl

mutual

theorem toJson_writable : ∀ g : Gene, g.toJson.Writable
  | branch p left right => by
    have hp := Decimal.isFinite_of_inUnit p.inUnit
    exact ⟨trivial, hp, slotToJson_writable left, slotToJson_writable right, trivial⟩
  | chop p | copy p | mutate p => ⟨trivial, Decimal.isFinite_of_inUnit p.inUnit, trivial⟩
  | get template => ⟨trivial, slotToJson_writable template, trivial⟩
  | merge | put => ⟨trivial, trivial⟩
  | sequence genes => ⟨trivial, allToJson_writable genes, trivial⟩

theorem slotToJson_writable : ∀ s : Option Gene, (slotToJson s).Writable
  | none => trivial
  | some g => toJson_writable g

theorem allToJson_writable : ∀ gs : List Gene, Json.AllWritable (allToJson gs)
  | [] => trivial
  | g :: gs => ⟨toJson_writable g, allToJson_writable gs⟩

end

/-! ## Genes inside others -/

theorem opcodeNamed_name (o : Opcode) : opcodeNamed o.name = .ok o := by
  cases o <;> rfl

theorem innerTag_name (o : Opcode) : innerTag (.string o.name) = .ok o := opcodeNamed_name o

theorem tagOf_operandFields (g : Gene) (o : Opcode) :
    tagOf (some o) g.operandFields = .ok o := by
  cases g <;> rfl

theorem tagOf_fields (g : Gene) :
    tagOf none (("geneType", .string g.opcode.name) :: g.operandFields) = .ok g.opcode := by
  simp only [tagOf, if_true, innerTag_name]
  exact tagOf_operandFields g g.opcode

theorem ofFields_tag (o : Opcode) (v : Value) (fs : List (String × Value)) (p : Parts) :
    ofFields o (("geneType", v) :: fs) p = ofFields o fs p := by
  have h : (operands o).contains "geneType" = false := by cases o <;> rfl
  simp only [ofFields, ofField, h]
  rfl

theorem probabilityOf_value (p : Probability) : probabilityOf (.float p.value) = .ok p := by
  simp only [probabilityOf, bind, Except.bind, Probability.ofFloat?_value]
  rfl

theorem slotOfJson_toJson {g : Gene}
    (h : (do (← ofFields g.opcode g.operandFields {}).assemble g.opcode) = Except.ok g) :
    slotOfJson g.toJson = .ok (some g) := by
  rw [toJson_eq]
  simp only [slotOfJson, tagOf_fields, bind, Except.bind, ofFields_tag]
  cases hp : ofFields g.opcode g.operandFields {} with
  | error e =>
    rw [hp] at h
    cases h
  | ok p =>
    rw [hp] at h
    have h : p.assemble g.opcode = .ok g := h
    simp only [h]
    rfl

mutual

theorem assemble_operandFields : ∀ g : Gene,
    (do (← ofFields g.opcode g.operandFields {}).assemble g.opcode) = Except.ok g
  | branch p left right => by
    simp [opcode, operandFields, ofFields, ofField, operands, Parts.has, operand, bind, Except.bind,
      pure, Except.pure, probabilityOf_value, slotOfJson_slotToJson left, slotOfJson_slotToJson right]
    rfl
  | chop p | copy p | mutate p => by
    simp [opcode, operandFields, ofFields, ofField, operands, Parts.has, operand, bind, Except.bind,
      pure, Except.pure, probabilityOf_value]
    rfl
  | get template => by
    simp [opcode, operandFields, ofFields, ofField, operands, Parts.has, operand, bind, Except.bind,
      pure, Except.pure, slotOfJson_slotToJson template]
    rfl
  | merge | put => rfl
  | sequence genes => by
    simp [opcode, operandFields, ofFields, ofField, operands, Parts.has, operand, bind, Except.bind,
      pure, Except.pure, itemsOfJson, allOfJson_allToJson genes]
    rfl

theorem slotOfJson_slotToJson : ∀ s : Option Gene, slotOfJson (slotToJson s) = .ok s
  | none => rfl
  | some g => slotOfJson_toJson (assemble_operandFields g)

theorem allOfJson_allToJson : ∀ gs : List Gene, allOfJson (allToJson gs) = .ok gs
  | [] => rfl
  | g :: gs => by
    simp only [allToJson, allOfJson, slotOfJson_toJson (assemble_operandFields g),
      allOfJson_allToJson gs, bind, Except.bind]
    rfl

end

/-! ## Genes on their own -/

theorem splitTag_fields (tag : Option Opcode) {entries : List (Json.Entry Node)}
    {fs : List (String × Value)} (h : ReadsEntries entries fs) (hfs : ∀ f ∈ fs, f.1 ≠ "geneType") :
    splitTag tag entries = .ok (tag, fs) := by
  induction fs generalizing entries with
  | nil =>
    cases h
    rfl
  | cons f fs ih =>
    cases h with
    | cons rest off colon follow next hnode hrest =>
      have hname := hfs _ List.mem_cons_self
      have hrest := ih hrest fun f hf => hfs f (List.mem_cons_of_mem _ hf)
      simp only [splitTag, Json.StringToken.flaw?, Option.or_none, Json.sound, if_neg hname,
        hnode.flaw?_eq, hrest, hnode.value_eq, bind, Except.bind]
      rfl

theorem operandFields_untagged (g : Gene) : ∀ f ∈ g.operandFields, f.1 ≠ "geneType" := by
  cases g <;> simp [operandFields]

theorem decodeTag_name {node : Node} {o : Opcode} (h : Reads node (.string o.name)) :
    decodeTag node = .ok o := by
  cases h
  simp only [decodeTag, Json.StringToken.flaw?, Option.or_none, Json.sound, opcodeNamed_name, bind,
    Except.bind]
  rfl

theorem splitTag_toJson {g : Gene} {entries : List (Json.Entry Node)}
    (h : ReadsEntries entries (("geneType", .string g.opcode.name) :: g.operandFields)) :
    splitTag none entries = .ok (some g.opcode, g.operandFields) := by
  cases h with
  | cons rest off colon follow next htag hrest =>
    simp only [splitTag, Json.StringToken.flaw?, Option.or_none, Json.sound, if_true,
      decodeTag_name htag, bind, Except.bind]
    exact splitTag_fields (some g.opcode) hrest g.operandFields_untagged

theorem decode_toJson {node : Node} {g : Gene} (h : Reads node g.toJson) : decode node = .ok g := by
  have hassemble := assemble_operandFields g
  rw [toJson_eq] at h
  cases h with
  | object start stop h =>
    simp only [decode, splitTag_toJson h, bind, Except.bind] at hassemble ⊢
    simp only [Json.sound, Json.Ending.flawWith?, Json.required, Json.locating, Except.mapError, hassemble]

end Gene

end Biotope
