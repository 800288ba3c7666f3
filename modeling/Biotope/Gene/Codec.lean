import Biotope.Gene.Shape
import Biotope.Json.Decoder

/-!
# Genes in JSON

A gene is an object tagged by its opcode, or a list that starts with the tag. The tag
may stand anywhere in the object, unknown fields are skipped, and absent children are
none. A gene inside another may give the index of its opcode for a tag.
-/

namespace Biotope.Gene

open Json (Value DataError Found Decoded Node)

/-! ## Writing -/

mutual

def toJson : Gene → Value
  | branch p left right => .object [("geneType", .string "Branch"), ("probability", .float p.value),
      ("left", slotToJson left), ("right", slotToJson right)]
  | chop p => .object [("geneType", .string "Chop"), ("probability", .float p.value)]
  | copy p => .object [("geneType", .string "Copy"), ("probability", .float p.value)]
  | get template => .object [("geneType", .string "Get"), ("template", slotToJson template)]
  | merge => .object [("geneType", .string "Merge")]
  | mutate p => .object [("geneType", .string "Mutate"), ("probability", .float p.value)]
  | put => .object [("geneType", .string "Put")]
  | sequence genes =>
    .object [("geneType", .string "Sequence"), ("genes", .array (allToJson genes))]

def slotToJson : Option Gene → Value
  | none => .null
  | some g => toJson g

def allToJson : List Gene → List Value
  | [] => []
  | g :: gs => toJson g :: allToJson gs

end

/-! ## Reading -/

def expected : String := "internally tagged enum Gene"

def found : Value → Found
  | .null => .null
  | .bool b => .bool b
  | .int n => .integer n
  | .float x => .float x
  | .string s => .string s
  | .array _ => .list
  | .object _ => .object

def opcodeNamed (name : String) : Except DataError Opcode :=
  match Opcode.ofName? name with
  | some o => .ok o
  | none => .error (.unknownVariant name (Opcode.all.map Opcode.name))

def innerTag : Value → Except DataError Opcode
  | .string name => opcodeNamed name
  | .int n =>
    if 0 ≤ n then
      match Opcode.all[n.toNat]? with
      | some o => .ok o
      | none => .error (.wrongValue (.integer n) "variant index 0 <= i < 8")
    else .error (.wrongType (.integer n) "variant identifier")
  | v => .error (.wrongType (found v) "variant identifier")

/-- The tag of an object; a second one is an error. -/
def tagOf (tag : Option Opcode) : List (String × Value) → Except DataError Opcode
  | [] => Json.required "geneType" tag
  | (name, v) :: fields =>
    if name = "geneType" then
      match tag with
      | some _ => .error (.duplicateField name)
      | none => do tagOf (some (← innerTag v)) fields
    else tagOf tag fields

def operands : Opcode → List String
  | .branch => ["probability", "left", "right"]
  | .chop | .copy | .mutate => ["probability"]
  | .get => ["template"]
  | .merge | .put => []
  | .sequence => ["genes"]

structure Parts where
  probability : Option Probability := none
  left : Option (Option Gene) := none
  right : Option (Option Gene) := none
  template : Option (Option Gene) := none
  genes : Option (List Gene) := none

def Parts.has (p : Parts) : String → Bool
  | "probability" => p.probability.isSome
  | "left" => p.left.isSome
  | "right" => p.right.isSome
  | "template" => p.template.isSome
  | "genes" => p.genes.isSome
  | _ => false

def Parts.assemble (p : Parts) : Opcode → Except DataError Gene
  | .branch => do
    return .branch (← Json.required "probability" p.probability) p.left.join p.right.join
  | .chop => return .chop (← Json.required "probability" p.probability)
  | .copy => return .copy (← Json.required "probability" p.probability)
  | .get => .ok (.get p.template.join)
  | .merge => .ok .merge
  | .mutate => return .mutate (← Json.required "probability" p.probability)
  | .put => .ok .put
  | .sequence => return .sequence (← Json.required "genes" p.genes)

def probabilityOf (v : Value) : Except DataError Probability := do
  let x ← match v with
    | .int n => .ok ((⟨n.natAbs, 0⟩ : Decimal).toFloat (decide (n < 0)))
    | .float x => .ok x
    | v => .error (.wrongType (found v) "f64")
  match Probability.ofFloat? x with
  | some p => return p
  | none => .error (.outOfUnit x)

def plural (n : Nat) : String := toString n ++ if n = 1 then " element" else " elements"

/-- Reads an operand of the given name. The last two say what the value is as a child and
as a list of items. -/
def operand (name : String) (v : Value) (parts : Parts)
    (slot : Unit → Except DataError (Option Gene)) (items : Unit → Except DataError (List Gene)) :
    Except DataError Parts :=
  match name with
  | "probability" => do return { parts with probability := some (← probabilityOf v) }
  | "left" => do return { parts with left := some (← slot ()) }
  | "right" => do return { parts with right := some (← slot ()) }
  | "template" => do return { parts with template := some (← slot ()) }
  | "genes" => do return { parts with genes := some (← items ()) }
  | _ => .ok parts

mutual

/-- A child: `null` for none. -/
def slotOfJson : Value → Except DataError (Option Gene)
  | .null => .ok none
  | .object fields => do
    let o ← tagOf none fields
    let parts ← ofFields o fields {}
    return some (← parts.assemble o)
  | .array [] => .error (.missingField "geneType")
  | .array (tag :: values) => do
    let o ← innerTag tag
    let parts ← ofValues o (operands o) values 0 {}
    return some (← parts.assemble o)
  | v => .error (.wrongType (found v) expected)

def ofFields (o : Opcode) : List (String × Value) → Parts → Except DataError Parts
  | [], parts => .ok parts
  | f :: fields, parts => do ofFields o fields (← ofField o f parts)

def ofField (o : Opcode) : String × Value → Parts → Except DataError Parts
  | (name, v), parts =>
    if (operands o).contains name then
      if parts.has name then .error (.duplicateField name)
      else operand name v parts (fun _ => slotOfJson v) (fun _ => itemsOfJson v)
    else .ok parts

/-- The operands as they stand in a list behind the tag. -/
def ofValues (o : Opcode) : List String → List Value → Nat → Parts → Except DataError Parts
  | [], [], _, parts => .ok parts
  | [], _ :: values, n, _ =>
    .error (.wrongLength (n + values.length + 1) (plural n ++ " in sequence"))
  | _ :: _, [], n, _ =>
    .error (.wrongLength n ("struct variant Gene::" ++ o.name ++ " with " ++
      plural (operands o).length))
  | name :: names, v :: values, n, parts => do
    ofValues o names values (n + 1)
      (← operand name v parts (fun _ => slotOfJson v) (fun _ => itemsOfJson v))

def itemsOfJson : Value → Except DataError (List Gene)
  | .array values => allOfJson values
  | v => .error (.wrongType (found v) "a sequence")

def allOfJson : List Value → Except DataError (List Gene)
  | [] => .ok []
  | v :: values => do
    let g ← slotOfJson v
    match g with
    | none => .error (.wrongType .null expected)
    | some g => return g :: (← allOfJson values)

end

def ofJson (v : Value) : Except DataError Gene := do
  match ← slotOfJson v with
  | none => .error (.wrongType .null expected)
  | some g => return g

/-! ## Decoding -/

def decodeTag (node : Node) : Decoded Opcode := do
  match node with
  | .string s stop =>
    Json.sound s.flaw?
    Json.locating stop ((opcodeNamed s.text).mapError fun cause => .data cause none)
  | node => Json.wrongType "variant identifier" node

/-- Splits the fields of an object into the tag and the rest. -/
def splitTag (tag : Option Opcode) :
    List (Json.Entry Node) → Decoded (Option Opcode × List (String × Value))
  | [] => .ok (tag, [])
  | e :: es => do
    Json.sound e.name.flaw?
    if e.name.text = "geneType" then
      if tag.isSome then Json.locating e.colon (Json.fail (.duplicateField "geneType"))
      let o ← Json.locating e.follow (decodeTag e.node)
      splitTag (some o) es
    else
      Json.sound e.node.flaw?
      let (tag, fields) ← splitTag tag es
      return (tag, (e.name.text, e.node.value) :: fields)

def plainItems : List (Json.Item Node) → Decoded (List Value)
  | [] => .ok []
  | i :: is => do
    Json.sound i.node.flaw?
    return i.node.value :: (← plainItems is)

def decode (node : Node) : Decoded Gene := do
  let plain {α} (e : Except DataError α) : Decoded α := e.mapError fun cause => .data cause none
  match node with
  | .object _ entries ending =>
    let (tag, fields) ← splitTag none entries
    Json.sound (ending.flawWith? Json.Breach.inObject)
    let o ← Json.locating ending.stop (plain (Json.required "geneType" tag))
    plain (do (← ofFields o fields {}).assemble o)
  | .list _ items ending =>
    match items with
    | [] =>
      Json.sound (ending.flawWith? Json.Breach.inList)
      Json.locating ending.stop (Json.fail (.missingField "geneType"))
    | tag :: items =>
      let o ← Json.locating tag.next (decodeTag tag.node)
      let values ← plainItems items
      Json.sound (ending.flawWith? Json.Breach.inList)
      plain (do (← ofValues o (operands o) values 0 {}).assemble o)
  | node => Json.wrongType expected node

def text (g : Gene) : String := g.toJson.text

end Biotope.Gene
