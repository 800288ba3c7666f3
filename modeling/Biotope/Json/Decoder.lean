import Biotope.Json.Reader
import Biotope.Probability
import Biotope.Text.Quoted

/-!
# Decoding JSON

Decoders turn nodes into values of the library. They meet the parts of a node in the
order of the text, so of two errors the earlier wins. Errors are causes; their wording
is in `DataError.message` and `FlawKind.message`.
-/

namespace Biotope.Json

inductive Found where
  | null
  | bool (b : Bool)
  | integer (n : Int)
  | float (x : Float)
  | string (s : String)
  | list
  | object

def Found.text : Found → String
  | null => "null"
  | bool b => "boolean `" ++ (if b then "true" else "false") ++ "`"
  | integer n => "integer `" ++ toString n ++ "`"
  | float x => "floating point `" ++ Decimal.inJson.write x ++ "`"
  | string s => "string " ++ Text.quoted s
  | list => "sequence"
  | object => "map"

inductive DataError where
  | missingField (name : String)
  | duplicateField (name : String)
  | unknownVariant (name : String) (known : List String)
  | wrongType (found : Found) (expected : String)
  | wrongValue (found : Found) (expected : String)
  | wrongLength (length : Nat) (expected : String)
  | outOfUnit (x : Float)
  /-- A text with a grammar of its own that does not fit it. -/
  | malformed (reason : String)

def alternatives : List String → String
  | [] => "there are no variants"
  | [a] => "expected `" ++ a ++ "`"
  | [a, b] => "expected `" ++ a ++ "` or `" ++ b ++ "`"
  | names => "expected one of " ++ ", ".intercalate (names.map fun n => "`" ++ n ++ "`")

def outOfUnitText (x : Float) : String :=
  "Probability out of range [0, 1]: " ++ Decimal.plain.write x

def DataError.message : DataError → String
  | missingField name => "missing field `" ++ name ++ "`"
  | duplicateField name => "duplicate field `" ++ name ++ "`"
  | unknownVariant name known => "unknown variant `" ++ name ++ "`, " ++ alternatives known
  | wrongType found expected => "invalid type: " ++ found.text ++ ", expected " ++ expected
  | wrongValue found expected => "invalid value: " ++ found.text ++ ", expected " ++ expected
  | wrongLength length expected =>
    "invalid length " ++ toString length ++ ", expected " ++ expected
  | outOfUnit x => outOfUnitText x
  | malformed reason => reason

inductive Error where
  | unreadable (flaw : Flaw)
  /-- The offset is missing until a container has seen the error. -/
  | data (cause : DataError) (offset : Option Nat)

namespace Error

def located (offset : Nat) : Error → Error
  | data cause none => data cause (some offset)
  | e => e

def message : Error → String
  | .unreadable flaw => flaw.kind.message
  | .data cause _ => cause.message

def offset? : Error → Option Nat
  | .unreadable flaw => some flaw.offset
  | .data _ offset => offset

end Error

/-- Line and column after the given number of bytes; columns count bytes. -/
def position (text : String) (offset : Nat) : Nat × Nat :=
  let step := fun ((left, line, column) : Nat × Nat × Nat) (c : Char) =>
    if left = 0 then (left, line, column)
    else if c = '\n' then (left - 1, line + 1, 0)
    else
      let n := min left c.utf8Size
      (left - n, line, column + n)
  let (_, line, column) := text.toList.foldl step (offset, 1, 0)
  (line, column)

def Error.placed (text : String) (e : Error) : String :=
  match e.offset? with
  | none => e.message
  | some offset =>
    let (line, column) := position text offset
    e.message ++ " at line " ++ toString line ++ " column " ++ toString column

abbrev Decoded := Except Error

def fail {α} (cause : DataError) : Decoded α := .error (.data cause none)

def sound (flaw : Option Flaw) : Decoded Unit :=
  match flaw with
  | none => .ok ()
  | some f => .error (.unreadable f)

/-- Locates the error of a decoder. -/
def locating {α} (offset : Nat) (d : Decoded α) : Decoded α := d.mapError (·.located offset)

/-! ## Scalars -/

def Number.found : Number → Found
  | natural n => .integer n
  | negative n => .integer (-n)
  | float x => .float x
  | tooLarge => .null

/-- Complains about a node of the wrong type. Nothing inside a container is looked at. -/
def wrongType {α} (expected : String) : Node → Decoded α
  | .null stop => locating stop (fail (.wrongType .null expected))
  | .bool b stop => locating stop (fail (.wrongType (.bool b) expected))
  | .number .tooLarge stop => .error (.unreadable ⟨.numberOutOfRange, stop⟩)
  | .number n stop => locating stop (fail (.wrongType n.found expected))
  | .string s stop => do
    sound s.flaw?
    locating stop (fail (.wrongType (.string s.text) expected))
  | .list start _ _ => locating start (fail (.wrongType .list expected))
  | .object start _ _ => locating start (fail (.wrongType .object expected))
  | .broken flaw _ | .missing flaw => .error (.unreadable flaw)

def Number.toInt (least greatest : Int) (expected : String) : Number → Decoded Int
  | natural n =>
    if n ≤ greatest then .ok n else fail (.wrongValue (.integer n) expected)
  | negative n =>
    if least ≤ -(n : Int) then .ok (-n) else fail (.wrongValue (.integer (-n)) expected)
  | n => fail (.wrongType n.found expected)

def decodeInt (least greatest : Int) (expected : String) : Node → Decoded Int
  | .number .tooLarge stop => .error (.unreadable ⟨.numberOutOfRange, stop⟩)
  | .number n stop => locating stop (n.toInt least greatest expected)
  | node => wrongType expected node

def decodeU32 (node : Node) : Decoded UInt32 := do
  return (← decodeInt 0 (UInt32.size - 1) "u32" node).toNat.toUInt32

def decodeU64 (expected : String) (node : Node) : Decoded UInt64 := do
  return (← decodeInt 0 (UInt64.size - 1) expected node).toNat.toUInt64

def decodeI64 (node : Node) : Decoded Int64 := do
  return .ofInt (← decodeInt Int64.minValue.toInt Int64.maxValue.toInt "i64" node)

def Number.toFloat : Number → Float
  | natural n => (⟨n, 0⟩ : Decimal).toFloat false
  | negative n => (⟨n, 0⟩ : Decimal).toFloat true
  | float x => x
  | tooLarge => Decimal.floatOf false Decimal.infinityBits

def decodeFloat : Node → Decoded Float
  | .number .tooLarge stop => .error (.unreadable ⟨.numberOutOfRange, stop⟩)
  | .number n _ => .ok n.toFloat
  | node => wrongType "f64" node

def decodeBool : Node → Decoded Bool
  | .bool b _ => .ok b
  | node => wrongType "a boolean" node

def decodeString (expected : String) : Node → Decoded String
  | .string s _ => do
    sound s.flaw?
    return s.text
  | node => wrongType expected node

/-- `null` for nothing. -/
def decodeOption {α} (decode : Node → Decoded α) : Node → Decoded (Option α)
  | .null _ => .ok none
  | node => do return some (← decode node)

def decodeProbability (node : Node) : Decoded Probability := do
  let x ← decodeFloat node
  match Probability.ofFloat? x with
  | some p => return p
  | none => fail (.outOfUnit x)

/-! ## Lists -/

def decodeItems {α} (decode : Node → Decoded α) : List (Item Node) → Decoded (List α)
  | [] => .ok []
  | i :: is => do
    let a ← locating i.next (decode i.node)
    return a :: (← decodeItems decode is)

def decodeList {α} (decode : Node → Decoded α) : Node → Decoded (List α)
  | .list _ items ending => do
    let as ← decodeItems decode items
    sound (ending.flawWith? Breach.inList)
    return as
  | node => wrongType "a sequence" node

/-! ## Records -/

/-- The form of a record: an object of named fields, or the list of their values. -/
structure Form where
  name : String
  fields : List String
  /-- Whether a list may be too short. -/
  lenient : Bool

/-- Decodes the fields of an object. Unknown fields are skipped. -/
def decodeEntries {σ} (fields : List String) (field : String → Node → σ → Decoded σ) :
    List (Entry Node) → List String → σ → Decoded (List String × σ)
  | [], seen, acc => .ok (seen, acc)
  | e :: es, seen, acc => do
    sound e.name.flaw?
    let name := e.name.text
    if fields.contains name then
      if seen.contains name then locating e.colon (fail (.duplicateField name))
      let acc ← locating e.follow (field name e.node acc)
      decodeEntries fields field es (name :: seen) acc
    else
      sound e.node.skipFlaw?
      decodeEntries fields field es seen acc

/-- Decodes the values of the fields in their order. `behind` is where the value before the
next one ends, and `n` counts those before it. -/
def decodeValues {σ} (form : Form) (field : String → Node → σ → Decoded σ)
    (ending : Ending) : List String → List (Item Node) → (behind n : Nat) → σ → Decoded σ
  | [], [], _, _, acc => do
    sound (ending.flawWith? Breach.inFullList)
    return acc
  | [], _ :: _, behind, _, _ => .error (.unreadable ⟨.trailingCharacters, behind⟩)
  | _ :: names, [], behind, n, acc => do
    sound (ending.flawWith? Breach.inList)
    if form.lenient then decodeValues form field ending names [] behind n acc
    else
      locating ending.stop (fail (.wrongLength n
        ("struct " ++ form.name ++ " with " ++ toString form.fields.length ++ " elements")))
  | name :: names, i :: is, _, n, acc => do
    let acc ← locating i.next (field name i.node acc)
    decodeValues form field ending names is i.next (n + 1) acc

/-- Decodes a record into an accumulator, which `finish` turns into the result. -/
def decodeRecord {σ α} (form : Form) (field : String → Node → σ → Decoded σ) (start : σ)
    (finish : σ → Except DataError α) : Node → Decoded α
  | .object _ entries ending => do
    let (_, acc) ← decodeEntries form.fields field entries [] start
    sound (ending.flawWith? Breach.inObject)
    locating ending.stop ((finish acc).mapError fun cause => .data cause none)
  | .list _ items ending => do
    let acc ← decodeValues form field ending form.fields items 0 0 start
    (finish acc).mapError fun cause => .data cause none
  | node => wrongType ("struct " ++ form.name) node

def required {α} (name : String) : Option α → Except DataError α
  | some a => .ok a
  | none => .error (.missingField name)

/-! ## Texts -/

/-- Decodes a whole text; nothing but blanks may follow the value. -/
def decode {α} (d : Node → Decoded α) (text : String) : Decoded α := do
  let document := read text
  let a ← d document.root
  sound document.rest
  return a

end Biotope.Json
