import Biotope.Settings.Codec
import Biotope.Settings.Source

/-!
# Settings from layers

Values are converted to what a field holds: words and texts to numbers, numbers to
booleans, and so on. Absent fields keep their defaults and unknown ones are skipped. An
error says at which key it was noticed.
-/

namespace Biotope

abbrev Conversion := Except SourceError

namespace Layer

/-! ## Errors -/

/-- Puts a part in front of a key, with a point unless an index follows. -/
def joinKey (part key : String) : String :=
  match key.toList with
  | [] | '[' :: _ => part ++ key
  | _ => part ++ "." ++ key

def atKey {α} (part : String) (c : Conversion α) : Conversion α :=
  c.mapError fun
    | .mismatch found expected key origin => .mismatch found expected (joinKey part key) origin
    | .unusable reason key => .unusable reason (joinKey part key)
    | e => e

def atIndex {α} (i : Nat) (c : Conversion α) : Conversion α :=
  c.mapError fun
    | .mismatch found expected key origin =>
      .mismatch found expected ("[" ++ toString i ++ "]" ++ key) origin
    | .unusable reason key => .unusable reason ("[" ++ toString i ++ "]" ++ key)
    | e => e

def origin : Layer → Option String
  | .scalar _ o | .list _ o | .table _ o => o

def mismatch {α} (l : Layer) (expected : String) : Conversion α :=
  let found := match l with
    | .scalar (.text s) _ => "string " ++ Text.quoted s
    | .scalar (.int n) _ => "64-bit integer `" ++ toString n ++ "`"
    | .scalar (.bool b) _ => "boolean `" ++ (if b then "true" else "false") ++ "`"
    | .scalar (.float x) _ => "floating point `" ++ Decimal.plain.write x ++ "`"
    | .scalar .absent _ => "unit value"
    | .list .. => "sequence"
    | .table .. => "map"
  .error (.mismatch found expected "" l.origin)

def alwaysPointed : Decimal.Layout := ⟨none, none, true, "NaN", "inf"⟩

def unusable {α} (l : Layer) (expected : String) : Conversion α :=
  let found := match l with
    | .scalar (.text s) _ => "string " ++ Text.quoted s
    | .scalar (.int n) _ => "integer `" ++ toString n ++ "`"
    | .scalar (.bool b) _ => "boolean `" ++ (if b then "true" else "false") ++ "`"
    | .scalar (.float x) _ => "floating point `" ++ alwaysPointed.write x ++ "`"
    | .scalar .absent _ => "unit value"
    | .list .. => "sequence"
    | .table .. => "map"
  .error (.unusable ("invalid type: " ++ found ++ ", expected " ++ expected) "")

/-! ## Scalars -/

def word? (s : String) : Option Bool :=
  let lower := Text.lower s
  if ["true", "on", "yes"].contains lower then some true
  else if ["false", "off", "no"].contains lower then some false
  else none

/-- The nearest 64-bit natural number, a half going up; zero for a NaN. -/
def nearestNat (x : Float) : Nat :=
  let (n, d) := (Decimal.Dyadic.ofBits (Decimal.magnitudeBits x)).ratio
  if Decimal.signBit x then 0
  else if Decimal.isFinite x then min ((2 * n + d) / (2 * d)) (UInt64.size - 1)
  else if Decimal.isInfinite x then UInt64.size - 1
  else 0

def toNatural (l : Layer) : Conversion UInt64 :=
  match l with
  | .scalar (.int n) _ =>
    if 0 ≤ n then .ok n.toNat.toUInt64 else l.mismatch "an unsigned 64 bit or less integer"
  | .scalar (.bool b) _ => .ok (if b then 1 else 0)
  | .scalar (.float x) _ => .ok (nearestNat x).toUInt64
  | .scalar (.text s) _ =>
    match word? s, (Decimal.nat? s).filter (· < UInt64.size) with
    | some b, _ => .ok (if b then 1 else 0)
    | none, some n => .ok n.toUInt64
    | none, none => l.mismatch "an integer"
  | _ => l.mismatch "an integer"

def toFloat (l : Layer) : Conversion Float :=
  match l with
  | .scalar (.int n) _ => .ok ((⟨n.natAbs, 0⟩ : Decimal).toFloat (decide (n < 0)))
  | .scalar (.bool b) _ => .ok (if b then 1.0 else 0.0)
  | .scalar (.float x) _ => .ok x
  | .scalar (.text s) _ =>
    match word? s, Decimal.float? s with
    | some b, _ => .ok (if b then 1.0 else 0.0)
    | none, some x => .ok x
    | none, none => l.mismatch "a floating point"
  | _ => l.mismatch "a floating point"

def toBool (l : Layer) : Conversion Bool :=
  match l with
  | .scalar (.int n) _ => .ok (n != 0)
  | .scalar (.bool b) _ => .ok b
  | .scalar (.float x) _ => .ok (x != 0.0)
  | .scalar (.text s) o =>
    match word? s with
    | some b => .ok b
    | none =>
      if s = "1" then .ok true
      else if s = "0" then .ok false
      else mismatch (.scalar (.text (Text.lower s)) o) "a boolean"
  | _ => l.mismatch "a boolean"

def toText (l : Layer) : Conversion String :=
  match l with
  | .scalar (.int n) _ => .ok (toString n)
  | .scalar (.bool b) _ => .ok (if b then "true" else "false")
  | .scalar (.float x) _ => .ok (Decimal.plain.write x)
  | .scalar (.text s) _ => .ok s
  | _ => l.mismatch "a string"

def toOption {α} (convert : Layer → Conversion α) (l : Layer) : Conversion (Option α) :=
  if l.isBlank then .ok none else some <$> convert l

def toItems {α} (convert : Layer → Conversion α) : Nat → List Layer → Conversion (List α)
  | _, [] => .ok []
  | i, l :: ls => do
    let a ← atIndex i (convert l)
    return a :: (← toItems convert (i + 1) ls)

def toList {α} (convert : Layer → Conversion α) (l : Layer) : Conversion (List α) :=
  match l with
  | .list items _ => toItems convert 0 items
  | l => l.unusable "a sequence"

/-- A policy by name, the name being a text or the only key of a table. -/
def toPolicy (l : Layer) : Conversion GetPolicy :=
  let named (name : String) : Conversion GetPolicy :=
    match GetPolicy.all.find? (·.name == name) with
    | some p => .ok p
    | none =>
      .error (.unusable ("enum GetPolicy does not have variant constructor " ++ name) "")
  match l with
  | .scalar (.text s) _ => named s
  | .table [e] _ => named e.1
  | _ =>
    .error (.unusable ("value of enum GetPolicy should be represented by either string or " ++
      "table with exactly one key") "")

/-! ## Records -/

def toFields {σ} (field : String → Layer → σ → Conversion σ) (es : List (String × Layer)) :
    List String → σ → Conversion σ
  | [], acc => .ok acc
  | name :: names, acc =>
    match lookup? name es with
    | some l => do toFields field es names (← atKey name (field name l acc))
    | none => toFields field es names acc

/-- Converts values in the order of the fields. More values than fields do no harm. -/
def toValues {σ} (field : String → Layer → σ → Conversion σ) :
    List String → List Layer → Nat → σ → Conversion σ
  | name :: names, l :: ls, i, acc => do
    toValues field names ls (i + 1) (← atIndex i (field name l acc))
  | _, _, _, acc => .ok acc

def toRecord {σ} (form : Json.Form) (field : String → Layer → σ → Conversion σ) (start : σ)
    (l : Layer) : Conversion σ :=
  match l with
  | .table es _ => toFields field es form.fields start
  | .list items _ => toValues field form.fields items 0 start
  | l => l.unusable ("struct " ++ form.name)

end Layer

/-! ## Sections -/

def PoolSettings.convert (name : String) (l : Layer) (s : PoolSettings) :
    Conversion PoolSettings :=
  match name with
  | "initial_creatures" => do return { s with initialCreatures := ← l.toNatural }
  | "relative_complexity" => do return { s with relativeComplexity := ← l.toFloat }
  | "maximum_depth" => do return { s with maximumDepth := ← l.toNatural }
  | "initial_temperature" => do return { s with initialTemperature := ← l.toFloat }
  | "get_policy" => do return { s with getPolicy := ← l.toPolicy }
  | "opcode_weights" => do
    return { s with opcodeWeights := ← l.toOption (Layer.toList Layer.toFloat) }
  | _ => .ok s

def EvolutionSettings.convert (name : String) (l : Layer) (s : EvolutionSettings) :
    Conversion EvolutionSettings :=
  match name with
  | "thread_count" => do return { s with threadCount := ← l.toNatural }
  | "worker_stack_size" => do return { s with workerStackSize := ← l.toNatural }
  | "run_seconds" => do return { s with runSeconds := ← l.toNatural }
  | "report_interval_millis" => do return { s with reportIntervalMillis := ← l.toNatural }
  | _ => .ok s

def StorageSettings.convert (name : String) (l : Layer) (s : StorageSettings) :
    Conversion StorageSettings :=
  match name with
  | "snapshot_path" => do return { s with snapshotPath := ← l.toOption Layer.toText }
  | "load_on_start" => do return { s with loadOnStart := ← l.toBool }
  | "store_on_stop" => do return { s with storeOnStop := ← l.toBool }
  | _ => .ok s

def Settings.convert (name : String) (l : Layer) (s : Settings) : Conversion Settings :=
  match name with
  | "pool" => do
    return { s with pool := ← l.toRecord PoolSettings.form PoolSettings.convert {} }
  | "evolution" => do
    return { s with evolution := ← l.toRecord EvolutionSettings.form EvolutionSettings.convert {} }
  | "persistence" => do
    return { s with storage := ← l.toRecord StorageSettings.form StorageSettings.convert {} }
  | _ => .ok s

def Settings.ofLayer (l : Layer) : Conversion Settings := l.toRecord form convert {}

end Biotope
