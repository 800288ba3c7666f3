import Biotope.Failure
import Biotope.Gene.Codec
import Biotope.Notice
import Biotope.Timestamp

/-!
# Archives

A stored pool is a JSON file: a timestamp and a census. Loading checks the census, so
a file that does not describe a pool is refused.
-/

namespace Biotope

open Json (Node Value Decoded)

/-! ## Gauges -/

def Gauge.toJson (g : Gauge) : Value :=
  .object [("current", .int g.current.toInt), ("low", .int g.low.toInt),
    ("high", .int g.high.toInt)]

def Gauge.form : Json.Form := ⟨"CounterSnapshot", ["current", "low", "high"], false⟩

structure GaugeParts where
  current : Option Int64 := none
  low : Option Int64 := none
  high : Option Int64 := none

def GaugeParts.field (name : String) (node : Node) (p : GaugeParts) : Decoded GaugeParts :=
  match name with
  | "current" => do return { p with current := some (← Json.decodeI64 node) }
  | "low" => do return { p with low := some (← Json.decodeI64 node) }
  | "high" => do return { p with high := some (← Json.decodeI64 node) }
  | _ => .ok p

def GaugeParts.finish (p : GaugeParts) : Except Json.DataError Gauge := do
  return ⟨← Json.required "current" p.current, ← Json.required "low" p.low,
    ← Json.required "high" p.high⟩

def Gauge.decode : Node → Decoded Gauge :=
  Json.decodeRecord form GaugeParts.field {} GaugeParts.finish

/-! ## Buckets -/

def Species.decode (node : Node) : Decoded Species := do
  return ⟨(← Json.decodeList Gene.decode node).toArray⟩

def Species.toJson (s : Species) : Value := .array (s.members.toList.map Gene.toJson)

/-- An identifier as a key: a number in quotes, from its first character on. -/
def decodeKey (start : Json.Cursor) : Decoded SpeciesId := do
  if !(start.rest.head?.any fun c => c.isDigit || c = '-') then
    .error (.unreadable (start.flaw .expectedNumericKey))
  match Json.readNumber start with
  | .error (flaw, _) => .error (.unreadable flaw)
  | .ok (.tooLarge, c) => .error (.unreadable (c.flaw .numberOutOfRange))
  | .ok (n, c) =>
    let id ← Json.locating c.peeked (n.toInt 0 (UInt32.size - 1) "u32")
    match c.rest with
    | '"' :: _ => return ⟨id.toNat.toUInt32⟩
    | _ => .error (.unreadable (c.flaw .expectedQuote))

/-- Buckets in the order of the text; of equal keys the last one stays. -/
def decodeBuckets (acc : List (SpeciesId × Species)) :
    List (Json.Entry Node) → Decoded (List (SpeciesId × Species))
  | [] => .ok acc
  | e :: es => do
    let id ← decodeKey e.start
    let s ← Json.locating e.follow (Species.decode e.node)
    decodeBuckets (Pool.insertBucket id s acc) es

def decodeBucketMap : Node → Decoded (List (SpeciesId × Species))
  | .object _ entries ending => do
    let buckets ← decodeBuckets [] entries
    match ending with
    | .inName start _ _ => discard (decodeKey start)
    | _ => pure ()
    Json.sound (ending.flawWith? Json.Breach.inObject)
    return buckets
  | node => Json.wrongType "a map" node

def bucketsToJson (buckets : List (SpeciesId × Species)) : Value :=
  .object (buckets.map fun b => (toString b.1.value.toNat, b.2.toJson))

/-! ## Censuses -/

def Census.toJson (c : Census) : Value :=
  .object [("temperature", .float c.temperature.value), ("genes", c.genes.toJson),
    ("species_count", c.species.toJson), ("creatures", c.creatures.toJson),
    ("buckets", bucketsToJson c.buckets)]

def Census.form : Json.Form :=
  ⟨"PoolSnapshot", ["temperature", "genes", "species_count", "creatures", "buckets"], false⟩

structure CensusParts where
  temperature : Option Probability := none
  genes : Option Gauge := none
  species : Option Gauge := none
  creatures : Option Gauge := none
  buckets : Option (List (SpeciesId × Species)) := none

def CensusParts.field (name : String) (node : Node) (p : CensusParts) : Decoded CensusParts :=
  match name with
  | "temperature" => do return { p with temperature := some (← Json.decodeProbability node) }
  | "genes" => do return { p with genes := some (← Gauge.decode node) }
  | "species_count" => do return { p with species := some (← Gauge.decode node) }
  | "creatures" => do return { p with creatures := some (← Gauge.decode node) }
  | "buckets" => do return { p with buckets := some (← decodeBucketMap node) }
  | _ => .ok p

def CensusParts.finish (p : CensusParts) : Except Json.DataError Census := do
  return ⟨← Json.required "temperature" p.temperature, ← Json.required "genes" p.genes,
    ← Json.required "species_count" p.species, ← Json.required "creatures" p.creatures,
    ← Json.required "buckets" p.buckets⟩

def Census.decode : Node → Decoded Census :=
  Json.decodeRecord form CensusParts.field {} CensusParts.finish

/-! ## Files -/

structure Archive where
  savedAt : Timestamp
  census : Census

namespace Archive

def toJson (a : Archive) : Value :=
  .object [("saved_at", .string (a.savedAt.text "Z")), ("pool", a.census.toJson)]

def text (a : Archive) : String := a.toJson.text

def decodeTimestamp (node : Node) : Decoded Timestamp := do
  let stop := match node with | .string _ stop => stop | _ => 0
  let s ← Json.decodeString "an RFC 3339 formatted date and time string" node
  match Timestamp.parse s with
  | .ok t => return t
  | .error e => Json.locating stop (Json.fail (.malformed e.message))

def form : Json.Form := ⟨"SnapshotFile", ["saved_at", "pool"], false⟩

structure Parts where
  savedAt : Option Timestamp := none
  census : Option Census := none

def Parts.field (name : String) (node : Node) (p : Parts) : Decoded Parts :=
  match name with
  | "saved_at" => do return { p with savedAt := some (← decodeTimestamp node) }
  | "pool" => do return { p with census := some (← Census.decode node) }
  | _ => .ok p

def Parts.finish (p : Parts) : Except Json.DataError Archive := do
  return ⟨← Json.required "saved_at" p.savedAt, ← Json.required "pool" p.census⟩

def decode : Node → Decoded Archive := Json.decodeRecord form Parts.field {} Parts.finish

def parse (text : String) : Decoded Archive := Json.decode decode text

end Archive

/-- A pool from the text of a file. A file that could be read is announced, even when its
census is then refused. -/
def Pool.load (text : String) : Except Failure Pool × List Notice :=
  match Archive.parse text with
  | .error e => (.error (.json e text), [])
  | .ok a =>
    let notice := Notice.loaded a.savedAt.text a.census.buckets.length
    match a.census.toPool with
    | .error e => (.error (.census e), [notice])
    | .ok p => (.ok p, [notice])

def Pool.store (p : Pool) (savedAt : Timestamp) : String := Archive.text ⟨savedAt, p.census⟩

end Biotope
