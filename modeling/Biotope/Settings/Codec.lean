import Biotope.Json.Decoder
import Biotope.Settings.Basic

/-!
# Settings in JSON

Absent fields keep their defaults and unknown ones are skipped.
-/

namespace Biotope

open Json (Node Value Decoded)

/-! ## The policy for templates -/

def GetPolicy.name : GetPolicy → String
  | template => "template"
  | existingSpecies => "existing_species"

def GetPolicy.all : List GetPolicy := [template, existingSpecies]

def GetPolicy.ofName (name : String) : Except Json.DataError GetPolicy :=
  match all.find? (·.name == name) with
  | some p => .ok p
  | none => .error (.unknownVariant name (all.map GetPolicy.name))

/-- A policy is its name, or an object with the name as its only key and `null`. -/
def decodePolicy : Node → Decoded GetPolicy
  | .string s stop => do
    Json.sound s.flaw?
    Json.locating stop ((GetPolicy.ofName s.text).mapError fun cause => .data cause none)
  | .object _ (e :: es) ending => do
    Json.sound e.name.flaw?
    let p ← Json.locating e.colon
      ((GetPolicy.ofName e.name.text).mapError fun cause => .data cause none)
    match e.node with
    | .null _ => pure ()
    | node => Json.wrongType "unit" node
    match es, ending with
    | [], .closed _ => return p
    | [], .breach how offset => .error (.unreadable ⟨how.inFullObject, offset⟩)
    | _, _ => .error (.unreadable ⟨.expectedValue, e.follow⟩)
  | .object _ [] (.breach _ offset) => .error (.unreadable ⟨.eofInValue, offset⟩)
  | .object _ [] (.closed stop) => .error (.unreadable ⟨.expectedValue, stop⟩)
  | .object _ [] ending => do
    Json.sound (ending.flawWith? Json.Breach.inObject)
    .error (.unreadable ⟨.expectedValue, 0⟩)
  | .missing flaw => .error (.unreadable flaw)
  | .broken flaw _ => .error (.unreadable { flaw with kind := .expectedValue })
  | .null stop | .bool _ stop | .number _ stop | .list stop _ _ =>
    .error (.unreadable ⟨.expectedValue, stop⟩)

/-! ## Sections -/

def PoolSettings.form : Json.Form :=
  ⟨"PoolConfig", ["initial_creatures", "relative_complexity", "maximum_depth",
    "initial_temperature", "get_policy", "opcode_weights"], true⟩

def PoolSettings.field (name : String) (node : Node) (s : PoolSettings) : Decoded PoolSettings :=
  match name with
  | "initial_creatures" => do
    return { s with initialCreatures := ← Json.decodeU64 "usize" node }
  | "relative_complexity" => do return { s with relativeComplexity := ← Json.decodeFloat node }
  | "maximum_depth" => do return { s with maximumDepth := ← Json.decodeU64 "usize" node }
  | "initial_temperature" => do return { s with initialTemperature := ← Json.decodeFloat node }
  | "get_policy" => do return { s with getPolicy := ← decodePolicy node }
  | "opcode_weights" => do
    return { s with opcodeWeights := ← Json.decodeOption (Json.decodeList Json.decodeFloat) node }
  | _ => .ok s

def PoolSettings.decode : Node → Decoded PoolSettings :=
  Json.decodeRecord form field {} .ok

def EvolutionSettings.form : Json.Form :=
  ⟨"EvolutionConfig", ["thread_count", "worker_stack_size", "run_seconds",
    "report_interval_millis"], true⟩

def EvolutionSettings.field (name : String) (node : Node) (s : EvolutionSettings) :
    Decoded EvolutionSettings :=
  match name with
  | "thread_count" => do return { s with threadCount := ← Json.decodeU64 "usize" node }
  | "worker_stack_size" => do return { s with workerStackSize := ← Json.decodeU64 "usize" node }
  | "run_seconds" => do return { s with runSeconds := ← Json.decodeU64 "u64" node }
  | "report_interval_millis" => do
    return { s with reportIntervalMillis := ← Json.decodeU64 "u64" node }
  | _ => .ok s

def EvolutionSettings.decode : Node → Decoded EvolutionSettings :=
  Json.decodeRecord form field {} .ok

def StorageSettings.form : Json.Form :=
  ⟨"PersistenceConfig", ["snapshot_path", "load_on_start", "store_on_stop"], true⟩

def StorageSettings.field (name : String) (node : Node) (s : StorageSettings) :
    Decoded StorageSettings :=
  match name with
  | "snapshot_path" => do
    return { s with snapshotPath := ← Json.decodeOption (Json.decodeString "path string") node }
  | "load_on_start" => do return { s with loadOnStart := ← Json.decodeBool node }
  | "store_on_stop" => do return { s with storeOnStop := ← Json.decodeBool node }
  | _ => .ok s

def StorageSettings.decode : Node → Decoded StorageSettings :=
  Json.decodeRecord form field {} .ok

def Settings.form : Json.Form := ⟨"AppConfig", ["pool", "evolution", "persistence"], true⟩

def Settings.field (name : String) (node : Node) (s : Settings) : Decoded Settings :=
  match name with
  | "pool" => do return { s with pool := ← PoolSettings.decode node }
  | "evolution" => do return { s with evolution := ← EvolutionSettings.decode node }
  | "persistence" => do return { s with storage := ← StorageSettings.decode node }
  | _ => .ok s

def Settings.decode : Node → Decoded Settings := Json.decodeRecord form field {} .ok

/-! ## Writing -/

def PoolSettings.toJson (s : PoolSettings) : Value :=
  .object [("initial_creatures", .int s.initialCreatures.toNat),
    ("relative_complexity", .float s.relativeComplexity),
    ("maximum_depth", .int s.maximumDepth.toNat),
    ("initial_temperature", .float s.initialTemperature),
    ("get_policy", .string s.getPolicy.name),
    ("opcode_weights", match s.opcodeWeights with
      | none => .null
      | some ws => .array (ws.map .float))]

def EvolutionSettings.toJson (s : EvolutionSettings) : Value :=
  .object [("thread_count", .int s.threadCount.toNat),
    ("worker_stack_size", .int s.workerStackSize.toNat),
    ("run_seconds", .int s.runSeconds.toNat),
    ("report_interval_millis", .int s.reportIntervalMillis.toNat)]

def StorageSettings.toJson (s : StorageSettings) : Value :=
  .object [("snapshot_path", match s.snapshotPath with | none => .null | some p => .string p),
    ("load_on_start", .bool s.loadOnStart), ("store_on_stop", .bool s.storeOnStop)]

def Settings.toJson (s : Settings) : Value :=
  .object [("pool", s.pool.toJson), ("evolution", s.evolution.toJson),
    ("persistence", s.storage.toJson)]

end Biotope
