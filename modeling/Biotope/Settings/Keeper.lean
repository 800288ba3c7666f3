import Biotope.Failure
import Biotope.Settings.Conversion

/-!
# Keeping settings

A keeper holds settings and answers requests. What a request would install is checked
first, and a request that fails changes nothing.
-/

namespace Biotope

namespace Settings

def checked (s : Settings) : Except Failure Settings :=
  match s.check? with
  | some e => .error (.settings e)
  | none => .ok s

/-! ## Loading -/

/-- What a file, if there is one, and the environment say. -/
def layer (file : Option SettingsFile) (environment : List (String × String)) :
    Except SourceError Layer := do
  let below ← match file with
    | some f => (Layer.putAll · Layer.empty) <$> Layer.ofFile f
    | none => .ok Layer.empty
  return Layer.putAll (Layer.ofEnvironment environment) below

/-- Settings from a file and the environment, which overrides the file. -/
def load (file : Option SettingsFile) (environment : List (String × String)) :
    Except Failure Settings := do
  let s ← (layer file environment >>= ofLayer).mapError .source
  checked s

/-! ## Saving -/

def natural (n : UInt64) : Except Failure Toml.Value :=
  if Toml.fits n.toNat then .ok (.integer n.toNat) else .error (.unwritable n.toNat)

def poolSection (s : PoolSettings) : Except Failure Toml.Section := do
  let weights := match s.opcodeWeights with
    | some ws => [("opcode_weights", Toml.Value.array (ws.map .float))]
    | none => []
  return ⟨"pool", [("initial_creatures", ← natural s.initialCreatures),
    ("relative_complexity", .float s.relativeComplexity),
    ("maximum_depth", ← natural s.maximumDepth),
    ("initial_temperature", .float s.initialTemperature),
    ("get_policy", .string s.getPolicy.name)] ++ weights⟩

def evolutionSection (s : EvolutionSettings) : Except Failure Toml.Section := do
  return ⟨"evolution", [("thread_count", ← natural s.threadCount),
    ("worker_stack_size", ← natural s.workerStackSize),
    ("run_seconds", ← natural s.runSeconds),
    ("report_interval_millis", ← natural s.reportIntervalMillis)]⟩

def storageSection (s : StorageSettings) : Toml.Section :=
  let path := match s.snapshotPath with
    | some p => [("snapshot_path", Toml.Value.string p)]
    | none => []
  ⟨"persistence", path ++
    [("load_on_start", .bool s.loadOnStart), ("store_on_stop", .bool s.storeOnStop)]⟩

def save (s : Settings) : Except Failure String := do
  return Toml.documentText
    [← poolSection s.pool, ← evolutionSection s.evolution, storageSection s.storage]

end Settings

/-! ## Requests -/

inductive SettingsRequest where
  | load (file : Option SettingsFile) (environment : List (String × String))
  /-- An edit may break off, whatever it has changed by then. -/
  | update (edit : Settings → Except Fault Settings)
  | save

inductive SettingsReply where
  | installed
  | saved (text : String)
  | refused (failure : Failure)
  | brokenOff (fault : Fault)

structure Keeper where
  settings : Settings := {}
deriving Inhabited

namespace Keeper

def install (k : Keeper) : Except Failure Settings → Keeper × SettingsReply
  | .ok s => (⟨s⟩, .installed)
  | .error f => (k, .refused f)

def perform (k : Keeper) : SettingsRequest → Keeper × SettingsReply
  | .load file environment => k.install (Settings.load file environment)
  | .update edit =>
    match edit k.settings with
    | .ok s => k.install s.checked
    | .error fault => (k, .brokenOff fault)
  | .save =>
    match k.settings.save with
    | .ok text => (k, .saved text)
    | .error f => (k, .refused f)

end Keeper

end Biotope
