import Biotope.Growth.Grower

/-!
# Settings

Three sections: how the pool is seeded, how evolution runs, and where the pool is
kept. `Settings.check?` finds the first thing wrong, section by section.
-/

namespace Biotope

structure PoolSettings where
  initialCreatures : UInt64 := 1000
  relativeComplexity : Float := 0.75
  maximumDepth : UInt64 := 10
  initialTemperature : Float := 0.5
  getPolicy : GetPolicy := .template
  /-- In the order of the opcodes; uniform when absent. -/
  opcodeWeights : Option (List Float) := none
deriving Inhabited

structure EvolutionSettings where
  threadCount : UInt64 := 10
  /-- In bytes. -/
  workerStackSize : UInt64 := 16777216
  /-- Zero runs until standard input is closed. -/
  runSeconds : UInt64 := 60
  reportIntervalMillis : UInt64 := 1000
deriving Inhabited

structure StorageSettings where
  snapshotPath : Option String := none
  loadOnStart : Bool := false
  storeOnStop : Bool := false
deriving Inhabited

structure Settings where
  pool : PoolSettings := {}
  evolution : EvolutionSettings := {}
  storage : StorageSettings := {}
deriving Inhabited

/-! ## Comparison -/

def sameFloats : List Float → List Float → Bool
  | [], [] => true
  | x :: xs, y :: ys => x == y && sameFloats xs ys
  | _, _ => false

/-- Equality, floats being compared as numbers. -/
def PoolSettings.same (s t : PoolSettings) : Bool :=
  s.initialCreatures == t.initialCreatures && s.relativeComplexity == t.relativeComplexity &&
  s.maximumDepth == t.maximumDepth && s.initialTemperature == t.initialTemperature &&
  s.getPolicy == t.getPolicy &&
  match s.opcodeWeights, t.opcodeWeights with
  | none, none => true
  | some ws, some vs => sameFloats ws vs
  | _, _ => false

def EvolutionSettings.same (s t : EvolutionSettings) : Bool :=
  s.threadCount == t.threadCount && s.workerStackSize == t.workerStackSize &&
  s.runSeconds == t.runSeconds && s.reportIntervalMillis == t.reportIntervalMillis

def StorageSettings.same (s t : StorageSettings) : Bool :=
  s.snapshotPath == t.snapshotPath && s.loadOnStart == t.loadOnStart &&
  s.storeOnStop == t.storeOnStop

def Settings.same (s t : Settings) : Bool :=
  s.pool.same t.pool && s.evolution.same t.evolution && s.storage.same t.storage

/-! ## Validity -/

inductive SettingsError where
  | noProbability (field : String) (value : Float)
  | noDepth
  | weightCount (given : Nat)
  | weightValue
  | weightTotal
  | noThread
  | smallStack
  | noInterval
  | noPath

def SettingsError.message : SettingsError → String
  | noProbability field value =>
    field ++ " must be between 0 and 1, got " ++ Decimal.plain.write value
  | noDepth => "Maximum depth must be at least 1"
  | weightCount given =>
    "Opcode weights need one entry per opcode (8), got " ++ toString given
  | weightValue => "Opcode weights must be finite and non-negative"
  | weightTotal => "Opcode weights must not all be zero"
  | noThread => "Thread count must be at least 1"
  | smallStack => "Worker stack size must be at least 64 KiB"
  | noInterval => "Report interval must be positive"
  | noPath => "A snapshot path is required to load or store the pool"

def total (ws : List Float) : Float := ws.foldl (· + ·) 0.0

def weightsError? (ws : List Float) : Option SettingsError :=
  if ws.length ≠ 8 then some (.weightCount ws.length)
  else if ws.any fun w => !Decimal.isFinite w || decide (w < 0.0) then some .weightValue
  else if total ws ≤ 0.0 then some .weightTotal
  else none

def PoolSettings.check? (s : PoolSettings) : Option SettingsError :=
  if (Probability.ofFloat? s.relativeComplexity).isNone then
    some (.noProbability "pool.relative_complexity" s.relativeComplexity)
  else if (Probability.ofFloat? s.initialTemperature).isNone then
    some (.noProbability "pool.initial_temperature" s.initialTemperature)
  else if s.maximumDepth < 1 then some .noDepth
  else s.opcodeWeights.bind weightsError?

def EvolutionSettings.check? (s : EvolutionSettings) : Option SettingsError :=
  if s.threadCount < 1 then some .noThread
  else if s.workerStackSize < 65536 then some .smallStack
  else if s.reportIntervalMillis = 0 then some .noInterval
  else none

def StorageSettings.check? (s : StorageSettings) : Option SettingsError :=
  if (s.loadOnStart || s.storeOnStop) && s.snapshotPath.isNone then some .noPath else none

def Settings.check? (s : Settings) : Option SettingsError :=
  (s.pool.check?.or s.evolution.check?).or s.storage.check?

end Biotope
