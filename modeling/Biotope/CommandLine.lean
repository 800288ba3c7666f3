import Biotope.Archive
import Biotope.Evolution.Shift
import Biotope.Pool.Seeding
import Biotope.Settings.Keeper

/-!
# The command line

A run reads its settings, loads or seeds a pool, lets workers evolve it, and stores it.
`prepare` and `finish` are what comes before and after evolution. A run can halt at every
stage, and then the disk stays as the stages before have left it.
-/

namespace Biotope.CommandLine

inductive Entry where
  | nothing
  | text (content : String)
  | closed (failure : Failure)

def Entry.isThere : Entry → Bool
  | nothing => false
  | text _ | closed _ => true

structure Disk where
  look : String → Entry
  /-- Why no file can be created at a path. -/
  refusal : String → Option String

def Disk.put (disk : Disk) (path content : String) : Disk :=
  { disk with look := fun p => if p = path then .text content else disk.look p }

structure Launch where
  /-- The file that the argument names, if there is an argument. -/
  config : Option SettingsFile
  environment : List (String × String)

def noSuchFile : String := "No such file or directory (os error 2)"

def isDirectory : String := "Is a directory (os error 21)"

/-! ## Complaints -/

structure Complaint where
  failure : Failure
  context : Option String := none

/-- A cause under its number, further lines being indented. -/
def numbered (number : Option Nat) (cause : String) : String :=
  let lead := match number with
    | some n =>
      let digits := toString n
      String.ofList (List.replicate (5 - digits.length) ' ') ++ digits ++ ": "
    | none => "    "
  let indent := "\n" ++ if number.isSome then "       " else "    "
  lead ++ indent.intercalate (cause.splitOn "\n")

def causesText (causes : List String) : String :=
  match causes with
  | [] => ""
  | [cause] => "\n\nCaused by:\n" ++ numbered none cause
  | causes =>
    "\n\nCaused by:" ++
      String.join (causes.zipIdx.map fun (cause, i) => "\n" ++ numbered (some i) cause)

def Complaint.report (c : Complaint) : String :=
  let all := c.context.toList ++ c.failure.causes
  "Error: " ++ all.headD "" ++ causesText all.tail ++ "\n"

/-! ## Endings -/

/-- Why a run ends early. -/
inductive Halt where
  | complaint (c : Complaint)
  | brokenOff (fault : Fault)

inductive Ending where
  /-- Success, with the path and the text of the file that was written. -/
  | success (written : Option (String × String))
  | halted (halt : Halt)

def Ending.code : Ending → UInt32
  | success _ => 0
  | halted (.complaint _) => 1
  | halted (.brokenOff _) => 101

def Ending.report : Ending → String
  | success _ => ""
  | halted (.complaint c) => c.report
  | halted (.brokenOff fault) => fault.message ++ "\n"

/-- A part of a run. -/
abbrev Stage := EStateM Halt Disk

def demand {α} : Except Complaint α → Stage α
  | .ok x => pure x
  | .error c => throw (.complaint c)

/-! ## Before evolution -/

def loadSettings (l : Launch) : Except Complaint Settings :=
  let context := match l.config with
    | some file => "Failed to load configuration from " ++ file.path
    | none => "Failed to load configuration from the environment"
  (Settings.load l.config l.environment).mapError fun f => ⟨f, some context⟩

/-- The path of a stored pool that is to be loaded and is there. -/
def storedPath? (disk : Disk) (s : StorageSettings) : Option String :=
  if s.loadOnStart then s.snapshotPath.filter fun path => (disk.look path).isThere else none

def loadPool (disk : Disk) (path : String) : Act (Except Failure Unit) :=
  match disk.look path with
  | .nothing => return .error (.file noSuchFile)
  | .closed failure => return .error failure
  | .text content => do
    let (result, notices) := Pool.load content
    notices.forM Act.note
    match result with
    | .ok p =>
      modify (·.adopt p)
      return .ok ()
    | .error f => return .error f

/-- Loads the pool if that is wanted and possible, and seeds one otherwise. -/
def furnish (disk : Disk) (s : Settings) : Act (Except Complaint Unit) := do
  match storedPath? disk s.storage with
  | some path =>
    let context := "Failed to load gene pool from " ++ path
    return (← loadPool disk path).mapError fun f => ⟨f, some context⟩
  | none =>
    if s.storage.loadOnStart then Act.note .nothingToLoad
    return (← Pool.seedWith s.pool).mapError fun f => ⟨f, none⟩

def startEngine (refusal : Nat → Option String) (s : EvolutionSettings) :
    Except Complaint Engine :=
  match Engine.ofSettings s with
  | .error f => .error ⟨f, none⟩
  | .ok e =>
    match e.start refusal s.threadCount.toNat with
    | (e, .ok ()) => .ok e
    | (_, .error f) => .error ⟨f, none⟩

structure Running where
  settings : Settings
  engine : Engine
  world : World

/-- Why the system refuses a worker: what is asked for is the size of a stack and how many
workers are before it. -/
abbrev Refusal := Nat → Nat → Option String

def systemRefusal : Refusal := fun stackSize _ => Engine.stackRefusal stackSize

def prepare (l : Launch) (refusal : Refusal) (stream : Stream) : Stage Running := do
  let s ← demand (loadSettings l)
  match furnish (← get) s { stream } with
  | .error fault _ => throw (.brokenOff fault)
  | .ok (.error c) _ => throw (.complaint c)
  | .ok (.ok ()) w =>
    let e ← demand (startEngine (refusal s.evolution.workerStackSize.toNat) s.evolution)
    return ⟨s, e, w⟩

/-! ## After evolution -/

def notStored (path reason : String) : Halt :=
  .complaint ⟨.file reason, some ("Failed to store gene pool to " ++ path)⟩

/-- The file is emptied before it is written. -/
def storeAt (path content : String) : Stage Unit := do
  match (← get).refusal path with
  | some reason => throw (notStored path reason)
  | none =>
    modify (·.put path "")
    modify (·.put path content)

def finish (now : Timestamp) (s : StorageSettings) (p : Pool) : Stage (Option (String × String)) :=
  match s.storeOnStop, s.snapshotPath with
  | true, some path => do
    let content := p.store now
    storeAt path content
    return some (path, content)
  | _, _ => return none

/-! ## Whole runs -/

/-- What a run meets with. -/
structure Circumstances where
  stream : Stream
  refusal : Refusal
  /-- The world when the workers have stopped, unless something breaks off before. -/
  course : Running → Except Fault World
  now : Timestamp

def stages (l : Launch) (c : Circumstances) : Stage (Option (String × String)) := do
  let r ← prepare l c.refusal c.stream
  match c.course r with
  | .error fault => throw (.brokenOff fault)
  | .ok w => finish c.now r.settings.storage w.pool

/-- How a run ends, and the disk that it leaves. -/
def perform (l : Launch) (c : Circumstances) (disk : Disk) : Ending × Disk :=
  match stages l c disk with
  | .ok written disk => (.success written, disk)
  | .error halt disk => (.halted halt, disk)

/-- The ending of a run of which the system refuses no more than it must. -/
def run (disk : Disk) (l : Launch) (stream : Stream) (course : Running → World)
    (now : Timestamp) : Ending :=
  (perform l ⟨stream, systemRefusal, fun r => .ok (course r), now⟩ disk).1

end Biotope.CommandLine
