import Biotope.CommandLine
import Biotope.Report
import Std.Time.DateTime.Timestamp

/-!
# The program

Takes at most one argument, a file of settings. Reads the files, keeps the clock, and
prints; what is done with it all is decided in `CommandLine`.
-/

namespace Biotope.Main

open CommandLine

/-! ## The outside world -/

def readText? (path : String) : IO (Option String) := do
  try
    return some (← IO.FS.readFile path)
  catch _ =>
    return none

def environment : IO (List (String × String)) := do
  let text := (← readText? "/proc/self/environ").getD ""
  return (text.splitOn "\x00").filterMap fun entry =>
    match entry.splitOn "=" with
    | name :: first :: rest => some (name, "=".intercalate (first :: rest))
    | _ => none

def shortened (directory path : String) : String :=
  let lead := directory.toList ++ ['/']
  if lead.isPrefixOf path.toList then String.ofList (path.toList.drop lead.length) else path

/-- The file of settings at a path, an extension being added if there is none without. -/
def settingsFile (path : String) : IO SettingsFile := do
  let directory := (← IO.currentDir).toString
  for candidate in [path, path ++ ".toml", path ++ ".json"] do
    if let some text ← readText? candidate then
      let full := if candidate.startsWith "/" then candidate else directory ++ "/" ++ candidate
      return ⟨path, full, shortened directory full, some text⟩
  return ⟨path, path, path, none⟩

def entryAt (path : String) : IO Entry := do
  try
    return .text (← IO.FS.readFile path)
  catch
    | .noFileOrDirectory .. => return .nothing
    | .inappropriateType .. => return .closed (.unreadable isDirectory)
    | e => return .closed (.file (toString e))

/-- The files as they are now. Of the paths, only the one in the settings matters. -/
def diskFor (path : Option String) : IO Disk := do
  let entry ← match path with
    | some p => entryAt p
    | none => pure .nothing
  return ⟨fun p => if path = some p then entry else .nothing, fun _ => none⟩

def now : IO Timestamp := do
  let t ← Std.Time.Timestamp.now
  return .ofUnixSeconds t.val.second.val t.val.nano.val.toNat

def freshStream : IO Stream := do
  let bytes ← IO.getRandomBytes 8
  return .seeded (bytes.foldl (fun (w : UInt64) b => w * 256 + b.toUInt64) 0)

/-! ## Evolution -/

inductive Until where
  | moment (milliseconds : Nat)
  | closed (input : Task (Except IO.Error Unit))

partial def drain (input : IO.FS.Stream) : IO Unit := do
  let bytes ← input.read 4096
  if bytes.isEmpty then return else drain input

def Until.ofSettings (s : EvolutionSettings) : IO Until := do
  if s.runSeconds = 0 then return .closed (← IO.asTask (drain (← IO.getStdin)) .dedicated)
  else return .moment ((← IO.monoMsNow) + 1000 * s.runSeconds.toNat)

def Until.reached : Until → IO Bool
  | .moment t => do return t ≤ (← IO.monoMsNow)
  | .closed task => IO.hasFinished task

def printErrors (w : World) : IO World := do
  for notice in w.journal do
    if notice.level = .error then IO.eprintln notice.line
  return { w with journal := #[] }

/-- Evolves the pool until it is time, with a report after each interval. -/
partial def evolve (interval : Nat) (stop : Until) (next : Nat) (engine : Engine) (w : World) :
    IO World := do
  if ← stop.reached then return w
  let (engine, w) := Evolution.shift 16 engine w
  let w ← printErrors w
  let time ← IO.monoMsNow
  if time < next then evolve interval stop next engine w
  else
    match (do (← Report.round engine).announce : Act Unit) w with
    | .ok _ w | .error _ w => evolve interval stop (time + interval) engine (← printErrors w)

/-! ## Whole runs -/

/-- Writes what is to be stored, if anything is. -/
def write (written : Option (String × String)) : IO Ending := do
  match written with
  | none => return .success none
  | some (path, text) =>
    try
      IO.FS.writeFile path text
      return .success written
    catch
      | .noFileOrDirectory .. => return .halted (notStored path noSuchFile)
      | .inappropriateType .. => return .halted (notStored path isDirectory)
      | e => return .halted (notStored path (toString e))

def conclude (r : Running) : IO Ending := do
  let interval := r.settings.evolution.reportIntervalMillis.toNat
  let stop ← Until.ofSettings r.settings.evolution
  let w ← evolve interval stop ((← IO.monoMsNow) + interval) r.engine (← printErrors r.world)
  match finish (← now) r.settings.storage w.pool (← diskFor none) with
  | .ok written _ => write written
  | .error halt _ => return .halted halt

def run (args : List String) : IO Ending := do
  let config ← args.head?.mapM settingsFile
  let launch : Launch := ⟨config, ← environment⟩
  let path := match loadSettings launch with
    | .ok s => s.storage.snapshotPath
    | .error _ => none
  match prepare launch systemRefusal (← freshStream) (← diskFor path) with
  | .ok running _ => conclude running
  | .error halt _ => return .halted halt

end Biotope.Main

def main (args : List String) : IO UInt32 := do
  let ending ← Biotope.Main.run args
  IO.eprint ending.report
  return ending.code
