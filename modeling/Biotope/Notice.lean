import Biotope.Pool.Basic

/-!
# Notices

What a simulation reports while it runs. Each notice has a level and one line of
text.
-/

namespace Biotope

inductive Level where
  | error | warn | info | debug | trace
deriving DecidableEq, Repr

def Level.name : Level → String
  | error => "ERROR"
  | warn => "WARN"
  | info => "INFO"
  | debug => "DEBUG"
  | trace => "TRACE"

inductive Notice where
  /-- The pool was entered after an operation on it had broken off. -/
  | recovered
  | founded (id : SpeciesId)
  | extinct (id : SpeciesId)
  | seeded (creatures species genes : Int64) (temperature : Probability)
  | loaded (savedAt : String) (species : Nat)
  | stored (path : String)
  | nothingToLoad
  | evolutionStarted (workers : Nat)
  | evolutionStopped (generations : Int64)
  | workerStarted (index : Nat)
  | workerStopped (index : Nat)
  | workerDied (index : Nat) (fault : Fault)
  | progress (generations : Int64) (workers : Nat) (temperature : Probability)
  | tallies (creatures species genes : Gauge)

namespace Notice

def level : Notice → Level
  | workerDied .. => .error
  | recovered | nothingToLoad => .warn
  | seeded .. | loaded .. | stored .. | evolutionStarted .. | evolutionStopped .. | progress ..
  | tallies .. => .info
  | workerStarted .. | workerStopped .. => .debug
  | founded .. | extinct .. => .trace

def range (g : Gauge) : String :=
  toString g.current ++ " [" ++ toString g.low ++ ".." ++ toString g.high ++ "]"

def worker (index : Nat) : String := "processor-" ++ toString index

def message : Notice → String
  | recovered => "Gene pool lock poisoned by a panicking worker, recovering"
  | founded id => "New species " ++ id.text
  | extinct id => "Species " ++ id.text ++ " went extinct"
  | seeded creatures species genes temperature =>
    "Gene pool initialized: " ++ toString creatures ++ " creatures, " ++ toString species ++
      " species, " ++ toString genes ++ " genes, temperature " ++ temperature.text
  | loaded savedAt species =>
    "Loaded gene pool saved at " ++ savedAt ++ " (" ++ toString species ++ " species)"
  | stored path => "Stored gene pool to " ++ path
  | nothingToLoad => "No snapshot to load, seeding a fresh gene pool"
  | evolutionStarted workers => "Evolution started with " ++ toString workers ++ " threads"
  | evolutionStopped generations =>
    "Evolution stopped after " ++ toString generations ++ " generations"
  | workerStarted i => worker i ++ " started"
  | workerStopped i => worker i ++ " stopped"
  | workerDied i fault => worker i ++ " died: " ++ fault.message
  | progress generations workers temperature =>
    "Generations: " ++ toString generations ++ ", threads: " ++ toString workers ++
      ", temperature: " ++ temperature.text
  | tallies creatures species genes =>
    "  creatures " ++ range creatures ++ ", species " ++ range species ++ ", genes " ++ range genes

def line (n : Notice) : String := n.level.name ++ " " ++ n.message

end Notice

end Biotope
