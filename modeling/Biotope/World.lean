import Biotope.Notice

/-!
# Worlds

A `World` is all that a running simulation reads and changes: the pool, the operands
of the running program, the random stream, the notices so far, and the rules by which
requests for creatures are served. It also remembers which creatures were filed. An
`Act` is a step of a simulation. When it breaks off with a fault, the world it reached
stays.
-/

namespace Biotope

inductive Service where
  | chance
  /-- The live species take turns, until `limit` requests have been served. -/
  | turns (limit served : Nat)
  | closed
deriving DecidableEq, Repr

/-- A rehearsed failure: a request breaks off once `left` more have been served. -/
structure Drill where
  left : Nat
  message : Option String
deriving DecidableEq, Repr

structure World where
  pool : Pool := {}
  /-- The operands, the top first. -/
  stack : List Gene := []
  /-- Programs run since evolution was started. -/
  generations : Gauge := {}
  stream : Stream
  journal : Array Notice := #[]
  /-- The creatures that have been filed in the pool, the last first. -/
  filed : List Gene := []
  /-- An operation on the pool has broken off. -/
  poisoned : Bool := false
  service : Service := .chance
  drill : Option Drill := none

instance : Inhabited World := ⟨{ stream := default }⟩

/-- Goes on with another pool, on which no drill has been called, and no operands. -/
def World.adopt (w : World) (p : Pool) : World :=
  { w with pool := p, stack := [], poisoned := false, drill := none }

/-- A step of a simulation. -/
abbrev Act := EStateM Fault World

namespace Act

def note (n : Notice) : Act Unit := fun w => .ok () { w with journal := w.journal.push n }

def draw {α} (d : Draw α) : Act α := fun w =>
  let (a, s) := d w.stream
  .ok a { w with stream := s }

def getPool : Act Pool := fun w => .ok w.pool w

def record (g : Gene) : Act Unit := fun w => .ok () { w with filed := g :: w.filed }

def modifyPool (f : Pool → Pool) : Act Unit := fun w => .ok () { w with pool := f w.pool }

def count (t : Tally) (c : Counting Int64) : Act Int64 := fun w =>
  match c (w.pool.gauge t) with
  | .ok v g => .ok v { w with pool := w.pool.setGauge t g }
  | .error f g => .error f { w with pool := w.pool.setGauge t g }

/-- Runs an operation on the pool. A fault inside is remembered, and reported whenever
the pool is entered again. -/
def entering {α} (a : Act α) : Act α := fun w =>
  let w := if w.poisoned then { w with journal := w.journal.push .recovered } else w
  match a w with
  | .ok x w => .ok x w
  | .error f w => .error f { w with poisoned := true }

/-! ## The operand stack -/

def push (g : Gene) : Act Unit := fun w => .ok () { w with stack := g :: w.stack }

def pop : Act (Option Gene) := fun w =>
  match w.stack with
  | [] => .ok none w
  | g :: gs => .ok (some g) { w with stack := gs }

end Act

end Biotope
