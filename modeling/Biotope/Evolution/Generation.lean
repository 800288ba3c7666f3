import Biotope.Program.Execution

/-!
# Generations

A generation takes a creature of any species, runs it, and returns it together with
the operands it has left. A worker lives through generations until it is told to stop
or dies of a fault.
-/

namespace Biotope.Evolution

open Act

def countGeneration : Act Unit := fun w =>
  match Gauge.increment w.generations with
  | .ok _ g => .ok () { w with generations := g }
  | .error f g => .error f { w with generations := g }

/-- One generation; tells whether a creature was found. -/
def generation : Act Bool := do
  match ← Pool.request .any with
  | none =>
    Program.reset
    return false
  | some creature =>
    Program.run creature
    Pool.put creature
    countGeneration
    Program.reset
    return true

/-- Up to `n` generations, ended early when no creature is found. -/
def generations : Nat → Act Unit
  | 0 => return
  | n + 1 => do
    if ← generation then generations n else return

/-- Runs an act on a stack of its own. When it breaks off, what it left there goes back
to the pool, and the fault is all that comes out. -/
def contained (a : Act Unit) (w : World) : Option Fault × World :=
  match a { w with stack := [] } with
  | .ok _ v => (none, { v with stack := w.stack })
  | .error f v =>
    match Program.reset v with
    | .ok _ v => (some f, { v with stack := w.stack })
    | .error _ v => (some f, { v with stack := w.stack })

end Biotope.Evolution
