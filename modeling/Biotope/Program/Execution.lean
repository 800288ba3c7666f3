import Biotope.Program.Grafting
import Biotope.Program.Mutation
import Biotope.Program.Pruning
import Biotope.Program.Replication

/-!
# Running programs

A program works on a stack of creatures taken out of the pool. What is left on the
stack when it ends goes back through `reset`, so no creature leaves circulation.
-/

namespace Biotope.Program

open Act

/-- Grafts the rest of the stack into its top. A lone operand stays as it is. -/
def mergeTop : Act Unit := fun w =>
  match w.stack with
  | top :: next :: rest =>
    let t := graft top (next :: rest) w.stream
    .ok () { w with stack := t.value :: t.stack, stream := t.stream }
  | _ => .ok () w

mutual

def run : Gene → Act Unit
  | .branch p left right => do
    -- the odds of the branch itself, which no temperature damps
    if ← draw p.toss then runSlot left else runSlot right
  | .chop p => do
    match ← pop with
    | none => return
    | some top => push (← prune p top)
  | .copy p => do
    match ← pop with
    | none => return
    | some top =>
      let copy ← replicate p top
      push top
      match copy with
      | none => return
      | some copy => push copy
  | .get none => return
  | .get (some template) => do
    match ← Pool.request template.species with
    | none => return
    | some creature => push creature
  | .merge => mergeTop
  | .mutate p => do
    match ← pop with
    | none => return
    | some top => push (← mutate p top)
  | .put => do
    match ← pop with
    | none => return
    | some top => Pool.put top
  | .sequence genes => runAll genes

def runSlot : Option Gene → Act Unit
  | none => return
  | some g => run g

def runAll : List Gene → Act Unit
  | [] => return
  | g :: gs => do
    run g
    runAll gs

end

/-- Returns the given operands, the top first. -/
def returnAll : List Gene → Act Unit
  | [] => return
  | g :: gs => do
    modify ({ · with stack := gs })
    Pool.put g
    returnAll gs

def reset : Act Unit := do returnAll (← get).stack

end Biotope.Program
