import Biotope.Pool.Exchange

/-!
# Pruning

Pruning detaches children of a creature and releases them into the pool. A child is
pruned before the toss that decides on itself, so what is released has been through
pruning already. Templates are left alone.
-/

namespace Biotope.Program

open Act

mutual

/-- Prunes branch arms and sequence items, each with the given probability. -/
def prune (p : Probability) : Gene → Act Gene
  | .branch q left right => do
    let left ← pruneSlot p left
    let right ← pruneSlot p right
    return .branch q left right
  | .sequence genes => do return .sequence (← pruneAll p genes)
  | .chop q => return .chop q
  | .copy q => return .copy q
  | .get template => return .get template
  | .merge => return .merge
  | .mutate q => return .mutate q
  | .put => return .put

def pruneSlot (p : Probability) : Option Gene → Act (Option Gene)
  | none => return none
  | some child => do
    let child ← prune p child
    if ← Pool.flip p then
      Pool.put child
      return none
    else return some child

def pruneAll (p : Probability) : List Gene → Act (List Gene)
  | [] => return []
  | item :: items => do
    let item ← prune p item
    if ← Pool.flip p then
      Pool.put item
      pruneAll p items
    else return item :: (← pruneAll p items)

end

end Biotope.Program
