import Biotope.Pool.Exchange

/-!
# Replication

A copy is built out of residents of the pool: each gene of the copy has been a creature
of the species of its bare opcode. Children are copied by toss, and a copy ends
wherever the pool has no suitable creature left.
-/

namespace Biotope.Program

open Act

/-- A creature of the opcode out of its bare species. One of another opcode, which can
only share the fingerprint, goes back. -/
def supply (o : Opcode) : Act (Option Gene) := do
  match ← Pool.request o.species with
  | none => return none
  | some fresh =>
    if fresh.opcode = o then return some fresh
    else
      Pool.put fresh
      return none

def itemsOf : Gene → List Gene
  | .sequence genes => genes
  | _ => []

mutual

/-- A copy of the creature, if the pool supplies its root. -/
def replicate (p : Probability) : Gene → Act (Option Gene)
  | .branch q left right => do
    match ← supply .branch with
    | none => return none
    | some _ =>
      let left ← replicateSlot p left
      let right ← replicateSlot p right
      return some (.branch q left right)
  | .chop q => do return (← supply .chop).map fun _ => .chop q
  | .copy q => do return (← supply .copy).map fun _ => .copy q
  | .get template => do
    match ← supply .get with
    | none => return none
    | some _ => return some (.get (← replicateTemplate p template))
  | .merge => supply .merge
  | .mutate q => do return (← supply .mutate).map fun _ => .mutate q
  | .put => supply .put
  | .sequence genes => do
    match ← supply .sequence with
    | none => return none
    | some fresh => return some (.sequence (itemsOf fresh ++ (← replicateAll p genes)))

def replicateSlot (p : Probability) : Option Gene → Act (Option Gene)
  | none => return none
  | some child => do
    if ← Pool.flip p then replicate p child else return none

def replicateTemplate (p : Probability) : Option Gene → Act (Option Gene)
  | none => return none
  | some template => replicate p template

/-- Copies of those items that the tosses allow and the pool supplies. -/
def replicateAll (p : Probability) : List Gene → Act (List Gene)
  | [] => return []
  | item :: items => do
    if ← Pool.flip p then
      match ← replicate p item with
      | some copy => return copy :: (← replicateAll p items)
      | none => replicateAll p items
    else replicateAll p items

end

end Biotope.Program
