import Biotope.Pool.Exchange

/-!
# Mutation

Mutation redraws probabilities, swaps branch arms and moves sequence items, children
before their parents. Every change takes a toss. Redrawing keeps the species of the
creature, the others may change it.
-/

namespace Biotope.Program

open Act

def redraw (p q : Probability) : Act Probability := do
  if ← Pool.flip p then draw Probability.sample else return q

/-- Moves one item of two or more to another place, if the toss allows it. -/
def relocate (p : Probability) (genes : List Gene) : Act (List Gene) := do
  if h : 1 < genes.length then
    if ← Pool.flip p then
      let i ← draw (Stream.below genes.length (by omega))
      let rest := genes.eraseIdx i
      let j ← draw (Stream.below (rest.length + 1) (Nat.succ_pos _))
      return rest.insertIdx j genes[i]
    else return genes
  else return genes

mutual

def mutate (p : Probability) : Gene → Act Gene
  | .branch q left right => do
    let left ← mutateSlot p left
    let right ← mutateSlot p right
    let q ← redraw p q
    if ← Pool.flip p then return .branch q right left else return .branch q left right
  | .chop q => do return .chop (← redraw p q)
  | .copy q => return .copy q
  | .get template => do return .get (← mutateSlot p template)
  | .merge => return .merge
  | .mutate q => do return .mutate (← redraw p q)
  | .put => return .put
  | .sequence genes => do return .sequence (← relocate p (← mutateAll p genes))

def mutateSlot (p : Probability) : Option Gene → Act (Option Gene)
  | none => return none
  | some child => do return some (← mutate p child)

def mutateAll (p : Probability) : List Gene → Act (List Gene)
  | [] => return []
  | item :: items => do
    let item ← mutate p item
    return item :: (← mutateAll p items)

end

end Biotope.Program
