import Biotope.Growth.Weights

/-!
# Growing creatures

A grower draws random creatures within a depth limit. Every gene it draws or borrows
is counted on a gauge.
-/

namespace Biotope

/-- How a freshly grown `Get` gene obtains its template. -/
inductive GetPolicy where
  | template
  /-- It borrows the shape of a creature that lives already. -/
  | existingSpecies
deriving DecidableEq, Repr, Inhabited

structure Grower where
  /-- The chance to go on at every place where a creature may grow further. -/
  complexity : Probability
  /-- Levels that a creature may have below its root. -/
  maximumDepth : Nat
  weights : Option Weights := none
  policy : GetPolicy := .template

structure Plot where
  genes : Gauge
  stream : Stream
  requests : Nat := 0

abbrev Growing := EStateM Fault Plot

/-- Offers a template at each request, which is known by its number. -/
abbrev TemplateSource := Nat → Draw (Option Gene)

def TemplateSource.nothing : TemplateSource := fun _ => return none

namespace Growing

def draw {α} (d : Draw α) : Growing α := fun p =>
  let (a, s) := d p.stream
  .ok a { p with stream := s }

def count (c : Counting Int64) : Growing Unit := fun p =>
  match c p.genes with
  | .ok _ g => .ok () { p with genes := g }
  | .error f g => .error f { p with genes := g }

def ask (source : TemplateSource) : Growing (Option Gene) := fun p =>
  let (a, s) := source p.requests p.stream
  .ok a { p with stream := s, requests := p.requests + 1 }

end Growing

namespace Grower

open Growing

def opcode (g : Grower) : Growing Opcode := do
  let o ← match g.weights with
    | some ws => draw ws.sample
    | none => Opcode.ofIndex <$> draw (Stream.below 8 (by decide))
  count Gauge.increment
  return o

/-- Whether to grow on: the complexity or a chance of its own. -/
def goesOn (g : Grower) : Growing Bool := do
  let p ← draw Probability.sample
  draw (g.complexity.or p).toss

/-- A child, if there is room for one and the growth goes on. -/
def slot (g : Grower) : Option (Growing Gene) → Growing (Option Gene)
  | none => return none
  | some child => do
    if ← g.goesOn then return some (← child) else return none

/-- At most the given number of items, until the growth stops. -/
def items (g : Grower) (child : Growing Gene) : Nat → Growing (List Gene)
  | 0 => return []
  | n + 1 => do
    if ← g.goesOn then
      let item ← child
      return item :: (← g.items child n)
    else return []

/-- A borrowed template, which is counted if it fits into the room that is left. -/
def borrow (source : TemplateSource) (room : Nat) : Growing (Option Gene) := do
  match ← ask source with
  | none => return none
  | some shape =>
    if 0 < room ∧ shape.depth ≤ room then
      count (Gauge.add (Int64.ofNat shape.size))
      return some shape
    else return none

/-- A gene with `room` levels left below it, its children grown by `child`. -/
def gene (g : Grower) (source : TemplateSource) (room : Nat) (child : Option (Growing Gene)) :
    Growing Gene := do
  match ← g.opcode with
  | .branch =>
    let left ← g.slot child
    let right ← g.slot child
    return .branch (← draw Probability.sample) left right
  | .chop => return .chop (← draw Probability.sample)
  | .copy => return .copy (← draw Probability.sample)
  | .get =>
    match g.policy with
    | .template => return .get (← g.slot child)
    | .existingSpecies => return .get (← borrow source room)
  | .merge => return .merge
  | .mutate => return .mutate (← draw Probability.sample)
  | .put => return .put
  | .sequence =>
    match child with
    | none => return .sequence []
    | some child => return .sequence (← g.items child room)

/-- A tree with at most `room` levels below its root. -/
def grow (g : Grower) (source : TemplateSource) : Nat → Growing Gene
  | 0 => g.gene source 0 none
  | room + 1 => g.gene source (room + 1) (some (g.grow source room))

def creature (g : Grower) (source : TemplateSource) : Growing Gene :=
  g.grow source g.maximumDepth

end Grower

end Biotope
