import Biotope.Probability

/-!
# Genes

A creature is a program, and a program is the tree below its root gene. A gene owns
its children, so every subtree has one parent.
-/

namespace Biotope

inductive Opcode where
  | branch | chop | copy | get | merge | mutate | put | sequence
deriving DecidableEq, Repr, Inhabited

inductive Gene where
  | branch (probability : Probability) (left right : Option Gene)
  | chop (probability : Probability)
  | copy (probability : Probability)
  | get (template : Option Gene)
  | merge
  | mutate (probability : Probability)
  | put
  | sequence (genes : List Gene)

instance : Inhabited Gene := ⟨.put⟩

namespace Opcode

/-- All opcodes, in the order of weights and of messages. -/
def all : List Opcode := [branch, chop, copy, get, merge, mutate, put, sequence]

def name : Opcode → String
  | branch => "Branch"
  | chop => "Chop"
  | copy => "Copy"
  | get => "Get"
  | merge => "Merge"
  | mutate => "Mutate"
  | put => "Put"
  | sequence => "Sequence"

/-- The position in `all`. -/
def index : Opcode → Fin 8
  | branch => 0
  | chop => 1
  | copy => 2
  | get => 3
  | merge => 4
  | mutate => 5
  | put => 6
  | sequence => 7

def ofIndex : Fin 8 → Opcode
  | 0 => branch
  | 1 => chop
  | 2 => copy
  | 3 => get
  | 4 => merge
  | 5 => mutate
  | 6 => put
  | 7 => sequence

def ofName? (name : String) : Option Opcode := all.find? (·.name == name)

/-- The gene with even chances, no children and no template. -/
def bare : Opcode → Gene
  | branch => .branch .even none none
  | chop => .chop .even
  | copy => .copy .even
  | get => .get none
  | merge => .merge
  | mutate => .mutate .even
  | put => .put
  | sequence => .sequence []

end Opcode

namespace Gene

def opcode : Gene → Opcode
  | branch .. => .branch
  | chop _ => .chop
  | copy _ => .copy
  | get _ => .get
  | merge => .merge
  | mutate _ => .mutate
  | put => .put
  | sequence _ => .sequence

/-! ## Size -/

mutual

def size : Gene → Nat
  | branch _ left right => 1 + (sizeSlot left + sizeSlot right)
  | get template => 1 + sizeSlot template
  | sequence genes => 1 + sizeAll genes
  | chop _ | copy _ | merge | mutate _ | put => 1

def sizeSlot : Option Gene → Nat
  | none => 0
  | some g => size g

def sizeAll : List Gene → Nat
  | [] => 0
  | g :: gs => size g + sizeAll gs

end

/-! ## Depth -/

mutual

/-- The number of levels in the tree; a lone gene has one. -/
def depth : Gene → Nat
  | branch _ left right => 1 + max (depthSlot left) (depthSlot right)
  | get template => 1 + depthSlot template
  | sequence genes => 1 + depthAll genes
  | chop _ | copy _ | merge | mutate _ | put => 1

def depthSlot : Option Gene → Nat
  | none => 0
  | some g => depth g

def depthAll : List Gene → Nat
  | [] => 0
  | g :: gs => max (depth g) (depthAll gs)

end

/-! ## Comparison -/

mutual

/-- Equality of trees, probabilities being compared as numbers. -/
def same : Gene → Gene → Bool
  | branch p l r, branch q l' r' => p == q && sameSlot l l' && sameSlot r r'
  | chop p, chop q | copy p, copy q | mutate p, mutate q => p == q
  | get t, get t' => sameSlot t t'
  | merge, merge | put, put => true
  | sequence gs, sequence gs' => sameAll gs gs'
  | _, _ => false

def sameSlot : Option Gene → Option Gene → Bool
  | none, none => true
  | some g, some h => same g h
  | _, _ => false

def sameAll : List Gene → List Gene → Bool
  | [], [] => true
  | g :: gs, h :: hs => same g h && sameAll gs hs
  | _, _ => false

end

instance : BEq Gene := ⟨same⟩

end Gene

end Biotope
