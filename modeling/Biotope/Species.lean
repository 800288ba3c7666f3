import Biotope.Gene.Basic

/-!
# Species

The creatures of one shape, in a bucket. A member leaves by having the last one take
its place, so only the order within the bucket changes.
-/

namespace Biotope

structure Species where
  members : Array Gene := #[]
deriving Inhabited

namespace Species

def size (s : Species) : Nat := s.members.size

def isExtinct (s : Species) : Bool := s.members.isEmpty

def add (s : Species) (g : Gene) : Species := ⟨s.members.push g⟩

/-- Takes one item out and lets the last one fill its place. -/
def swapRemove (a : Array Gene) (i : Fin a.size) : Array Gene :=
  (a.swap i (a.size - 1) i.isLt (by have := i.isLt; omega)).pop

/-- Removes a uniformly chosen member; draws nothing if there is none. -/
def select (s : Species) : Draw (Option (Gene × Species)) :=
  if h : 0 < s.members.size then do
    let i ← Stream.below s.members.size h
    return some (s.members[i], ⟨swapRemove s.members i⟩)
  else return none

def sample (s : Species) : Draw (Option Gene) :=
  if h : 0 < s.members.size then do
    let i ← Stream.below s.members.size h
    return some s.members[i]
  else return none

end Species

end Biotope
