/-!
# Species identifiers

A species is known by the 32-bit fingerprint of its shape. Zero is kept free and asks
for any species.
-/

namespace Biotope

structure SpeciesId where
  value : UInt32
deriving DecidableEq, Repr, Inhabited

namespace SpeciesId

/-- Asks for any species. -/
def any : SpeciesId := ⟨0⟩

def isAny (id : SpeciesId) : Bool := id == any

/-- The identifier for a hash; one stands in for zero. -/
def ofHash (hash : UInt32) : SpeciesId := if hash = 0 then ⟨1⟩ else ⟨hash⟩

theorem ofHash_ne_any (hash : UInt32) : ofHash hash ≠ any := by
  unfold ofHash any
  split <;> simp_all

def text (id : SpeciesId) : String :=
  let digits := Nat.toDigits 16 id.value.toNat
  String.ofList (List.replicate (8 - digits.length) '0' ++ digits)

end SpeciesId

end Biotope
