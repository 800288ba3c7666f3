import Biotope.Decimal.Rounding

/-!
# Decimal numbers and the shortest decimal of a double

`Decimal.toFloat` reads a decimal number as the nearest double. `shortest` finds
the decimal number with the fewest digits that reads back as the same double, and
of those with equally many digits the nearest. A candidate is accepted because it
reads back, so reading undoes `shortest` by construction.
-/

namespace Biotope

/-- The number `coefficient * 10 ^ exponent`. -/
structure Decimal where
  coefficient : Nat
  exponent : Int
deriving Repr, DecidableEq

namespace Decimal

/-- Number of decimal digits of a positive number; one for zero. -/
def digitCount (n : Nat) : Nat := (Nat.toDigits 10 n).length

/-- Bits of the nearest double. Beyond the two cut-offs every number overflows or
vanishes, so that no huge power is computed. -/
def bits (x : Decimal) : Nat :=
  if x.coefficient = 0 then 0
  else
    let top := digitCount x.coefficient + x.exponent
    if 400 < top then infinityBits
    else if top < -400 then 0
    else if 0 ≤ x.exponent then nearestBits (x.coefficient * Nat.pow 10 x.exponent.toNat) 1
    else nearestBits x.coefficient (Nat.pow 10 (-x.exponent).toNat)

def toFloat (negative : Bool) (x : Decimal) : Float := floatOf negative x.bits

/-! ## The shortest decimal -/

/-- The least `k` from the given one on with `n / d < 10 ^ k`, within the fuel. -/
def leadingFrom (n d : Nat) : Nat → Int → Int
  | 0, k => k
  | fuel + 1, k =>
    let below : Bool := if 0 ≤ k then n < d * Nat.pow 10 k.toNat else n * Nat.pow 10 (-k).toNat < d
    if below then k else leadingFrom n d fuel (k + 1)

/-- The `k` with `10 ^ (k - 1) ≤ n / d < 10 ^ k`, started from the binary logarithm. -/
def leading (n d : Nat) : Int :=
  let k : Int := (n.log2 : Int) - d.log2
  leadingFrom n d 8 ((k - 1) * 30103 / 100000 - 1)

/-- The neighbours of `n / d` on the grid of multiples of `10 ^ e`, the nearer first. -/
def neighbours (n d : Nat) (e : Int) : Decimal × Decimal :=
  let (n, d) := if 0 ≤ e then (n, d * Nat.pow 10 e.toNat) else (n * Nat.pow 10 (-e).toNat, d)
  let q := n / d
  let near := roundDiv n d
  if near = q then (⟨q, e⟩, ⟨q + 1, e⟩) else (⟨q + 1, e⟩, ⟨q, e⟩)

def exactly (x : Dyadic) : Decimal :=
  if 0 ≤ x.scale then ⟨x.significand <<< x.scale.toNat, 0⟩
  else ⟨x.significand * Nat.pow 5 (-x.scale).toNat, x.scale⟩

/-- Searches the grids of `count`, `count + 1`, … digits for a decimal with the bits `b`. -/
def search (n d b : Nat) (k : Int) (otherwise : Decimal) : Nat → Nat → Decimal
  | 0, _ => otherwise
  | fuel + 1, count =>
    let (near, far) := neighbours n d (k - count)
    if near.bits = b then near
    else if far.bits = b then far
    else search n d b k otherwise fuel (count + 1)

/-- The decimal with the fewest digits whose nearest double has the bits `b`. -/
def shortestOfBits (b : Nat) : Decimal :=
  let x := Dyadic.ofBits b
  let (n, d) := x.ratio
  if n = 0 then ⟨0, 0⟩ else search n d b (leading n d) (exactly x) 17 1

def shortest (x : Float) : Decimal := shortestOfBits (magnitudeBits x)

end Decimal

end Biotope
