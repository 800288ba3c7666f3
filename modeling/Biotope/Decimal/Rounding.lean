/-!
# Rounding

Quotients rounded to whole numbers and to doubles. A half goes to the even
neighbour, and `nearestBits n d` is the bit pattern of the double nearest to
`n / d`.
-/

namespace Biotope.Decimal

/-- `n / d` as the nearest whole number, a half going to the even neighbour. -/
def roundDiv (n d : Nat) : Nat :=
  let q := n / d
  let r := n % d
  if 2 * r < d then q else if d < 2 * r then q + 1 else q + q % 2

def infinityBits : Nat := 0x7ff0000000000000

/-! ## Doubles as dyadic fractions -/

/-- A finite double is `significand * 2 ^ scale`, up to its sign. -/
structure Dyadic where
  significand : Nat
  scale : Int
deriving Repr, DecidableEq

/-- The dyadic fraction behind a bit pattern whose sign is dropped. -/
def Dyadic.ofBits (bits : Nat) : Dyadic :=
  let fraction : Nat := bits % (1 <<< 52)
  let exponent : Nat := (bits >>> 52) % (1 <<< 11)
  if exponent = 0 then ⟨fraction, -1074⟩ else ⟨fraction + (1 <<< 52), (exponent : Int) - 1075⟩

def Dyadic.ratio (x : Dyadic) : Nat × Nat :=
  if 0 ≤ x.scale then (x.significand <<< x.scale.toNat, 1)
  else (x.significand, 1 <<< (-x.scale).toNat)

/-- The scale at which `n / d` has 53 binary digits, or the least scale there is. -/
def scaleOf (n d : Nat) : Int :=
  let k : Int := (n.log2 : Int) - d.log2
  let below : Bool :=
    if 0 ≤ k then n < d <<< k.toNat else n <<< (-k).toNat < d
  max (-1074) (if below then k - 53 else k - 52)

/-- Bit pattern of the double nearest to `n / d`; infinity beyond the largest. A carry
out of the significand lands in the exponent, so the sum is right there too. -/
def nearestBits (n d : Nat) : Nat :=
  if n = 0 then 0
  else
    let q := scaleOf n d
    let m := if 0 ≤ q then roundDiv n (d <<< q.toNat) else roundDiv (n <<< (-q).toNat) d
    min (m + ((q + 1074).toNat <<< 52)) infinityBits

/-! ## Floats by their bits -/

def magnitudeBits (x : Float) : Nat := x.toBits.toNat % (1 <<< 63)

/-- Whether the sign bit is set, also on a zero. -/
def signBit (x : Float) : Bool := 1 <<< 63 ≤ x.toBits.toNat

def floatOf (negative : Bool) (bits : Nat) : Float :=
  Float.ofBits (bits + if negative then 1 <<< 63 else 0).toUInt64

/-- Neither infinite nor a NaN. -/
def isFinite (x : Float) : Bool := magnitudeBits x < infinityBits

/-- Infinite and not a NaN. -/
def isInfinite (x : Float) : Bool := magnitudeBits x = infinityBits

end Biotope.Decimal
