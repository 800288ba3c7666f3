import Biotope.Decimal.Shortest

/-!
# Layouts of floats

A `Layout` says how a float is spelled once its digits are known. `plain` is for
messages, `inJson` for stored pools, `inToml` for settings. `fixed` writes a given
number of places.
-/

namespace Biotope.Decimal

/-- A spelling of floats. With `0.d₁d₂… * 10 ^ k` for the number, the positional form
is used while `k` lies between the bounds. -/
structure Layout where
  /-- The positional form ends below this `k`. -/
  least : Option Int
  /-- The positional form ends above this `k`. -/
  greatest : Option Int
  /-- Whether a whole number ends in `.0`. -/
  pointed : Bool
  notANumber : String
  infinity : String

/-- Positional at any size, whole numbers without a point. -/
def plain : Layout := ⟨none, none, false, "NaN", "inf"⟩

/-- Positional from `1e-5` up to below `1e16`. -/
def inJson : Layout := ⟨some (-4), some 16, true, "null", "null"⟩

/-- Positional at any size, always with a point. -/
def inToml : Layout := ⟨none, none, true, "nan", "inf"⟩

def zeros (n : Nat) : String := String.ofList (List.replicate n '0')

/-- The digits with the point after the `k`-th, zeros filling up on either side. -/
def positional (pointed : Bool) (digits : List Char) (k : Int) : String :=
  if k ≤ 0 then "0." ++ zeros (-k).toNat ++ String.ofList digits
  else
    let whole := digits.take k.toNat
    let rest := digits.drop k.toNat
    let padding := zeros (k.toNat - digits.length)
    let tail := if rest.isEmpty then (if pointed then ".0" else "") else "." ++ String.ofList rest
    String.ofList whole ++ padding ++ tail

/-- One digit before the point, and an exponent with its sign. -/
def scientific (digits : List Char) (k : Int) : String :=
  let point := if digits.length ≤ 1 then "" else "." ++ String.ofList (digits.drop 1)
  let e := k - 1
  let exponent := if e < 0 then "-" ++ toString (-e).toNat else "+" ++ toString e.toNat
  String.ofList (digits.take 1) ++ point ++ "e" ++ exponent

/-- Coefficient digits without trailing zeros, and the `k` of the leading digit. -/
def significantDigits (x : Decimal) : List Char × Int :=
  let digits := Nat.toDigits 10 x.coefficient
  let kept := (digits.reverse.dropWhile (· == '0')).reverse
  (kept, digits.length + x.exponent)

def Layout.write (l : Layout) (x : Float) : String :=
  let sign := if signBit x then "-" else ""
  if isFinite x then
    let d := shortest x
    if d.coefficient = 0 then sign ++ (if l.pointed then "0.0" else "0")
    else
      let (digits, k) := significantDigits d
      let tooSmall := match l.least with | some b => decide (k < b) | none => false
      let tooLarge := match l.greatest with | some b => decide (b < k) | none => false
      sign ++ (if tooSmall || tooLarge then scientific digits k else positional l.pointed digits k)
  else if isInfinite x then sign ++ l.infinity
  else l.notANumber

/-- `n` in at least `width` digits. -/
def padded (width n : Nat) : String :=
  let s := toString n
  zeros (width - s.length) ++ s

/-- A finite float with the given number of places, rounded from its exact value. -/
def fixed (places : Nat) (x : Float) : String :=
  let (n, d) := (Dyadic.ofBits (magnitudeBits x)).ratio
  let unit := Nat.pow 10 places
  let scaled := roundDiv (n * unit) d
  let sign := if signBit x then "-" else ""
  sign ++ toString (scaled / unit) ++ "." ++ padded places (scaled % unit)

end Biotope.Decimal
