import Biotope.Decimal.Shortest

/-!
# Numerals

Texts that denote numbers: whole numbers with a sign, and floats in positional or
scientific form or by name. Neither blanks nor separators may stand in them.
-/

namespace Biotope.Decimal

def digitsValue (ds : List Char) : Nat := ds.foldl (fun n c => n * 10 + (c.toNat - '0'.toNat)) 0

def isDigits (ds : List Char) : Bool := !ds.isEmpty && ds.all Char.isDigit

/-- A sign in front of the rest; whether it is a minus. -/
def splitSign : List Char → Bool × List Char
  | '-' :: cs => (true, cs)
  | '+' :: cs => (false, cs)
  | cs => (false, cs)

/-! ## Whole numbers -/

def int? (text : String) : Option Int :=
  let (negative, ds) := splitSign text.toList
  if isDigits ds then some (if negative then -(digitsValue ds : Int) else digitsValue ds) else none

/-- A natural number; a plus may stand before it. -/
def nat? (text : String) : Option Nat :=
  let ds := match text.toList with
    | '+' :: cs => cs
    | cs => cs
  if isDigits ds then some (digitsValue ds) else none

/-! ## Floats -/

def named? (negative : Bool) (name : List Char) : Option Float :=
  let name := String.ofList (name.map Char.toLower)
  if name = "nan" then some (floatOf negative 0x7ff8000000000000)
  else if name = "inf" ∨ name = "infinity" then some (floatOf negative infinityBits)
  else none

/-- Whole part, fraction and exponent. Digits may be missing on one side of the point. -/
def parts? (cs : List Char) : Option Decimal := do
  let whole := cs.takeWhile Char.isDigit
  let rest := cs.dropWhile Char.isDigit
  let (fraction, rest) := match rest with
    | '.' :: cs => (cs.takeWhile Char.isDigit, cs.dropWhile Char.isDigit)
    | cs => ([], cs)
  guard (!(whole.isEmpty && fraction.isEmpty))
  let exponent ← match rest with
    | [] => some 0
    | e :: cs =>
      if e = 'e' ∨ e = 'E' then
        let (negative, ds) := splitSign cs
        if isDigits ds then some (if negative then -(digitsValue ds : Int) else digitsValue ds)
        else none
      else none
  return ⟨digitsValue (whole ++ fraction), exponent - fraction.length⟩

def float? (text : String) : Option Float :=
  let (negative, cs) := splitSign text.toList
  match parts? cs with
  | some d => some (d.toFloat negative)
  | none => named? negative cs

end Biotope.Decimal
