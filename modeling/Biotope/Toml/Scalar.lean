import Biotope.Decimal.Numeral
import Biotope.Timestamp
import Biotope.Toml.Value

/-!
# TOML scalars

Words that stand for a value: booleans, numbers, dates and times. A word is judged as a
whole, so what may follow it is of no concern here.
-/

namespace Biotope.Toml

/-! ## Numbers -/

/-- Groups of digits with one underscore between two of them; the digits without the
underscores. -/
def groups? (isDigit : Char → Bool) (cs : List Char) : Option (List Char) :=
  let groups := cs.splitOn '_'
  if groups.all fun g => !g.isEmpty && g.all isDigit then some groups.flatten else none

/-- The number that digits denote in a base up to 16. -/
def baseValue (base : Nat) (ds : List Char) : Nat :=
  ds.foldl (fun n c =>
    let d := if c.isDigit then c.toNat - '0'.toNat else c.toLower.toNat - 'a'.toNat + 10
    n * base + d) 0

def isHexDigit (c : Char) : Bool :=
  c.isDigit || ('a' ≤ c && c ≤ 'f') || ('A' ≤ c && c ≤ 'F')

/-- Digits of a whole part: no zero in front of another digit. -/
def whole? (cs : List Char) : Option (List Char) := do
  let ds ← groups? Char.isDigit cs
  guard (ds.length = 1 ∨ ds.head? ≠ some '0')
  return ds

/-- An integer of 64 bits, in base ten with a sign or in another base without one. -/
def integer? (cs : List Char) : Option Int := do
  let n : Int ← match cs with
    | '0' :: 'x' :: cs => (fun ds => (baseValue 16 ds : Int)) <$> groups? isHexDigit cs
    | '0' :: 'o' :: cs =>
      (fun ds => (baseValue 8 ds : Int)) <$> groups? (fun c => '0' ≤ c && c ≤ '7') cs
    | '0' :: 'b' :: cs =>
      (fun ds => (baseValue 2 ds : Int)) <$> groups? (fun c => c == '0' || c == '1') cs
    | cs =>
      let (negative, cs) := Decimal.splitSign cs
      (fun ds => if negative then -(Decimal.digitsValue ds : Int) else Decimal.digitsValue ds) <$>
        whole? cs
  guard (fits n)
  return n

def isExponentMark (c : Char) : Bool := c == 'e' || c == 'E'

def exponent? (cs : List Char) : Option Int := do
  let (negative, cs) := Decimal.splitSign cs
  let ds ← groups? Char.isDigit cs
  return if negative then -(Decimal.digitsValue ds : Int) else Decimal.digitsValue ds

/-- A float with a fraction, an exponent or both, or the name of one. What is too large
for a float is refused. -/
def float? (cs : List Char) : Option Float := do
  let (negative, cs) := Decimal.splitSign cs
  if cs = ['i', 'n', 'f'] then return Decimal.floatOf negative Decimal.infinityBits
  if cs = ['n', 'a', 'n'] then return Decimal.floatOf negative 0x7ff8000000000000
  let mantissa := cs.takeWhile fun c => !isExponentMark c
  let power := (cs.dropWhile fun c => !isExponentMark c).drop 1
  let e ← if mantissa.length = cs.length then some 0 else exponent? power
  let whole ← whole? (mantissa.takeWhile (· != '.'))
  let rest := mantissa.dropWhile (· != '.')
  let fraction ← match rest with
    | [] => some []
    | _ :: cs => groups? Char.isDigit cs
  guard (!rest.isEmpty || mantissa.length < cs.length)
  let x : Float :=
    (⟨Decimal.digitsValue (whole ++ fraction), e - fraction.length⟩ : Decimal).toFloat negative
  guard (Decimal.isFinite x)
  return x

/-! ## Dates and times -/

/-- A number of exactly `width` digits within bounds, and the rest. -/
def field? (width least greatest : Nat) (cs : List Char) : Option (Nat × List Char) := do
  let ds := cs.take width
  guard (ds.length = width ∧ ds.all Char.isDigit)
  let n := Decimal.digitsValue ds
  guard (least ≤ n ∧ n ≤ greatest)
  return (n, cs.drop width)

def past? (mark : Char) : List Char → Option (List Char)
  | c :: cs => if c = mark then some cs else none
  | [] => none

def date? (cs : List Char) : Option (String × List Char) := do
  let (year, cs) ← field? 4 0 9999 cs
  let (month, cs) ← field? 2 1 12 (← past? '-' cs)
  let (day, cs) ← field? 2 1 (Timestamp.daysIn year month) (← past? '-' cs)
  return (Decimal.padded 4 year ++ "-" ++ Decimal.padded 2 month ++ "-" ++ Decimal.padded 2 day, cs)

/-- A fraction of a second: one to nine digits, without further zeros at the end. -/
def fractionText (ds : List Char) : String :=
  let kept := ((ds.take 9).reverse.dropWhile (· == '0')).reverse
  "." ++ if kept.isEmpty then "0" else String.ofList kept

def seconds? (cs : List Char) : Option (String × List Char) := do
  let (second, cs) ← field? 2 0 60 cs
  let text := Decimal.padded 2 second
  match cs with
  | '.' :: cs =>
    let ds := cs.takeWhile Char.isDigit
    guard (!ds.isEmpty)
    return (text ++ fractionText ds, cs.dropWhile Char.isDigit)
  | cs => return (text, cs)

def time? (cs : List Char) : Option (String × List Char) := do
  let (hour, cs) ← field? 2 0 23 cs
  let (minute, cs) ← field? 2 0 59 (← past? ':' cs)
  let clock := Decimal.padded 2 hour ++ ":" ++ Decimal.padded 2 minute
  match cs with
  | ':' :: cs =>
    let (seconds, cs) ← seconds? cs
    return (clock ++ ":" ++ seconds, cs)
  | cs => return (clock, cs)

def zone? : List Char → Option String
  | [] => some ""
  | ['Z'] | ['z'] => some "Z"
  | sign :: cs => do
    guard (sign = '+' ∨ sign = '-')
    let (hour, cs) ← field? 2 0 23 cs
    let (minute, cs) ← field? 2 0 59 (← past? ':' cs)
    guard cs.isEmpty
    let sign := if hour = 0 ∧ minute = 0 then "+" else String.ofList [sign]
    return sign ++ Decimal.padded 2 hour ++ ":" ++ Decimal.padded 2 minute

/-- A date, a time, or a date and a time with or without an offset. -/
def moment? (cs : List Char) : Option String :=
  match date? cs with
  | some (date, []) => some date
  | some (date, mark :: cs) => do
    guard (mark = 'T' ∨ mark = 't' ∨ mark = ' ')
    let (time, cs) ← time? cs
    return date ++ "T" ++ time ++ (← zone? cs)
  | none => do
    let (time, cs) ← time? cs
    guard cs.isEmpty
    return time

/-! ## Words -/

def scalar? (cs : List Char) : Option Value :=
  if cs = ['t', 'r', 'u', 'e'] then some (.bool true)
  else if cs = ['f', 'a', 'l', 's', 'e'] then some (.bool false)
  else
    (integer? cs).map Value.integer <|> (float? cs).map Value.float <|>
      (moment? cs).map Value.moment

end Biotope.Toml
