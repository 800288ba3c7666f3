import Biotope.Decimal.Layout
import Biotope.Text.Blank

/-!
# Timestamps

Moments in RFC 3339, read with some tolerance: blanks may stand between the parts, and
numbers may be short. They are kept and written in universal time. A leap second keeps
its sixtieth second.
-/

namespace Biotope

structure Timestamp where
  year : Int
  month : Nat
  day : Nat
  hour : Nat
  minute : Nat
  /-- Up to 60. -/
  second : Nat
  nanosecond : Nat
deriving DecidableEq, Repr, Inhabited

inductive TimestampError where
  | invalid | tooShort | tooLong | outOfRange | impossible
deriving DecidableEq, Repr

def TimestampError.message : TimestampError → String
  | invalid => "input contains invalid characters"
  | tooShort => "premature end of input"
  | tooLong => "trailing input"
  | outOfRange => "input is out of range"
  | impossible => "no possible date and time matching input"

namespace Timestamp

/-! ## The calendar -/

def isLeap (year : Int) : Bool := year % 4 == 0 && (year % 100 != 0 || year % 400 == 0)

def daysIn (year : Int) (month : Nat) : Nat :=
  match month with
  | 2 => if isLeap year then 29 else 28
  | 4 | 6 | 9 | 11 => 30
  | _ => 31

/-- The day before or after in the proleptic Gregorian calendar. -/
def previousDay (t : Timestamp) : Timestamp :=
  if 1 < t.day then { t with day := t.day - 1 }
  else if 1 < t.month then
    { t with month := t.month - 1, day := daysIn t.year (t.month - 1) }
  else { t with year := t.year - 1, month := 12, day := 31 }

def nextDay (t : Timestamp) : Timestamp :=
  if t.day < daysIn t.year t.month then { t with day := t.day + 1 }
  else if t.month < 12 then { t with month := t.month + 1, day := 1 }
  else { t with year := t.year + 1, month := 1, day := 1 }

/-- Year, month and day of the `n`-th day after the first of March of the year zero. Years
are counted from March on, so that a leap day is the last day of its year. -/
def ofDayNumber (n : Int) : Int × Nat × Nat :=
  let era := n / 146097
  let day := (n % 146097).toNat
  let year := (day - day / 1460 + day / 36524 - day / 146096) / 365
  let dayOfYear := day - (365 * year + year / 4 - year / 100)
  let month := (5 * dayOfYear + 2) / 153
  let dayOfMonth := dayOfYear - (153 * month + 2) / 5 + 1
  let y : Int := era * 400 + year
  if month < 10 then (y, month + 3, dayOfMonth) else (y + 1, month - 9, dayOfMonth)

def ofUnixSeconds (seconds : Int) (nanosecond : Nat) : Timestamp :=
  let (year, month, day) := ofDayNumber (seconds / 86400 + 719468)
  let s := (seconds % 86400).toNat
  ⟨year, month, day, s / 3600, s / 60 % 60, s % 60, nanosecond⟩

/-- Subtracts an offset of whole minutes and less than a day. -/
def minus (t : Timestamp) (minutes : Int) : Timestamp :=
  let m : Int := t.hour * 60 + t.minute - minutes
  let wrapped := (m % 1440).toNat
  let u := { t with hour := wrapped / 60, minute := wrapped % 60 }
  if m < 0 then u.previousDay else if 1440 ≤ m then u.nextDay else u

def yearFits (year : Int) : Bool := -262143 ≤ year && year ≤ 262142

/-! ## Reading -/

abbrev Scan := Except TimestampError

/-- Between one and `width` digits, as a number. -/
def number (width : Option Nat) (cs : List Char) : Scan (Nat × List Char) :=
  match cs with
  | [] => .error .tooShort
  | c :: _ =>
    if !c.isDigit then .error .invalid
    else
      let ds := cs.takeWhile Char.isDigit
      let ds := match width with | some w => ds.take w | none => ds
      let n := ds.foldl (fun n c => n * 10 + (c.toNat - '0'.toNat)) 0
      if 1 <<< 63 ≤ n then .error .outOfRange else .ok (n, cs.drop ds.length)

/-- A number behind blanks, within bounds. -/
def bounded (width least greatest : Nat) (cs : List Char) : Scan (Nat × List Char) := do
  let (n, cs) ← number (some width) (Text.dropBlanks cs)
  if least ≤ n ∧ n ≤ greatest then return (n, cs) else throw .outOfRange

/-- A year: four digits, or any number of them behind a sign. -/
def signedYear (cs : List Char) : Scan (Int × List Char) := do
  let cs := Text.dropBlanks cs
  let (year, cs) : Int × List Char ← match cs with
    | '-' :: cs => do
      let (n, cs) ← number none cs
      pure (-(n : Int), cs)
    | '+' :: cs => do
      let (n, cs) ← number none cs
      pure ((n : Int), cs)
    | cs => do
      let (n, cs) ← number (some 4) cs
      pure ((n : Int), cs)
  if Int32.minValue.toInt ≤ year ∧ year ≤ Int32.maxValue.toInt then return (year, cs)
  else throw .outOfRange

def mark (c : Char) (cs : List Char) : Scan (List Char) :=
  match Text.dropBlanks cs with
  | [] => .error .tooShort
  | d :: cs => if d = c then .ok cs else .error .invalid

/-- A fraction of a second; digits beyond the ninth are dropped. -/
def fraction (cs : List Char) : Scan (Nat × List Char) := do
  match cs with
  | '.' :: cs =>
    let (n, rest) ← number (some 9) cs
    let digits := cs.length - rest.length
    return (n * Nat.pow 10 (9 - digits), rest.dropWhile Char.isDigit)
  | cs => return (0, cs)

def byteLength (cs : List Char) : Nat := cs.foldl (fun n c => n + c.utf8Size) 0

/-- Two digits, the first up to a limit. -/
def twoDigits (cs : List Char) : Scan (Nat × Nat × List Char) :=
  if byteLength cs < 2 then .error .tooShort
  else
    match cs with
    | a :: b :: cs =>
      if a.isDigit ∧ b.isDigit then .ok (a.toNat - '0'.toNat, b.toNat - '0'.toNat, cs)
      else .error .invalid
    | _ => .error .invalid

def zone (cs : List Char) : Scan (Int × List Char) := do
  let cs := Text.dropBlanks cs
  match cs with
  | 'Z' :: cs | 'z' :: cs => return (0, cs)
  | a :: b :: c :: rest =>
    if a.toLower = 'u' ∧ b.toLower = 't' ∧ c.toLower = 'c' then return (0, rest)
    else numeric cs
  | cs => numeric cs
where
  numeric (cs : List Char) : Scan (Int × List Char) := do
    let (negative, cs) ← match cs with
      | '+' :: cs => pure (false, cs)
      | '-' :: cs | '−' :: cs => pure (true, cs)
      | [] => throw .tooShort
      | _ => throw .invalid
    let (h, h', cs) ← twoDigits cs
    let cs := cs.dropWhile fun c => c == ':' || Text.isBlank c
    let (m, m', cs) ← twoDigits cs
    if 5 < m then throw .outOfRange
    let minutes : Int := (h * 10 + h') * 60 + (m * 10 + m')
    return (if negative then -minutes else minutes, cs)

def parse (text : String) : Scan Timestamp := do
  let (year, cs) ← signedYear text.toList
  let (month, cs) ← bounded 2 1 12 (← mark '-' cs)
  let (day, cs) ← bounded 2 1 31 (← mark '-' cs)
  let cs ← match cs with
    | 't' :: cs | 'T' :: cs | ' ' :: cs => pure cs
    | [] => throw .tooShort
    | _ => throw .invalid
  let (hour, cs) ← bounded 2 0 23 cs
  let (minute, cs) ← bounded 2 0 59 (← mark ':' cs)
  let (second, cs) ← bounded 2 0 60 (← mark ':' cs)
  let (nanosecond, cs) ← fraction cs
  let (minutes, cs) ← zone cs
  if !(Text.dropBlanks cs).isEmpty then throw .tooLong
  if !yearFits year || daysIn year month < day then throw .outOfRange
  if 1440 ≤ minutes.natAbs then throw .outOfRange
  let t := minus ⟨year, month, day, hour, minute, second, nanosecond⟩ minutes
  if !yearFits t.year then throw .impossible
  return t

/-! ## Writing -/

/-- Four digits, or a sign and at least four. -/
def yearText (year : Int) : String :=
  if 0 ≤ year ∧ year ≤ 9999 then Decimal.padded 4 year.toNat
  else (if year < 0 then "-" else "+") ++ Decimal.padded 4 year.natAbs

/-- No fraction, or milliseconds, microseconds or nanoseconds, as few as are exact. -/
def fractionText (n : Nat) : String :=
  if n = 0 then ""
  else if n % 1000000 = 0 then "." ++ Decimal.padded 3 (n / 1000000)
  else if n % 1000 = 0 then "." ++ Decimal.padded 6 (n / 1000)
  else "." ++ Decimal.padded 9 n

def text (t : Timestamp) (zone : String := "+00:00") : String :=
  yearText t.year ++ "-" ++ Decimal.padded 2 t.month ++ "-" ++ Decimal.padded 2 t.day ++ "T" ++
  Decimal.padded 2 t.hour ++ ":" ++ Decimal.padded 2 t.minute ++ ":" ++
  Decimal.padded 2 t.second ++ fractionText t.nanosecond ++ zone

end Timestamp

end Biotope
