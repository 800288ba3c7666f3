import Biotope.Decimal.Numeral
import Biotope.Json.Node

/-!
# Reading JSON

`read` reads one value and looks for anything but blanks behind it. Numbers become
64-bit integers where they are written as such and fit, and doubles otherwise.
Nesting may be of any depth: each step reads at least one character, so the length of
the text bounds the recursion.
-/

namespace Biotope.Json

def isBlank (c : Char) : Bool := c == ' ' || c == '\n' || c == '\t' || c == '\r'

def skipBlanks (rest : List Char) (offset : Nat) : Cursor :=
  match rest with
  | [] => ⟨[], offset⟩
  | c :: cs => if isBlank c then skipBlanks cs (offset + 1) else ⟨c :: cs, offset⟩

/-! ## Strings -/

def hexValue? (c : Char) : Option Nat :=
  if '0' ≤ c ∧ c ≤ '9' then some (c.toNat - '0'.toNat)
  else if 'a' ≤ c ∧ c ≤ 'f' then some (c.toNat - 'a'.toNat + 10)
  else if 'A' ≤ c ∧ c ≤ 'F' then some (c.toNat - 'A'.toNat + 10)
  else none

def hex4? (a b c d : Char) : Option Nat := do
  let a ← hexValue? a
  let b ← hexValue? b
  let c ← hexValue? c
  let d ← hexValue? d
  return ((a * 16 + b) * 16 + c) * 16 + d

/-- What stands in place of four hexadecimal digits; four bytes are read of it. -/
def hexFlaw (cs : List Char) (offset : Nat) : Flaw :=
  let bytes := (cs.take 4).foldl (fun n c => n + c.utf8Size) 0
  if bytes < 4 then ⟨.eofInString, offset + bytes⟩ else ⟨.invalidEscape, offset + 4⟩

/-- What is wrong when no second half follows the first half of a pair. Only the end of the
text is wrong in a skipped string too. -/
def halfPairFlaw (cs : List Char) (offset : Nat) : Option Flaw × Option Flaw :=
  match cs with
  | [] => (none, some ⟨.eofInString, offset⟩)
  | ['\\'] => (none, some ⟨.eofInString, offset + 1⟩)
  | '\\' :: 'u' :: cs => (none, some (hexFlaw cs (offset + 2)))
  | '\\' :: _ => (some ⟨.halfSurrogatePair, offset + 2⟩, none)
  | _ => (some ⟨.halfSurrogatePair, offset + 1⟩, none)

def isHighSurrogate (n : Nat) : Bool := 0xD800 ≤ n && n < 0xDC00

def isLowSurrogate (n : Nat) : Bool := 0xDC00 ≤ n && n < 0xE000

def unescaped? : Char → Option Char
  | '"' => some '"'
  | '\\' => some '\\'
  | '/' => some '/'
  | 'b' => some '\x08'
  | 'f' => some '\x0c'
  | 'n' => some '\n'
  | 'r' => some '\r'
  | 't' => some '\t'
  | _ => none

/-- Reads the characters of a string behind the opening quote. The characters so far
are in `acc`, the last first. -/
def readChars (acc : List Char) (soft : Option Flaw) :
    List Char → Nat → StringToken × Cursor
  | [], offset => (⟨String.ofList acc.reverse, soft, some ⟨.eofInString, offset⟩⟩, ⟨[], offset⟩)
  | '"' :: cs, offset => (⟨String.ofList acc.reverse, soft, none⟩, ⟨cs, offset + 1⟩)
  | ['\\'], offset =>
    (⟨String.ofList acc.reverse, soft, some ⟨.eofInString, offset + 1⟩⟩, ⟨[], offset + 1⟩)
  | '\\' :: 'u' :: a :: b :: c :: d :: '\\' :: 'u' :: e :: f :: g :: h :: cs, offset =>
    match hex4? a b c d with
    | none => (⟨String.ofList acc.reverse, soft, some (hexFlaw [a, b, c, d] (offset + 2))⟩, ⟨[], 0⟩)
    | some n =>
      if isHighSurrogate n then
        match hex4? e f g h with
        | none =>
          (⟨String.ofList acc.reverse, soft, some (hexFlaw [e, f, g, h] (offset + 8))⟩, ⟨[], 0⟩)
        | some m =>
          if isLowSurrogate m then
            let char := Char.ofNat (0x10000 + (n - 0xD800) * 0x400 + (m - 0xDC00))
            readChars (char :: acc) soft cs (offset + 12)
          else readChars acc (soft.or (some ⟨.loneSurrogate, offset + 12⟩)) cs (offset + 12)
      else if isLowSurrogate n then
        readChars acc (soft.or (some ⟨.loneSurrogate, offset + 6⟩))
          ('\\' :: 'u' :: e :: f :: g :: h :: cs) (offset + 6)
      else
        readChars (Char.ofNat n :: acc) soft ('\\' :: 'u' :: e :: f :: g :: h :: cs) (offset + 6)
  | '\\' :: 'u' :: a :: b :: c :: d :: cs, offset =>
    match hex4? a b c d with
    | none => (⟨String.ofList acc.reverse, soft, some (hexFlaw [a, b, c, d] (offset + 2))⟩, ⟨[], 0⟩)
    | some n =>
      if isHighSurrogate n then
        match halfPairFlaw cs (offset + 6) with
        | (_, some f) => (⟨String.ofList acc.reverse, soft, some f⟩, ⟨[], 0⟩)
        | (half, none) => readChars acc (soft.or half) cs (offset + 6)
      else if isLowSurrogate n then
        readChars acc (soft.or (some ⟨.loneSurrogate, offset + 6⟩)) cs (offset + 6)
      else readChars (Char.ofNat n :: acc) soft cs (offset + 6)
  | '\\' :: 'u' :: cs, offset =>
    (⟨String.ofList acc.reverse, soft, some (hexFlaw cs (offset + 2))⟩, ⟨[], 0⟩)
  | '\\' :: c :: cs, offset =>
    match unescaped? c with
    | some c => readChars (c :: acc) soft cs (offset + 2)
    | none =>
      (⟨String.ofList acc.reverse, soft, some ⟨.invalidEscape, offset + 2⟩⟩, ⟨[], offset + 2⟩)
  | c :: cs, offset =>
    if c.toNat < 32 then
      (⟨String.ofList acc.reverse, soft, some ⟨.controlCharacter, offset + 1⟩⟩, ⟨[], offset + 1⟩)
    else readChars (c :: acc) soft cs (offset + c.utf8Size)

/-! ## Numbers -/

def spanDigits (cs : List Char) : List Char × List Char :=
  (cs.takeWhile Char.isDigit, cs.dropWhile Char.isDigit)

def numberOf (negative : Bool) (whole fraction : List Char) (exponent : Option Int) : Number :=
  let n := Decimal.digitsValue whole
  if fraction.isEmpty ∧ exponent = none ∧ !negative ∧ n < UInt64.size then .natural n
  else if fraction.isEmpty ∧ exponent = none ∧ negative ∧ 0 < n ∧ n ≤ 1 <<< 63 then .negative n
  else
    let d : Decimal := ⟨Decimal.digitsValue (whole ++ fraction), exponent.getD 0 - fraction.length⟩
    if d.bits = Decimal.infinityBits then .tooLarge else .float (d.toFloat negative)

/-- A number that breaks off is the end of a text that is wanted, and no number in one
that is skipped. -/
def numberFlaw (c : Cursor) : Flaw × Flaw :=
  (c.flaw (if c.rest.isEmpty then .eofInValue else .invalidNumber), c.flaw .invalidNumber)

def readSign (c : Cursor) : Bool × Cursor :=
  match c.rest with
  | '-' :: cs => (true, ⟨cs, c.offset + 1⟩)
  | _ => (false, c)

/-- The digits of a whole number at the beginning, and the rest. A zero stands alone. -/
def spanWhole : List Char → List Char × List Char
  | '0' :: cs => (['0'], cs)
  | cs => spanDigits cs

/-- Reads the digits before the point. No digit follows a leading zero. -/
def readWhole (c : Cursor) : Except (Flaw × Flaw) (List Char × Cursor) :=
  let (whole, cs) := spanWhole c.rest
  if whole.isEmpty then .error (numberFlaw c)
  else
    let c : Cursor := ⟨cs, c.offset + whole.length⟩
    if whole = ['0'] ∧ (c.rest.head?.any Char.isDigit) then
      .error (c.flaw .invalidNumber, c.flaw .invalidNumber)
    else .ok (whole, c)

def readFraction (c : Cursor) : Except (Flaw × Flaw) (List Char × Cursor) :=
  match c.rest with
  | '.' :: cs =>
    let c : Cursor := ⟨cs, c.offset + 1⟩
    let (ds, cs) := spanDigits c.rest
    if ds.isEmpty then .error (numberFlaw c) else .ok (ds, ⟨cs, c.offset + ds.length⟩)
  | _ => .ok ([], c)

def readExponent (c : Cursor) : Except (Flaw × Flaw) (Int × Cursor) :=
  let (negative, c) : Bool × Cursor := match c.rest with
    | '+' :: cs => (false, ⟨cs, c.offset + 1⟩)
    | '-' :: cs => (true, ⟨cs, c.offset + 1⟩)
    | _ => (false, c)
  let (ds, cs) := spanDigits c.rest
  if ds.isEmpty then .error (numberFlaw c)
  else
    let e : Int := Decimal.digitsValue ds
    .ok (if negative then -e else e, ⟨cs, c.offset + ds.length⟩)

def readPower (c : Cursor) : Except (Flaw × Flaw) (Option Int × Cursor) :=
  match c.rest with
  | 'e' :: cs | 'E' :: cs => do
    let (e, c) ← readExponent ⟨cs, c.offset + 1⟩
    return (some e, c)
  | _ => .ok (none, c)

def readNumber (c : Cursor) : Except (Flaw × Flaw) (Number × Cursor) := do
  let (negative, c) := readSign c
  let (whole, c) ← readWhole c
  let (fraction, c) ← readFraction c
  let (exponent, c) ← readPower c
  return (numberOf negative whole fraction exponent, c)

/-! ## Values -/

def readWord (word : List Char) (c : Cursor) : Except Flaw Cursor :=
  match word with
  | [] => .ok c
  | w :: ws =>
    match c.rest with
    | [] => .error (c.flaw .eofInValue)
    | d :: cs => if d = w then readWord ws ⟨cs, c.offset + 1⟩ else .error (c.flaw .expectedIdent)

/-- A word of the given node, or what is wrong with it. -/
def wordNode (word : List Char) (node : Nat → Node) (c : Cursor) : Node × Cursor :=
  match readWord word c with
  | .ok c => (node c.offset, c)
  | .error f => (.broken f f, c)

def missingAt (c : Cursor) (kind : FlawKind) : Node × Cursor := (.missing (c.flaw kind), c)

mutual

def readValue : Nat → Cursor → Node × Cursor
  | 0, c => missingAt c .eofInValue
  | fuel + 1, c =>
    match c.rest with
    | [] => missingAt c .eofInValue
    | '"' :: cs =>
      let (s, d) := readChars [] none cs (c.offset + 1)
      (.string s d.offset, d)
    | '[' :: cs =>
      let d := skipBlanks cs (c.offset + 1)
      match d.rest with
      | ']' :: cs => (.list c.peeked [] (.closed (d.offset + 1)), ⟨cs, d.offset + 1⟩)
      | [] => (.list c.peeked [] (.breach .ended d.offset), d)
      | _ =>
        let (items, ending, e) := readItems fuel d
        (.list c.peeked items ending, e)
    | '{' :: cs =>
      let d := skipBlanks cs (c.offset + 1)
      match d.rest with
      | '}' :: cs => (.object c.peeked [] (.closed (d.offset + 1)), ⟨cs, d.offset + 1⟩)
      | [] => (.object c.peeked [] (.breach .ended d.offset), d)
      | _ =>
        let (entries, ending, e) := readEntries fuel d
        (.object c.peeked entries ending, e)
    | 'n' :: cs => wordNode ['u', 'l', 'l'] .null ⟨cs, c.offset + 1⟩
    | 't' :: cs => wordNode ['r', 'u', 'e'] (.bool true) ⟨cs, c.offset + 1⟩
    | 'f' :: cs => wordNode ['a', 'l', 's', 'e'] (.bool false) ⟨cs, c.offset + 1⟩
    | first :: _ =>
      if first = '-' ∨ first.isDigit then
        match readNumber c with
        | .ok (n, d) => (.number n d.peeked, d)
        | .error (f, g) => (.broken f g, c)
      else (.broken (c.flaw .expectedValue) (c.flaw .expectedValue), c)

/-- Reads the items of a list from the first character of one on. -/
def readItems : Nat → Cursor → List (Item Node) × Ending × Cursor
  | 0, c => ([], .breach .ended c.offset, c)
  | fuel + 1, c =>
    let (node, c) := readValue fuel c
    match node.cut? with
    | some f => ([⟨node, f.offset, f.offset⟩], .within f, c)
    | none =>
      let d := skipBlanks c.rest c.offset
      match d.rest with
      | ']' :: cs => ([⟨node, d.peeked, d.peeked⟩], .closed (d.offset + 1), ⟨cs, d.offset + 1⟩)
      | ',' :: cs =>
        let e := skipBlanks cs (d.offset + 1)
        let item : Item Node := ⟨node, d.peeked, e.peeked⟩
        match e.rest with
        | ']' :: _ => ([item], .breach .closedAfterComma e.peeked, e)
        | [] => ([item], .breach .endedAfterComma e.offset, e)
        | _ =>
          let (items, ending, e) := readItems fuel e
          (item :: items, ending, e)
      | [] => ([⟨node, d.peeked, d.peeked⟩], .breach .ended d.offset, d)
      | _ => ([⟨node, d.peeked, d.peeked⟩], .breach .unseparated d.peeked, d)

/-- Reads the fields of an object from the first character of one on. -/
def readEntries : Nat → Cursor → List (Entry Node) × Ending × Cursor
  | 0, c => ([], .breach .ended c.offset, c)
  | fuel + 1, c =>
    match c.rest with
    | '"' :: cs =>
      let start : Cursor := ⟨cs, c.offset + 1⟩
      let (name, k) := readChars [] none cs start.offset
      match name.hard with
      | some f => ([], .inName start name f, k)
      | none =>
        let k := skipBlanks k.rest k.offset
        let (node, c) : Node × Cursor := match k.rest with
          | ':' :: cs => readValue fuel (skipBlanks cs (k.offset + 1))
          | [] => missingAt k .eofInObject
          | _ => missingAt k .expectedColon
        match node.cut? with
        | some f => ([⟨start, name, k.peeked, node, f.offset, f.offset⟩], .within f, c)
        | none =>
          let d := skipBlanks c.rest c.offset
          let entry : Entry Node := ⟨start, name, k.peeked, node, d.peeked, d.peeked⟩
          match d.rest with
          | '}' :: cs => ([entry], .closed (d.offset + 1), ⟨cs, d.offset + 1⟩)
          | ',' :: cs =>
            let e := skipBlanks cs (d.offset + 1)
            let entry := { entry with next := e.peeked }
            match e.rest with
            | '}' :: _ => ([entry], .breach .closedAfterComma e.peeked, e)
            | [] => ([entry], .breach .endedAfterComma e.offset, e)
            | _ =>
              let (entries, ending, e) := readEntries fuel e
              (entry :: entries, ending, e)
          | [] => ([entry], .breach .ended d.offset, d)
          | _ => ([entry], .breach .unseparated d.peeked, d)
    | _ => ([], .unnamed c.peeked, c)

end

def read (text : String) : Document :=
  let cs := text.toList
  let (root, c) := readValue (cs.length + 1) (skipBlanks cs 0)
  let d := skipBlanks c.rest c.offset
  ⟨root, if d.rest.isEmpty then none else some (d.flaw .trailingCharacters)⟩

end Biotope.Json
