import Biotope.Json.Value

/-!
# JSON as it was read

A text that is not JSON is read up to the point where it breaks, and a `Node` is what
has been read by then. So a decoder that walks the nodes in the order of the text
meets a wrong shape and a broken text in the order in which they stand there.

Offsets count the bytes read. After a value the reader looks one byte ahead, and that
byte counts.
-/

namespace Biotope.Json

inductive FlawKind where
  | eofInList | eofInObject | eofInString | eofInValue
  | expectedColon | expectedListCommaOrEnd | expectedObjectCommaOrEnd
  | expectedIdent | expectedValue | expectedQuote | expectedNumericKey
  | invalidEscape | invalidNumber | numberOutOfRange
  | controlCharacter | keyMustBeString | loneSurrogate | halfSurrogatePair
  | trailingComma | trailingCharacters
deriving DecidableEq, Repr

namespace FlawKind

def isEof : FlawKind → Bool
  | eofInList | eofInObject | eofInString | eofInValue => true
  | _ => false

def message : FlawKind → String
  | eofInList => "EOF while parsing a list"
  | eofInObject => "EOF while parsing an object"
  | eofInString => "EOF while parsing a string"
  | eofInValue => "EOF while parsing a value"
  | expectedColon => "expected `:`"
  | expectedListCommaOrEnd => "expected `,` or `]`"
  | expectedObjectCommaOrEnd => "expected `,` or `\x7d`"
  | expectedIdent => "expected ident"
  | expectedValue => "expected value"
  | expectedQuote => "expected `\"`"
  | expectedNumericKey => "invalid value: expected key to be a number in quotes"
  | invalidEscape => "invalid escape"
  | invalidNumber => "invalid number"
  | numberOutOfRange => "number out of range"
  | controlCharacter => "control character (\\u0000-\\u001F) found while parsing a string"
  | keyMustBeString => "key must be a string"
  | loneSurrogate => "lone leading surrogate in hex escape"
  | halfSurrogatePair => "unexpected end of hex escape"
  | trailingComma => "trailing comma"
  | trailingCharacters => "trailing characters"

end FlawKind

/-- A flaw and the number of bytes read when it was found. -/
structure Flaw where
  kind : FlawKind
  offset : Nat
deriving DecidableEq, Repr

/-! ## Scalars -/

inductive Number where
  | natural (n : Nat)
  /-- Minus a positive number. -/
  | negative (n : Nat)
  | float (x : Float)
  /-- Larger than every float. -/
  | tooLarge

/-- The characters of a string. A soft flaw is one that only matters if the string is
wanted; after a hard one the text cannot be read on. -/
structure StringToken where
  text : String
  soft : Option Flaw
  hard : Option Flaw

def StringToken.flaw? (s : StringToken) : Option Flaw := s.soft.or s.hard

/-! ## Places -/

/-- The text still to be read and the number of bytes read. -/
structure Cursor where
  rest : List Char
  offset : Nat

namespace Cursor

/-- With one byte read ahead, unless the text has ended. -/
def peeked (c : Cursor) : Nat := if c.rest.isEmpty then c.offset else c.offset + 1

def flaw (c : Cursor) (kind : FlawKind) : Flaw := ⟨kind, c.peeked⟩

end Cursor

/-! ## Containers -/

inductive Breach where
  /-- The text ends where a comma or the closing mark should stand. -/
  | ended
  | unseparated
  /-- The closing mark stands right behind a comma. -/
  | closedAfterComma
  /-- The text ends behind a comma. -/
  | endedAfterComma
deriving DecidableEq, Repr

namespace Breach

def inList : Breach → FlawKind
  | ended => .eofInList
  | unseparated => .expectedListCommaOrEnd
  | closedAfterComma => .trailingComma
  | endedAfterComma => .eofInValue

def inSkippedList : Breach → FlawKind
  | closedAfterComma => .expectedValue
  | how => how.inList

def inFullList : Breach → FlawKind
  | ended => .eofInList
  | closedAfterComma => .trailingComma
  | unseparated | endedAfterComma => .trailingCharacters

def inObject : Breach → FlawKind
  | ended => .eofInObject
  | unseparated => .expectedObjectCommaOrEnd
  | closedAfterComma => .trailingComma
  | endedAfterComma => .eofInValue

def inSkippedObject : Breach → FlawKind
  | closedAfterComma => .keyMustBeString
  | endedAfterComma => .eofInObject
  | how => how.inObject

def inFullObject : Breach → FlawKind
  | ended => .eofInObject
  | _ => .expectedValue

end Breach

inductive Ending where
  | closed (stop : Nat)
  | breach (how : Breach) (offset : Nat)
  | within (flaw : Flaw)
  /-- At something else, where a name should stand. -/
  | unnamed (offset : Nat)
  | inName (start : Cursor) (token : StringToken) (flaw : Flaw)

namespace Ending

/-- What is wrong with the end, given what a breach means. -/
def flawWith? (kindOf : Breach → FlawKind) : Ending → Option Flaw
  | closed _ => none
  | breach how offset => some ⟨kindOf how, offset⟩
  | within f => some f
  | unnamed offset => some ⟨.keyMustBeString, offset⟩
  | inName _ token f => token.soft.or (some f)

/-- The same for a container that is skipped. -/
def skippedWith? (kindOf : Breach → FlawKind) : Ending → Option Flaw
  | inName _ _ f => some f
  | ending => ending.flawWith? kindOf

def stop : Ending → Nat
  | closed stop => stop
  | _ => 0

end Ending

structure Item (α : Type) where
  node : α
  /-- With the byte after the item. -/
  follow : Nat
  /-- With the byte after a comma, if one follows. -/
  next : Nat

structure Entry (α : Type) where
  /-- At the first character of the name. -/
  start : Cursor
  name : StringToken
  /-- With the byte after the name. -/
  colon : Nat
  node : α
  follow : Nat
  next : Nat

inductive Node where
  | null (stop : Nat)
  | bool (b : Bool) (stop : Nat)
  | number (n : Number) (stop : Nat)
  | string (s : StringToken) (stop : Nat)
  /-- The start counts the opening mark. -/
  | list (start : Nat) (items : List (Item Node)) (ending : Ending)
  | object (start : Nat) (entries : List (Entry Node)) (ending : Ending)
  /-- Something that is no value; if it is skipped, it breaks in the second way. -/
  | broken (flaw : Flaw) (skipped : Flaw)
  /-- Nothing, where a value should stand. -/
  | missing (flaw : Flaw)

namespace Node

def cut? : Node → Option Flaw
  | null _ | bool .. | number .. => none
  | string s _ => s.hard
  | list _ _ ending => ending.flawWith? Breach.inList
  | object _ _ ending => ending.flawWith? Breach.inObject
  | broken flaw _ | missing flaw => some flaw

/-! ## Flaws in the order of the text -/

mutual

def flaw? : Node → Option Flaw
  | null _ | bool .. => none
  | number .tooLarge stop => some ⟨.numberOutOfRange, stop⟩
  | number .. => none
  | string s _ => s.flaw?
  | list _ items ending => (itemsFlaw? items).or (ending.flawWith? Breach.inList)
  | object _ entries ending => (fieldsFlaw? entries).or (ending.flawWith? Breach.inObject)
  | broken flaw _ | missing flaw => some flaw

def itemsFlaw? : List (Item Node) → Option Flaw
  | [] => none
  | i :: is => (itemFlaw? i).or (itemsFlaw? is)

def itemFlaw? : Item Node → Option Flaw
  | ⟨node, _, _⟩ => flaw? node

def fieldsFlaw? : List (Entry Node) → Option Flaw
  | [] => none
  | e :: es => (fieldFlaw? e).or (fieldsFlaw? es)

def fieldFlaw? : Entry Node → Option Flaw
  | ⟨_, name, _, node, _, _⟩ => name.flaw?.or (flaw? node)

end

mutual

/-- The first flaw, nothing being wanted. -/
def skipFlaw? : Node → Option Flaw
  | null _ | bool .. | number .. => none
  | string s _ => s.hard
  | list _ items ending => (skipItems? items).or (ending.skippedWith? Breach.inSkippedList)
  | object _ entries ending => (skipFields? entries).or (ending.skippedWith? Breach.inSkippedObject)
  | broken _ flaw | missing flaw => some flaw

def skipItems? : List (Item Node) → Option Flaw
  | [] => none
  | i :: is => (skipItem? i).or (skipItems? is)

def skipItem? : Item Node → Option Flaw
  | ⟨node, _, _⟩ => skipFlaw? node

def skipFields? : List (Entry Node) → Option Flaw
  | [] => none
  | e :: es => (skipField? e).or (skipFields? es)

def skipField? : Entry Node → Option Flaw
  | ⟨_, name, _, node, _, _⟩ => name.hard.or (skipFlaw? node)

end

/-! ## The value -/

mutual

/-- The value that was read, `null` standing for what could not be. -/
def value : Node → Value
  | null _ => .null
  | bool b _ => .bool b
  | number (.natural n) _ => .int n
  | number (.negative n) _ => .int (-n)
  | number (.float x) _ => .float x
  | number .tooLarge _ => .null
  | string s _ => .string s.text
  | list _ items _ => .array (itemValues items)
  | object _ entries _ => .object (entryValues entries)
  | broken .. | missing _ => .null

def itemValues : List (Item Node) → List Value
  | [] => []
  | i :: is => itemValue i :: itemValues is

def itemValue : Item Node → Value
  | ⟨node, _, _⟩ => value node

def entryValues : List (Entry Node) → List (String × Value)
  | [] => []
  | e :: es => entryValue e :: entryValues es

def entryValue : Entry Node → String × Value
  | ⟨_, name, _, node, _, _⟩ => (name.text, value node)

end

end Node

/-- A whole text: its value and what is wrong with the rest. -/
structure Document where
  root : Node
  rest : Option Flaw

end Biotope.Json
