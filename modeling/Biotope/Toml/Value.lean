import Biotope.Decimal.Layout

/-!
# TOML values and their text

`Value.text` writes a value the way it reads best: a string in the first of its forms
that needs no escapes, and an array of two or more items with one item a line.
-/

namespace Biotope.Toml

inductive Value where
  | bool (b : Bool)
  | integer (n : Int)
  | float (x : Float)
  | string (s : String)
  | moment (text : String)
  | array (items : List Value)
  | table (entries : List (String × Value))

instance : Inhabited Value := ⟨.bool false⟩

def fits (n : Int) : Bool := Int64.minValue.toInt ≤ n && n ≤ Int64.maxValue.toInt

/-! ## Strings -/

/-- The greatest number of adjacent occurrences, the present run being `run` long. -/
def longestRun (quote : Char) : List Char → Nat → Nat → Nat
  | [], run, best => max run best
  | c :: cs, run, best =>
    if c = quote then longestRun quote cs (run + 1) best
    else longestRun quote cs 0 (max run best)

/-- Characters that need an escape in every form. -/
def isControl (c : Char) : Bool := (c.toNat < 32 && c != '\t' && c != '\n') || c.toNat == 127

def hex4 (n : Nat) : List Char :=
  let ds := (Nat.toDigits 16 n).map Char.toUpper
  List.replicate (4 - ds.length) '0' ++ ds

def escaped (multiline : Bool) (c : Char) : List Char :=
  match c with
  | '\x08' => ['\\', 'b']
  | '\t' => ['\\', 't']
  | '\n' => if multiline then ['\n'] else ['\\', 'n']
  | '\x0c' => ['\\', 'f']
  | '\r' => ['\\', 'r']
  | '\\' => ['\\', '\\']
  | c => if isControl c then '\\' :: 'u' :: hex4 c.toNat else [c]

/-- Escapes a text in which at most `quotes` double quotes may stand next to each other. -/
def escapeAll (multiline : Bool) (quotes : Nat) : List Char → Nat → List Char
  | [], _ => []
  | '"' :: cs, run =>
    if run < quotes then '"' :: escapeAll multiline quotes cs (run + 1)
    else '\\' :: '"' :: escapeAll multiline quotes cs 0
  | c :: cs, _ => escaped multiline c ++ escapeAll multiline quotes cs 0

def basic (s : String) : String := "\"" ++ String.ofList (escapeAll false 0 s.toList 0) ++ "\""

def literal (s : String) : String := "'" ++ s ++ "'"

/-- Multi-line forms start on a line of their own if the text has line ends. -/
def opening (s : String) : String := if s.toList.contains '\n' then "\n" else ""

def multilineBasic (s : String) : String :=
  "\"\"\"" ++ opening s ++ String.ofList (escapeAll true 2 s.toList 0) ++ "\"\"\""

def multilineLiteral (s : String) : String := "'''" ++ opening s ++ s ++ "'''"

/-- The first form that shows the text as it is, or an escaped form. -/
def stringText (s : String) : String :=
  let cs := s.toList
  let control := cs.any isControl
  let escape := cs.contains '\\'
  let newline := cs.contains '\n'
  let single := longestRun '\'' cs 0 0
  let double := longestRun '"' cs 0 0
  if !control && !escape && double = 0 && !newline then basic s
  else if !control && single = 0 && !newline then literal s
  else if !control && !escape && double ≤ 2 then multilineBasic s
  else if !control && single ≤ 2 then multilineLiteral s
  else if newline then multilineBasic s
  else basic s

/-! ## Keys -/

def isBare (c : Char) : Bool := c.isAlphanum || c == '_' || c == '-'

/-- A key, between quotes unless letters, digits, dashes and underscores make it up. -/
def keyText (key : String) : String :=
  if !key.isEmpty && key.toList.all isBare then key else stringText key

/-! ## Values -/

mutual

def Value.text : Value → String
  | .bool true => "true"
  | .bool false => "false"
  | .integer n => toString n
  | .float x => Decimal.inToml.write x
  | .string s => stringText s
  | .moment t => t
  | .array [] => "[]"
  | .array [v] => "[" ++ v.text ++ "]"
  | .array items => "[" ++ itemLines items ++ "\n]"
  | .table [] => "\x7b\x7d"
  | .table entries => "\x7b " ++ inlineEntries entries ++ " \x7d"

def itemLines : List Value → String
  | [] => ""
  | v :: vs => "\n    " ++ v.text ++ "," ++ itemLines vs

def inlineEntries : List (String × Value) → String
  | [] => ""
  | [e] => inlineEntry e
  | e :: es => inlineEntry e ++ ", " ++ inlineEntries es

def inlineEntry : String × Value → String
  | (key, v) => keyText key ++ " = " ++ v.text

end

/-! ## Sections -/

structure Section where
  name : String
  entries : List (String × Value)

def Section.text (s : Section) : String :=
  "[" ++ keyText s.name ++ "]\n" ++
    String.join (s.entries.map fun e => inlineEntry e ++ "\n")

def documentText (sections : List Section) : String := "\n".intercalate (sections.map Section.text)

end Biotope.Toml
