import Biotope.Toml.Document
import Biotope.Toml.Scalar

/-!
# Reading TOML

`read` turns a text into the entries of its root table. Each step reads at least one
character, so the length of the text bounds the recursion.
-/

namespace Biotope.Toml

def skipSpaces (cs : List Char) : List Char := cs.dropWhile isSpace

def skipComment (cs : List Char) : List Char :=
  match cs with
  | '#' :: cs => cs.dropWhile isPlain
  | cs => cs

/-- Passes the end of a line, which may have blanks and a comment before it. -/
def endLine (cs : List Char) : Except Flaw (List Char) :=
  match skipComment (skipSpaces cs) with
  | [] => .ok []
  | '\n' :: cs => .ok cs
  | '\r' :: '\n' :: cs => .ok cs
  | cs => flaw .unexpected cs

def skipLines : Nat → List Char → List Char
  | 0, cs => cs
  | fuel + 1, cs =>
    match skipComment (skipSpaces cs) with
    | '\n' :: cs => skipLines fuel cs
    | '\r' :: '\n' :: cs => skipLines fuel cs
    | cs => cs

/-! ## Keys -/

def readPart (cs : List Char) : Except Flaw (Scanned String) :=
  match cs with
  | '"' :: cs => readBasic [] cs
  | '\'' :: cs => readLiteral cs
  | cs =>
    let part := cs.takeWhile isBare
    if part.isEmpty then flaw .unexpected cs
    else .ok (String.ofList part, cs.dropWhile isBare)

/-- One part or more with points between them. -/
def readParts : Nat → List Char → Except Flaw (Scanned (List String))
  | 0, cs => flaw .unended cs
  | fuel + 1, cs => do
    let (part, cs) ← readPart (skipSpaces cs)
    match skipSpaces cs with
    | '.' :: cs => do
      let (parts, cs) ← readParts fuel cs
      return (part :: parts, cs)
    | cs => return ([part], cs)

/-- How deep arrays and inline tables may nest, and how many parts a key may have. -/
def depthLimit : Nat := 80

def readKey (fuel : Nat) (cs : List Char) : Except Flaw (Scanned (List String)) := do
  let (parts, cs) ← readParts fuel cs
  if depthLimit < parts.length then flaw .tooDeep cs else return (parts, cs)

/-! ## Values -/

def endsWord (c : Char) : Bool :=
  isSpace c || c == '\n' || c == '\r' || c == ',' || c == ']' || c == '}' || c == '#'

/-- The word at the beginning. A date takes a time behind a space along. -/
def splitWord (cs : List Char) : List Char × List Char :=
  let word := cs.takeWhile fun c => !endsWord c
  let rest := cs.dropWhile fun c => !endsWord c
  match rest with
  | ' ' :: c :: more =>
    if c.isDigit && word.length = 10 && (date? word).isSome then
      let time := (c :: more).takeWhile fun c => !endsWord c
      (word ++ ' ' :: time, (c :: more).dropWhile fun c => !endsWord c)
    else (word, rest)
  | _ => (word, rest)

mutual

/-- A value with at most `depth` levels below it. -/
def readValue (depth : Nat) : Nat → List Char → Except Flaw (Scanned Value)
  | 0, cs => flaw .unended cs
  | fuel + 1, cs =>
    match cs with
    | '"' :: _ | '\'' :: _ => do
      let (s, cs) ← readString cs
      return (.string s, cs)
    | '[' :: cs =>
      match depth with
      | 0 => flaw .tooDeep cs
      | depth + 1 => do
        let (items, cs) ← readItems depth fuel (skipLines cs.length cs)
        return (.array items, cs)
    | '\x7b' :: cs =>
      match depth with
      | 0 => flaw .tooDeep cs
      | depth + 1 => do
        let (pairs, rest) ← readPairs depth fuel (skipLines cs.length cs)
        match putPairs pairs [] with
        | .ok entries => return (.table (entryValues entries), rest)
        | .error kind => flaw kind rest
    | cs =>
      let (word, rest) := splitWord cs
      match scalar? word with
      | some v => .ok (v, rest)
      | none => flaw .badWord cs

def readItems (depth : Nat) : Nat → List Char → Except Flaw (Scanned (List Value))
  | 0, cs => flaw .unended cs
  | fuel + 1, cs =>
    match cs with
    | ']' :: cs => .ok ([], cs)
    | cs => do
      let (v, cs) ← readValue depth fuel cs
      match skipLines cs.length cs with
      | ']' :: cs => return ([v], cs)
      | ',' :: cs => do
        let (items, cs) ← readItems depth fuel (skipLines cs.length cs)
        return (v :: items, cs)
      | cs => flaw .unexpected cs

/-- The pairs of an inline table and its closing brace. Line ends may stand between any two
marks, and a comma behind the last pair. -/
def readPairs (depth : Nat) :
    Nat → List Char → Except Flaw (Scanned (List (List String × Value)))
  | 0, cs => flaw .unended cs
  | fuel + 1, cs =>
    match cs with
    | '\x7d' :: cs => .ok ([], cs)
    | cs => do
      let (path, cs) ← readKey fuel cs
      match skipLines cs.length cs with
      | '=' :: cs => do
        let (v, cs) ← readValue depth fuel (skipLines cs.length cs)
        match skipLines cs.length cs with
        | '\x7d' :: cs => return ([(path, v)], cs)
        | ',' :: cs => do
          let (pairs, cs) ← readPairs depth fuel (skipLines cs.length cs)
          return ((path, v) :: pairs, cs)
        | cs => flaw .unexpected cs
      | cs => flaw .unexpected cs

end

/-! ## Statements -/

def readHeader (fuel : Nat) (closing : List Char → Option (List Char)) (cs : List Char) :
    Except Flaw (Scanned (List String)) := do
  let (path, cs) ← readKey fuel cs
  match closing cs with
  | some cs => return (path, cs)
  | none => flaw .unexpected cs

def readStatement (fuel : Nat) (cs : List Char) : Except Flaw (Scanned Statement) :=
  match cs with
  | '[' :: '[' :: cs => do
    let closing : List Char → Option (List Char) := fun
      | ']' :: ']' :: cs => some cs
      | _ => none
    let (path, cs) ← readHeader fuel closing cs
    return (.row path, cs)
  | '[' :: cs => do
    let closing : List Char → Option (List Char) := fun
      | ']' :: cs => some cs
      | _ => none
    let (path, cs) ← readHeader fuel closing cs
    return (.header path, cs)
  | cs => do
    let (path, cs) ← readKey fuel cs
    match cs with
    | '=' :: cs => do
      let (v, cs) ← readValue depthLimit fuel (skipSpaces cs)
      return (.pair path v, cs)
    | cs => flaw .unexpected cs

def readStatements : Nat → List Char → Except Flaw (List Statement)
  | 0, _ => .ok []
  | fuel + 1, cs =>
    match skipLines cs.length cs with
    | [] => .ok []
    | cs => do
      let (s, cs) ← readStatement cs.length.succ cs
      return s :: (← readStatements fuel (← endLine cs))

def read (text : String) : Except Flaw (List (String × Value)) := do
  let cs := text.toList
  let cs := if cs.head? = some '\ufeff' then cs.drop 1 else cs
  match tableOf (← readStatements cs.length.succ cs) with
  | .ok entries => return entries
  | .error kind => flaw kind []

/-! ## Messages -/

def FlawKind.message : FlawKind → String
  | unexpected => "unexpected character"
  | unended => "unexpected end"
  | badEscape => "invalid escape"
  | badWord => "invalid value"
  | duplicate key => "duplicate key: " ++ key
  | noTable key => "not a table: " ++ key
  | tooDeep => "nested too deeply"

/-- Line and column of the character with so many characters from it to the end. -/
def position (text : String) (left : Nat) : Nat × Nat :=
  let cs := text.toList
  (cs.take (cs.length - left)).foldl
    (fun (line, column) c => if c = '\n' then (line + 1, 1) else (line, column + 1)) (1, 1)

def Flaw.message (text : String) (f : Flaw) : String :=
  let (line, column) := position text f.left
  f.kind.message ++ " at line " ++ toString line ++ ", column " ++ toString column

end Biotope.Toml
