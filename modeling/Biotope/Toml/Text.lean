import Biotope.Toml.Value

/-!
# Reading TOML strings

Strings in their four forms: escapes count between double quotes only, and line ends may
stand between triple quotes only, where they stay as they are written.
-/

namespace Biotope.Toml

inductive FlawKind where
  | unexpected
  | unended
  | badEscape
  | badWord
  | duplicate (key : String)
  | noTable (key : String)
  | tooDeep
deriving DecidableEq, Repr

/-- A flaw and the number of characters from it to the end. -/
structure Flaw where
  kind : FlawKind
  left : Nat
deriving DecidableEq, Repr

/-- What has been read, and the rest. -/
abbrev Scanned (α : Type) := α × List Char

def flaw {α} (kind : FlawKind) (rest : List Char) : Except Flaw α :=
  .error ⟨kind, rest.length⟩

def isPlain (c : Char) : Bool := c == '\t' || (32 ≤ c.toNat && c.toNat != 127)

/-! ## Escapes -/

def hexDigit? (c : Char) : Option Nat :=
  if c.isDigit then some (c.toNat - '0'.toNat)
  else if 'a' ≤ c ∧ c ≤ 'f' then some (c.toNat - 'a'.toNat + 10)
  else if 'A' ≤ c ∧ c ≤ 'F' then some (c.toNat - 'A'.toNat + 10)
  else none

def codePoint? (ds : List Char) : Option Char := do
  let n ← ds.foldlM (fun n c => (n * 16 + ·) <$> hexDigit? c) 0
  guard (n < 0xD800 ∨ (0xE000 ≤ n ∧ n < 0x110000))
  return Char.ofNat n

def unescaped? : Char → Option Char
  | 'b' => some '\x08'
  | 't' => some '\t'
  | 'n' => some '\n'
  | 'f' => some '\x0c'
  | 'r' => some '\r'
  | 'e' => some '\x1b'
  | '"' => some '"'
  | '\\' => some '\\'
  | _ => none

def isSpace (c : Char) : Bool := c == ' ' || c == '\t'

def atLineEnd : List Char → Bool
  | '\n' :: _ | '\r' :: '\n' :: _ => true
  | _ => false

/-! ## Forms -/

/-- The rest of a string between double quotes; the characters so far are in `acc`, the last
first. -/
def readBasic (acc : List Char) : List Char → Except Flaw (Scanned String)
  | [] => flaw .unended []
  | '"' :: cs => .ok (String.ofList acc.reverse, cs)
  | '\\' :: 'x' :: a :: b :: cs =>
    match codePoint? [a, b] with
    | some c => readBasic (c :: acc) cs
    | none => flaw .badEscape cs
  | '\\' :: 'u' :: a :: b :: c :: d :: cs =>
    match codePoint? [a, b, c, d] with
    | some c => readBasic (c :: acc) cs
    | none => flaw .badEscape cs
  | '\\' :: 'U' :: a :: b :: c :: d :: e :: f :: g :: h :: cs =>
    match codePoint? [a, b, c, d, e, f, g, h] with
    | some c => readBasic (c :: acc) cs
    | none => flaw .badEscape cs
  | '\\' :: c :: cs =>
    match unescaped? c with
    | some c => readBasic (c :: acc) cs
    | none => flaw .badEscape cs
  | c :: cs => if isPlain c then readBasic (c :: acc) cs else flaw .unexpected (c :: cs)

def readLiteral (cs : List Char) : Except Flaw (Scanned String) :=
  let body := cs.takeWhile fun c => isPlain c && c != '\''
  match cs.dropWhile fun c => isPlain c && c != '\'' with
  | '\'' :: rest => .ok (String.ofList body, rest)
  | rest => flaw .unended rest

/-- The rest of a string between three double quotes. After a backslash at the end of a
line, blanks and line ends are skipped. Two quotes at the end still belong to the text. -/
def readMultilineBasic (acc : List Char) (skipping : Bool) :
    List Char → Except Flaw (Scanned String)
  | [] => flaw .unended []
  | '"' :: '"' :: '"' :: '"' :: '"' :: cs => .ok (String.ofList ('"' :: '"' :: acc).reverse, cs)
  | '"' :: '"' :: '"' :: '"' :: cs => .ok (String.ofList ('"' :: acc).reverse, cs)
  | '"' :: '"' :: '"' :: cs => .ok (String.ofList acc.reverse, cs)
  | '\\' :: 'x' :: a :: b :: cs =>
    match codePoint? [a, b] with
    | some c => readMultilineBasic (c :: acc) false cs
    | none => flaw .badEscape cs
  | '\\' :: 'u' :: a :: b :: c :: d :: cs =>
    match codePoint? [a, b, c, d] with
    | some c => readMultilineBasic (c :: acc) false cs
    | none => flaw .badEscape cs
  | '\\' :: 'U' :: a :: b :: c :: d :: e :: f :: g :: h :: cs =>
    match codePoint? [a, b, c, d, e, f, g, h] with
    | some c => readMultilineBasic (c :: acc) false cs
    | none => flaw .badEscape cs
  | '\\' :: cs =>
    if atLineEnd (cs.dropWhile isSpace) then readMultilineBasic acc true cs
    else
      match cs with
      | [] => flaw .unended []
      | c :: cs =>
        match unescaped? c with
        | some c => readMultilineBasic (c :: acc) false cs
        | none => flaw .badEscape cs
  | '\r' :: '\n' :: cs =>
    readMultilineBasic (if skipping then acc else '\n' :: '\r' :: acc) skipping cs
  | '\n' :: cs => readMultilineBasic (if skipping then acc else '\n' :: acc) skipping cs
  | c :: cs =>
    if skipping && isSpace c then readMultilineBasic acc true cs
    else if isPlain c then readMultilineBasic (c :: acc) false cs
    else flaw .unexpected (c :: cs)

def readMultilineLiteral (acc : List Char) : List Char → Except Flaw (Scanned String)
  | [] => flaw .unended []
  | '\'' :: '\'' :: '\'' :: '\'' :: '\'' :: cs =>
    .ok (String.ofList ('\'' :: '\'' :: acc).reverse, cs)
  | '\'' :: '\'' :: '\'' :: '\'' :: cs => .ok (String.ofList ('\'' :: acc).reverse, cs)
  | '\'' :: '\'' :: '\'' :: cs => .ok (String.ofList acc.reverse, cs)
  | '\r' :: '\n' :: cs => readMultilineLiteral ('\n' :: '\r' :: acc) cs
  | '\n' :: cs => readMultilineLiteral ('\n' :: acc) cs
  | c :: cs => if isPlain c then readMultilineLiteral (c :: acc) cs else flaw .unexpected (c :: cs)

/-- Without a line end right at the beginning. -/
def dropLineEnd : List Char → List Char
  | '\n' :: cs => cs
  | '\r' :: '\n' :: cs => cs
  | cs => cs

def readString (cs : List Char) : Except Flaw (Scanned String) :=
  match cs with
  | '"' :: '"' :: '"' :: cs => readMultilineBasic [] false (dropLineEnd cs)
  | '\'' :: '\'' :: '\'' :: cs => readMultilineLiteral [] (dropLineEnd cs)
  | '"' :: cs => readBasic [] cs
  | '\'' :: cs => readLiteral cs
  | cs => flaw .unexpected cs

end Biotope.Toml
