import Biotope.Decimal.Layout

/-!
# JSON values and their text

`Value.text` writes a value without blanks, fields in the order given. The writer
puts its characters in front of a given rest, so nested values cost no copying.
-/

namespace Biotope.Json

inductive Value where
  | null
  | bool (b : Bool)
  | int (n : Int)
  | float (x : Float)
  | string (s : String)
  | array (items : List Value)
  | object (fields : List (String × Value))

instance : Inhabited Value := ⟨.null⟩

/-! ## Strings -/

def hexDigit (n : Nat) : Char := (Nat.digitChar n)

def escaped (c : Char) : List Char :=
  match c with
  | '"' => ['\\', '"']
  | '\\' => ['\\', '\\']
  | '\n' => ['\\', 'n']
  | '\r' => ['\\', 'r']
  | '\t' => ['\\', 't']
  | '\x08' => ['\\', 'b']
  | '\x0c' => ['\\', 'f']
  | c =>
    if c.toNat < 32 then ['\\', 'u', '0', '0', hexDigit (c.toNat / 16), hexDigit (c.toNat % 16)]
    else [c]

def writeChars : List Char → List Char → List Char
  | [], rest => '"' :: rest
  | c :: cs, rest => escaped c ++ writeChars cs rest

def writeString (s : String) (rest : List Char) : List Char := '"' :: writeChars s.toList rest

/-! ## Values -/

mutual

def Value.write : Value → List Char → List Char
  | .null, rest => 'n' :: 'u' :: 'l' :: 'l' :: rest
  | .bool true, rest => 't' :: 'r' :: 'u' :: 'e' :: rest
  | .bool false, rest => 'f' :: 'a' :: 'l' :: 's' :: 'e' :: rest
  | .int n, rest => (toString n).toList ++ rest
  | .float x, rest => (Decimal.inJson.write x).toList ++ rest
  | .string s, rest => writeString s rest
  | .array items, rest => '[' :: writeItems items rest
  | .object fields, rest => '{' :: writeFields fields rest

def writeItems : List Value → List Char → List Char
  | [], rest => ']' :: rest
  | [v], rest => v.write (']' :: rest)
  | v :: vs, rest => v.write (',' :: writeItems vs rest)

def writeFields : List (String × Value) → List Char → List Char
  | [], rest => '}' :: rest
  | [f], rest => writeField f ('}' :: rest)
  | f :: fs, rest => writeField f (',' :: writeFields fs rest)

def writeField : String × Value → List Char → List Char
  | (name, v), rest => writeString name (':' :: v.write rest)

end

def Value.text (v : Value) : String := String.ofList (v.write [])

/-! ## Depth -/

mutual

def Value.depth : Value → Nat
  | .array items => 1 + depthItems items
  | .object fields => 1 + depthFields fields
  | .null | .bool _ | .int _ | .float _ | .string _ => 0

def depthItems : List Value → Nat
  | [] => 0
  | v :: vs => max v.depth (depthItems vs)

def depthFields : List (String × Value) → Nat
  | [] => 0
  | f :: fs => max (depthField f) (depthFields fs)

def depthField : String × Value → Nat
  | (_, v) => v.depth

end

def Value.field? (name : String) : Value → Option Value
  | .object fields => (fields.find? (·.1 == name)).map (·.2)
  | _ => none

end Biotope.Json
