import Biotope.Text.Printed

/-!
# Quoted texts

How a message quotes a text: between double quotes, with a backslash before what
would not show or would end the quotation.
-/

namespace Biotope.Text

def quotedChar (c : Char) : List Char :=
  match c with
  | '\x00' => ['\\', '0']
  | '\t' => ['\\', 't']
  | '\r' => ['\\', 'r']
  | '\n' => ['\\', 'n']
  | '\\' => ['\\', '\\']
  | '"' => ['\\', '"']
  | c =>
    if isPrinted c then [c]
    else ['\\', 'u', '\x7b'] ++ Nat.toDigits 16 c.toNat ++ ['\x7d']

def quoted (s : String) : String :=
  String.ofList ('"' :: s.toList.flatMap quotedChar ++ ['"'])

example : quoted "it's \"so\"\n" = "\"it's \\\"so\\\"\\n\"" := by decide +kernel
example : quoted "\x7f\u00e9" = "\"\\u\x7b7f\x7d\u00e9\"" := by decide +kernel

end Biotope.Text
