/-!
# Ranges of code points

A class of characters is a list of ranges of code points, both ends included.
-/

namespace Biotope.Text

def within (ranges : List (Nat × Nat)) (c : Char) : Bool :=
  ranges.any fun range => range.1 ≤ c.toNat && c.toNat ≤ range.2

end Biotope.Text
