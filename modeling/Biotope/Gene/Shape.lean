import Biotope.Checksum
import Biotope.Gene.Basic
import Biotope.Json.Value
import Biotope.SpeciesId

/-!
# Shapes and species

The shape of a creature is its tree without the values of its probabilities. It is
written as a JSON document with `null` for every probability, and the CRC-32 of
that document is the fingerprint of the species.
-/

namespace Biotope

namespace Gene

open Json (Value)

mutual

def shape : Gene → Value
  | branch _ left right => .object [("geneType", .string "Branch"), ("probability", .null),
      ("left", shapeSlot left), ("right", shapeSlot right)]
  | chop _ => .object [("geneType", .string "Chop"), ("probability", .null)]
  | copy _ => .object [("geneType", .string "Copy"), ("probability", .null)]
  | get template => .object [("geneType", .string "Get"), ("template", shapeSlot template)]
  | merge => .object [("geneType", .string "Merge")]
  | mutate _ => .object [("geneType", .string "Mutate"), ("probability", .null)]
  | put => .object [("geneType", .string "Put")]
  | sequence genes => .object [("geneType", .string "Sequence"), ("genes", .array (shapeAll genes))]

def shapeSlot : Option Gene → Value
  | none => .null
  | some g => shape g

def shapeAll : List Gene → List Value
  | [] => []
  | g :: gs => shape g :: shapeAll gs

end

/-- The bytes that the fingerprint is taken of. -/
def encoding (g : Gene) : List UInt8 := (g.shape.write []).flatMap String.utf8EncodeChar

/-- The species of the creature. It is never `SpeciesId.any`. -/
def species (g : Gene) : SpeciesId := .ofHash (Checksum.crc32 g.encoding)

end Gene

def Opcode.species (o : Opcode) : SpeciesId := o.bare.species

end Biotope
