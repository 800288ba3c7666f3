/-!
# CRC-32

The cyclic redundancy check of Ethernet and ZIP, bit by bit: reflected, with the
polynomial `0xEDB88320` and both ends complemented.
-/

namespace Biotope.Checksum

def shift (c : UInt32) : UInt32 :=
  if c &&& 1 = 1 then (c >>> 1) ^^^ 0xEDB88320 else c >>> 1

def step (c : UInt32) (b : UInt8) : UInt32 :=
  shift <| shift <| shift <| shift <| shift <| shift <| shift <| shift (c ^^^ b.toUInt32)

def crc32 (bytes : List UInt8) : UInt32 :=
  bytes.foldl step 0xFFFFFFFF ^^^ 0xFFFFFFFF

end Biotope.Checksum
