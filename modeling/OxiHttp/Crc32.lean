/-
**CRC-32.**

The checksum of RFC 1952 §8: every bit of the message, lowest first, is shifted into a register of
thirty-two bits, which is reduced by the polynomial whenever a one comes out.
-/

import Mathlib.Data.List.Basic
import Mathlib.Logic.Function.Iterate

set_option relaxedAutoImplicit false
set_option autoImplicit false

namespace Crc32

/-- Shifting one bit out of the register. -/
def shift (crc : UInt32) : UInt32 :=
  if crc &&& 1 = 1 then (crc >>> 1) ^^^ 0xEDB88320 else crc >>> 1

/-- The register after one more byte. -/
def update (crc : UInt32) (b : UInt8) : UInt32 := shift^[8] (crc ^^^ b.toUInt32)

/-- The checksum of a message.  Where the client compares it, the code calls `Crc32::compute` of
`oxiarc_core`, which is outside the repository: that this is the checksum of RFC 1952 is relied
on. -/
def crc32 (bs : List UInt8) : UInt32 := bs.foldl update 0xFFFFFFFF ^^^ 0xFFFFFFFF

example : crc32 [0x31, 0x32, 0x33, 0x34, 0x35, 0x36, 0x37, 0x38, 0x39] = 0xCBF43926 := by
  decide +kernel

end Crc32
