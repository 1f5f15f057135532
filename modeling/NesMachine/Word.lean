/-!
# Bytes and words

Bytes are `UInt8` and bus addresses are `UInt16`. This file holds the few ways in which the machine
takes them apart: the bits of a byte, the two bytes of a word, and the 256-byte page that an address
lies on.
-/

namespace NesMachine

namespace Byte

/-- The byte with the given bits, lowest bit first. -/
def ofBits (b0 b1 b2 b3 b4 b5 b6 b7 : Bool) : UInt8 :=
  b0.toUInt8 ||| b1.toUInt8 <<< 1 ||| b2.toUInt8 <<< 2 ||| b3.toUInt8 <<< 3 |||
    b4.toUInt8 <<< 4 ||| b5.toUInt8 <<< 5 ||| b6.toUInt8 <<< 6 ||| b7.toUInt8 <<< 7

/-- Bit `i` of a byte; bits past the seventh are clear. -/
def bit (byte : UInt8) (i : Nat) : Bool :=
  byte.toNat.testBit i

def isNegative (byte : UInt8) : Bool :=
  byte &&& 0x80 != 0

/-- A byte read as a signed offset, extended to a word. -/
def signExtend (byte : UInt8) : UInt16 :=
  if isNegative byte then byte.toUInt16 + 0xFF00 else byte.toUInt16

end Byte

namespace Word

def ofBytes (low high : UInt8) : UInt16 :=
  high.toUInt16 * 256 + low.toUInt16

/-- The low byte, which is also the offset within the page. -/
def low (word : UInt16) : UInt8 :=
  word.toUInt8

/-- The high byte, which is also the number of the page. -/
def high (word : UInt16) : UInt8 :=
  (word / 256).toUInt8

def samePage (a b : UInt16) : Bool :=
  high a == high b

/-- The address at the offset of `word` within the page of `page`. -/
def onPageOf (page word : UInt16) : UInt16 :=
  ofBytes (low word) (high page)

end Word

end NesMachine
