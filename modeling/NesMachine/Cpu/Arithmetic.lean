import NesMachine.Cpu.Flags

/-!
# Arithmetic and shifts

Each operation takes the flags before it and gives its result with the flags after it. The processor
has no decimal unit, so all arithmetic is binary.
-/

namespace NesMachine.Arithmetic

/-- Adds with carry. Overflow means that both operands have a sign that the result has not. -/
def add (p : Flags) (a m : UInt8) : UInt8 × Flags :=
  let sum := a.toNat + m.toNat + p.carry.toNat
  let result := UInt8.ofNat sum
  let overflow := Byte.isNegative a == Byte.isNegative m && Byte.isNegative a != Byte.isNegative result
  (result, { p.setZN result with carry := 255 < sum, overflow })

/-- Subtracts with borrow, where a clear carry is a borrow: adds the complement. -/
def subtract (p : Flags) (a m : UInt8) : UInt8 × Flags :=
  add p a (~~~m)

/-- Flags of the difference; carry means that there was no borrow. -/
def compare (p : Flags) (register m : UInt8) : Flags :=
  { p.setZN (register - m) with carry := m ≤ register }

/-- Tests the bits of `a` in `m`; the two top bits of `m` go to overflow and negative. -/
def bitTest (p : Flags) (a m : UInt8) : Flags :=
  { p with zero := a &&& m == 0, overflow := m &&& 0x40 != 0, negative := Byte.isNegative m }

def shiftLeft (p : Flags) (v : UInt8) : UInt8 × Flags :=
  let result := v <<< 1
  (result, { p.setZN result with carry := Byte.isNegative v })

def shiftRight (p : Flags) (v : UInt8) : UInt8 × Flags :=
  let result := v >>> 1
  (result, { p.setZN result with carry := v &&& 1 != 0 })

/-- Shifts left with the carry coming in at the bottom. -/
def rotateLeft (p : Flags) (v : UInt8) : UInt8 × Flags :=
  let result := v <<< 1 ||| p.carry.toUInt8
  (result, { p.setZN result with carry := Byte.isNegative v })

/-- Shifts right with the carry coming in at the top. -/
def rotateRight (p : Flags) (v : UInt8) : UInt8 × Flags :=
  let result := v >>> 1 ||| p.carry.toUInt8 <<< 7
  (result, { p.setZN result with carry := v &&& 1 != 0 })

/-- Rotates `a &&& m` right; carry and overflow come from bits 6 and 5 of the result. -/
def andRotateRight (p : Flags) (a m : UInt8) : UInt8 × Flags :=
  let result := (a &&& m) >>> 1 ||| p.carry.toUInt8 <<< 7
  let bit6 := result &&& 0x40 != 0
  let bit5 := result &&& 0x20 != 0
  (result, { p.setZN result with carry := bit6, overflow := bit6 != bit5 })

/-- The difference of `a &&& x` and `m` without borrow, with the flags of a comparison. -/
def subtractFromAnd (p : Flags) (a x m : UInt8) : UInt8 × Flags :=
  ((a &&& x) - m, compare p (a &&& x) m)

end NesMachine.Arithmetic
