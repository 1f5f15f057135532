import NesMachine.Cpu.Flags
import NesMachine.Hexadecimal

/-!
# Registers

The programmer's view of the processor.
-/

namespace NesMachine

structure Registers where
  /-- Accumulator. -/
  a : UInt8 := 0
  /-- Index X. -/
  x : UInt8 := 0
  /-- Index Y. -/
  y : UInt8 := 0
  /-- Stack pointer: the offset within page 1 of the next push. -/
  s : UInt8 := 0xFD
  /-- Status. -/
  p : Flags := Flags.powerOn
  /-- Program counter. -/
  pc : UInt16 := 0
  deriving DecidableEq, Repr, Inhabited

namespace Registers

/-- The address in page 1 that the stack pointer points at. -/
def stackAddress (r : Registers) : UInt16 :=
  0x100 + r.s.toUInt16

def text (r : Registers) : String :=
  let field (name : String) (digits : String) : String := name ++ ":0x" ++ digits
  let fields :=
    [ field "a" (Hexadecimal.lower 2 r.a.toNat), field "x" (Hexadecimal.lower 2 r.x.toNat),
      field "y" (Hexadecimal.lower 2 r.y.toNat), field "s" (Hexadecimal.lower 2 r.s.toNat),
      field "p" (Hexadecimal.lower 2 r.p.toByte.toNat), field "pc" (Hexadecimal.lower 4 r.pc.toNat) ]
  "[" ++ ",".intercalate fields ++ "]"

end Registers

end NesMachine
