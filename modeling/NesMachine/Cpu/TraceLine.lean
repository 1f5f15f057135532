import NesMachine.Clock
import NesMachine.Column
import NesMachine.Cpu.Registers

/-!
# Trace lines

A trace line records the start of one instruction: its bytes, and the registers and the cycle count
before it.
-/

namespace NesMachine

structure TraceLine where
  /-- The registers before the instruction. -/
  registers : Registers
  /-- The bytes of the instruction, opcode first. -/
  bytes : List UInt8
  /-- The cycles that had passed before the instruction. -/
  cycles : Nat
  deriving DecidableEq, Repr

namespace TraceLine

/-- The dot within its scanline at which the instruction started. -/
def dot (line : TraceLine) : Nat :=
  Clock.dotsFor line.cycles % Clock.dotsPerScanline

def text (line : TraceLine) : String :=
  let r := line.registers
  Hexadecimal.word r.pc ++ "  " ++
    Column.left 8 (" ".intercalate (line.bytes.map Hexadecimal.byte)) ++
    "  A:" ++ Hexadecimal.byte r.a ++
    " X:" ++ Hexadecimal.byte r.x ++
    " Y:" ++ Hexadecimal.byte r.y ++
    " P:" ++ Hexadecimal.byte r.p.toByte ++
    " SP:" ++ Hexadecimal.byte r.s ++
    " CYC:" ++ Column.right 3 (toString line.dot)

end TraceLine

end NesMachine
