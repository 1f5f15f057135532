import NesMachine.Bus.Script
import NesMachine.Console.MainMemory
import NesMachine.Console.SpriteTransfer
import NesMachine.Ppu.Basic

/-!
# The system bus

The bus that the processor drives: main memory with the picture unit at its registers, a cycle counter,
and the signals that observers have raised and that wait for the end of the instruction.
-/

namespace NesMachine

structure SystemBus where
  memory : MainMemory
  ppu : Ppu := {}
  cycles : Nat := 0
  /-- The signals in the order in which they were raised. -/
  signals : List Signal := []

namespace SystemBus

def read (bus : SystemBus) (address : UInt16) : UInt8 × SystemBus :=
  let (value, ppu) := bus.memory.read address bus.ppu
  (value, { bus with ppu, cycles := bus.cycles + 1 })

def write (bus : SystemBus) (address : UInt16) (value : UInt8) : SystemBus :=
  let (signal, memory, ppu) := bus.memory.write address value bus.ppu
  { memory, ppu, cycles := bus.cycles + 1, signals := bus.signals ++ signal.toList }

def peek (bus : SystemBus) (address : UInt16) : UInt8 :=
  match bus.memory.peek address with
  | some value => value
  | none => bus.ppu.registerValue address

instance : Bus SystemBus where
  read := read
  write := write
  peek := peek
  cycles bus := bus.cycles

/-- Copies a byte to sprite memory. This is a read by the transfer engine, which takes no cycle of its
own. -/
def copySprite (bus : SystemBus) (copy : SpriteTransfer.Copy) : SystemBus :=
  let (value, ppu) := bus.memory.read copy.source bus.ppu
  { bus with ppu := ppu.setOam copy.offset value }

end SystemBus

end NesMachine
