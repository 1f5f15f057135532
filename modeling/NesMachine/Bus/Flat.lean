import NesMachine.Bus.Script
import NesMachine.Ram

/-!
# The flat bus

A bus with memory at every address and nothing else, which keeps a log of its timed accesses.
-/

namespace NesMachine

inductive Access
  | read (address : UInt16)
  | write (address : UInt16) (value : UInt8)
  deriving DecidableEq, Repr

/-- 64 KiB of memory, a cycle counter, and the timed accesses so far. -/
structure FlatBus where
  ram : Ram 16 := Ram.zero 16
  cycles : Nat := 0
  log : Array Access := #[]

namespace FlatBus

def read (bus : FlatBus) (address : UInt16) : UInt8 × FlatBus :=
  (bus.ram.get address.toNat,
    { bus with cycles := bus.cycles + 1, log := bus.log.push (.read address) })

def write (bus : FlatBus) (address : UInt16) (value : UInt8) : FlatBus :=
  { ram := bus.ram.set address.toNat value
    cycles := bus.cycles + 1
    log := bus.log.push (.write address value) }

instance : Bus FlatBus where
  read := read
  write := write
  peek bus address := bus.ram.get address.toNat
  cycles bus := bus.cycles

end FlatBus

end NesMachine
