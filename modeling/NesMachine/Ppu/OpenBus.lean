import NesMachine.Clock
import NesMachine.Word

/-!
# The open bus

The data lines of the picture unit keep the last byte that was driven onto them, each bit until its
charge has leaked away. A read of a register without a value of its own sees this byte.
-/

namespace NesMachine

/-- The byte on the data lines, and for each bit the dots for which it still holds. -/
structure OpenBus where
  value : UInt8 := 0
  timers : Vector Nat 8 := Vector.replicate 8 0
  deriving DecidableEq, Repr

namespace OpenBus

/-- The dots for which a driven bit holds: those of the whole cycles in 0.6 seconds. -/
def holdDots : Nat :=
  Clock.dotsFor (Clock.cyclesPerSecond * 6 / 10)

def drive (value : UInt8) : OpenBus :=
  { value, timers := Vector.replicate 8 holdDots }

def refresh (bus : OpenBus) (mask : UInt8) : OpenBus :=
  { bus with timers := bus.timers.mapIdx fun i timer => if Byte.bit mask i then holdDots else timer }

/-- Puts a byte on the lines. The timers go on. -/
def latch (bus : OpenBus) (value : UInt8) : OpenBus :=
  { bus with value }

/-- The bits that are still there after the next dot. -/
def held (timers : Vector Nat 8) : UInt8 :=
  Byte.ofBits (timers[0] != 1) (timers[1] != 1) (timers[2] != 1) (timers[3] != 1)
    (timers[4] != 1) (timers[5] != 1) (timers[6] != 1) (timers[7] != 1)

/-- The passing of one dot. A bit falls to zero when its timer runs out. -/
def tick (bus : OpenBus) : OpenBus :=
  { value := bus.value &&& held bus.timers, timers := bus.timers.map (· - 1) }

end OpenBus

end NesMachine
