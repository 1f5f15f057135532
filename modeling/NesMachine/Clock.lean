/-!
# Clock rates

The picture unit processes three dots in the time of one processor cycle. A scanline has 341 dots and
a frame has 262 scanlines.
-/

namespace NesMachine.Clock

def cyclesPerSecond : Nat := 1789773

def dotsPerCycle : Nat := 3

def dotsPerScanline : Nat := 341

def scanlinesPerFrame : Nat := 262

def dotsPerFrame : Nat := dotsPerScanline * scanlinesPerFrame

def dotsFor (cycles : Nat) : Nat :=
  cycles * dotsPerCycle

/-- The whole processor cycles in a span of time, at most `2 ^ 64 - 1`. There are none in a span that
is not positive or not finite. -/
def cyclesFor (seconds : Float) : Nat :=
  if seconds.isFinite && seconds > 0 then
    (seconds * Float.ofNat cyclesPerSecond).toUInt64.toNat
  else
    0

end NesMachine.Clock
