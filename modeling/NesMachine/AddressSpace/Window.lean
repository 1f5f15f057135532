import NesMachine.Hexadecimal

/-!
# Address windows

A `Window` is a nonempty half-open interval of the 16-bit bus. Its end may be `$10000`, one past the
last address. `LayoutError` lists the reasons for which windows and the spaces built from them are
refused.
-/

namespace NesMachine

/-- One past the last address of the bus. -/
def busEnd : Nat := 0x10000

/-- The largest end that a refused window is reported with. -/
def reportedEndMax : Nat := 0xFFFFFFFF

inductive LayoutError
  | invalidWindow (start stop : Nat)
  | emptyComposite
  | notContiguous (expected actual : Nat)
  /-- A repeated window that is shown not even once. -/
  | noRepeats
  /-- A redirected window that shares an address with its target. -/
  | overlapsTarget
  deriving DecidableEq, Repr

def LayoutError.message : LayoutError → String
  | .invalidWindow start stop =>
    "invalid address range [" ++ Hexadecimal.address start ++ ", " ++ Hexadecimal.address stop ++ ")"
  | .emptyComposite => "composite address space needs at least one child"
  | .notContiguous expected actual =>
    "composite children are not contiguous: expected start " ++ Hexadecimal.address expected ++
      ", got " ++ Hexadecimal.address actual
  | .noRepeats => "invalid mirror: repeat count must be positive"
  | .overlapsTarget => "invalid mirror: mirror window overlaps its target"

/-- The addresses from `start` up to but not including `stop`. -/
structure Window where
  start : Nat
  stop : Nat
  start_lt_stop : start < stop := by decide
  stop_le_busEnd : stop ≤ busEnd := by decide
  deriving DecidableEq, Repr

def intervalText (start stop : Nat) : String :=
  "[$" ++ Hexadecimal.upper 4 start ++ ", $" ++ Hexadecimal.upper 5 stop ++ ")"

namespace Window

/-- The window between two bounds, unless it is empty or leaves the bus. -/
def ofBounds (start stop : Nat) : Except LayoutError Window :=
  if h : start < stop ∧ stop ≤ busEnd then
    .ok { start, stop, start_lt_stop := h.1, stop_le_busEnd := h.2 }
  else
    .error (.invalidWindow start stop)

def ofLength (start length : Nat) : Except LayoutError Window :=
  ofBounds start (min (start + length) reportedEndMax)

def length (w : Window) : Nat :=
  w.stop - w.start

instance : Membership Nat Window where
  mem w address := w.start ≤ address ∧ address < w.stop

instance (address : Nat) (w : Window) : Decidable (address ∈ w) :=
  inferInstanceAs (Decidable (w.start ≤ address ∧ address < w.stop))

def Overlaps (v w : Window) : Prop :=
  v.start < w.stop ∧ w.start < v.stop

instance (v w : Window) : Decidable (v.Overlaps w) :=
  inferInstanceAs (Decidable (v.start < w.stop ∧ w.start < v.stop))

def text (w : Window) : String :=
  intervalText w.start w.stop

end Window

end NesMachine
