import NesMachine.AddressSpace.Window

/-!
# Layouts of an address space

A `Layout` says what stands behind each address of a bus: storage, a device, or another window that is
shown there once more. Looking an address up folds it through repeated windows and follows at most one
redirection, and ends in a `Place`: a cell of storage or an address of a device. Two addresses are
aliases when they have the same place.

The constructors below check what the look-up relies on: the parts of a composite follow one another
without gap or overlap, and every window lies on the bus.
-/

namespace NesMachine

mutual

/-- What stands behind the addresses of a window. -/
inductive Layout
  /-- Storage, one cell for each address. -/
  | block (window : Window)
  /-- Parts side by side. -/
  | composite (parts : Tiling)
  /-- The base, repeated `times` times from its own start on. -/
  | repeated (base : Layout) (times : Nat)
  /-- Shows the window of the same length at `target` in the enclosing space. -/
  | redirect (window : Window) (target : Nat)
  /-- A device that is supplied with each access. -/
  | device (window : Window)

inductive Tiling
  | last (part : Layout)
  | cons (part : Layout) (rest : Tiling)

end

deriving instance DecidableEq, Repr for Layout, Tiling

inductive Place
  | cell (address : Nat)
  | device (address : Nat)
  deriving DecidableEq, Repr

inductive Fault
  | outside (address start stop : Nat)
  | chainedRedirect (address next : Nat)
  | detachedRead (address : Nat)
  | detachedWrite (address : Nat)
  deriving DecidableEq, Repr

def Fault.message : Fault → String
  | .outside address start stop =>
    "address $" ++ Hexadecimal.upper 4 address ++ " is outside " ++ intervalText start stop
  | .chainedRedirect address next =>
    "mirror window at $" ++ Hexadecimal.upper 4 address ++ " redirects into another mirror at $" ++
      Hexadecimal.upper 4 next
  | .detachedRead address =>
    "read from port window at $" ++ Hexadecimal.upper 4 address ++ " without an attached device"
  | .detachedWrite address =>
    "write to port window at $" ++ Hexadecimal.upper 4 address ++ " without an attached device"

/-! ## Bounds -/

mutual

def Layout.start : Layout → Nat
  | .block window => window.start
  | .composite parts => parts.start
  | .repeated base _ => base.start
  | .redirect window _ => window.start
  | .device window => window.start

def Tiling.start : Tiling → Nat
  | .last part => part.start
  | .cons part _ => part.start

end

mutual

/-- One past the last address. -/
def Layout.stop : Layout → Nat
  | .block window => window.stop
  | .composite parts => parts.stop
  | .repeated base times => base.stop + (times - 1) * (base.stop - base.start)
  | .redirect window _ => window.stop
  | .device window => window.stop

def Tiling.stop : Tiling → Nat
  | .last part => part.stop
  | .cons _ rest => rest.stop

end

def Layout.text (layout : Layout) : String :=
  intervalText layout.start layout.stop

def Tiling.toList : Tiling → List Layout
  | .last part => [part]
  | .cons part rest => part :: rest.toList

/-! ## Look-up -/

/-- Where one walk from the root of a layout ends. -/
inductive Landing
  | place (place : Place)
  | redirect (address : Nat)
  deriving DecidableEq, Repr

mutual

/-- Walks down to the node that serves an address of the layout's window. -/
def Layout.walk (address : Nat) : Layout → Landing
  | .block _ => .place (.cell address)
  | .composite parts => parts.walk address
  | .repeated base _ =>
    base.walk (base.start + (address - base.start) % (base.stop - base.start))
  | .redirect window target => .redirect (target + (address - window.start))
  | .device _ => .place (.device address)

/-- Walks down into the first part that ends past the address. -/
def Tiling.walk (address : Nat) : Tiling → Landing
  | .last part => part.walk address
  | .cons part rest => if address < part.stop then part.walk address else rest.walk address

end

/-- Walks from the root, after checking that the layout covers the address. -/
def Layout.land (layout : Layout) (address : Nat) : Except Fault Landing :=
  if layout.start ≤ address ∧ address < layout.stop then
    .ok (layout.walk address)
  else
    .error (.outside address layout.start layout.stop)

/-- The place of an address. A redirected access starts again at the root, once. -/
def Layout.locate (layout : Layout) (address : Nat) : Except Fault Place :=
  match layout.land address with
  | .error fault => .error fault
  | .ok (.place place) => .ok place
  | .ok (.redirect next) =>
    match layout.land next with
    | .error fault => .error fault
    | .ok (.place place) => .ok place
    | .ok (.redirect _) => .error (.chainedRedirect address next)

theorem Layout.locate_of_place {layout : Layout} {address : Nat} {place : Place}
    (landed : layout.land address = .ok (.place place)) : layout.locate address = .ok place := by
  rw [Layout.locate, landed]

theorem Layout.locate_of_redirect {layout : Layout} {address next : Nat} {place : Place}
    (landed : layout.land address = .ok (.redirect next))
    (again : layout.land next = .ok (.place place)) : layout.locate address = .ok place := by
  rw [Layout.locate, landed]
  simp only [again]

/-! ## Constructors -/

namespace Layout

/-- Where a part ends and the next one starts instead, at the first place where the two differ. -/
def firstGap : List Layout → Option (Nat × Nat)
  | left :: right :: rest =>
    if left.stop = right.start then firstGap (right :: rest) else some (left.stop, right.start)
  | _ => none

def tile (first : Layout) : List Layout → Tiling
  | [] => .last first
  | second :: rest => .cons first (tile second rest)

def ofBlock (start length : Nat) : Except LayoutError Layout :=
  .block <$> Window.ofLength start length

def ofDevice (start length : Nat) : Except LayoutError Layout :=
  .device <$> Window.ofLength start length

def ofParts : List Layout → Except LayoutError Layout
  | [] => .error .emptyComposite
  | first :: rest =>
    match firstGap (first :: rest) with
    | some (expected, actual) => .error (.notContiguous expected actual)
    | none => do
      let parts := tile first rest
      let _ ← Window.ofBounds parts.start parts.stop
      return .composite parts

def ofRepeated (base : Layout) (times : Nat) : Except LayoutError Layout :=
  if times = 0 then
    .error .noRepeats
  else do
    let whole := Layout.repeated base times
    let _ ← Window.ofBounds whole.start (min whole.stop reportedEndMax)
    return whole

def ofRedirect (target start length : Nat) : Except LayoutError Layout := do
  let window ← Window.ofLength start length
  let aliased ← Window.ofLength target length
  if window.Overlaps aliased then
    throw .overlapsTarget
  return .redirect window target

end Layout

end NesMachine
