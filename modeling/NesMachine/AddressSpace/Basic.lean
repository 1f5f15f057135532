import NesMachine.AddressSpace.Layout
import NesMachine.Ram

/-!
# Address spaces

An `AddressSpace` is a layout together with the bytes of its storage. The bytes stand in one store,
each at the address of its own cell, so a write changes one byte of the store and nothing of the
layout.

Devices are attached for the time of one access. The address that a device sees is already folded
through all repeats and redirections. An access that cannot be served is a `Fault`.
-/

namespace NesMachine

class Device (δ : Type) where
  read : δ → UInt16 → UInt8 × δ
  write : δ → UInt16 → UInt8 → δ

/-- A layout and the bytes of its storage. -/
structure AddressSpace where
  layout : Layout
  cells : Ram 16
  deriving DecidableEq

namespace AddressSpace

/-! ## Constructors -/

def ofLayout (layout : Layout) : AddressSpace :=
  { layout, cells := Ram.zero 16 }

def block (start length : Nat) : Except LayoutError AddressSpace :=
  ofLayout <$> Layout.ofBlock start length

def ofBytes (start : Nat) (bytes : List UInt8) : Except LayoutError AddressSpace := do
  let layout ← Layout.ofBlock start bytes.length
  return { layout, cells := (Ram.zero 16).setBytes start bytes }

def device (start length : Nat) : Except LayoutError AddressSpace :=
  ofLayout <$> Layout.ofDevice start length

/-- Joins spaces that tile one window, in address order. -/
def composite (parts : List AddressSpace) : Except LayoutError AddressSpace := do
  let layout ← Layout.ofParts (parts.map (·.layout))
  let cells := parts.foldl
    (fun cells part => cells.overlay part.cells part.layout.start part.layout.stop) (Ram.zero 16)
  return { layout, cells }

/-- Repeats a base from its own start on. -/
def repeated (base : AddressSpace) (times : Nat) : Except LayoutError AddressSpace := do
  let layout ← Layout.ofRepeated base.layout times
  return { layout, cells := base.cells }

/-- Shows `[target, target + length)` at `[start, start + length)`. -/
def redirect (target start length : Nat) : Except LayoutError AddressSpace :=
  ofLayout <$> Layout.ofRedirect target start length

/-! ## Access -/

def locate (space : AddressSpace) (address : UInt16) : Except Fault Place :=
  space.layout.locate address.toNat

def readVia {δ : Type} [Device δ] (space : AddressSpace) (address : UInt16) (device : δ) :
    Except Fault (UInt8 × δ) := do
  match ← space.locate address with
  | .cell cell => return (space.cells.get cell, device)
  | .device folded => return Device.read device (UInt16.ofNat folded)

def writeVia {δ : Type} [Device δ] (space : AddressSpace) (address : UInt16) (value : UInt8)
    (device : δ) : Except Fault (AddressSpace × δ) := do
  match ← space.locate address with
  | .cell cell => return ({ space with cells := space.cells.set cell value }, device)
  | .device folded => return (space, Device.write device (UInt16.ofNat folded) value)

def read (space : AddressSpace) (address : UInt16) : Except Fault UInt8 := do
  match ← space.locate address with
  | .cell cell => return space.cells.get cell
  | .device folded => throw (.detachedRead folded)

def write (space : AddressSpace) (address : UInt16) (value : UInt8) : Except Fault AddressSpace := do
  match ← space.locate address with
  | .cell cell => return { space with cells := space.cells.set cell value }
  | .device folded => throw (.detachedWrite folded)

/-- Writes consecutive bytes from `start` on, where `$0000` follows `$FFFF`. Stops at the first
fault; the bytes before it stay written. -/
def load (space : AddressSpace) (start : UInt16) : List UInt8 → AddressSpace × Option Fault
  | [] => (space, none)
  | byte :: rest =>
    match space.write start byte with
    | .ok written => written.load (start + 1) rest
    | .error fault => (space, some fault)

end AddressSpace

end NesMachine
