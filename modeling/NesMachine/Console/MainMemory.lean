import NesMachine.AddressSpace.Basic
import NesMachine.Console.Observer

/-!
# Main memory

The processor's bus reaches 2 KiB of working memory, shown four times; the eight registers of the
picture unit, shown over 8 KiB; 8 KiB for expansion and 8 KiB of saved memory; and two program banks of
16 KiB. Observers may watch addresses.

`layout` says so as an address space; `place` is the same map as arithmetic. That they agree is
`locate_layout`.
-/

namespace NesMachine

/-- The storage behind the processor's bus and the observers of its addresses. -/
structure MainMemory where
  /-- Storage, by cell. -/
  cells : Ram 16
  observers : Observers := []

inductive MountError
  | unsupportedProgramSize (actual : Nat)
  | unsupportedPatternSize (actual : Nat)
  deriving DecidableEq, Repr

def MountError.message : MountError → String
  | .unsupportedProgramSize actual =>
    "unsupported PRG ROM size: " ++ toString actual ++ " bytes (expected 16 KiB or 32 KiB)"
  | .unsupportedPatternSize actual =>
    "unsupported CHR ROM size: " ++ toString actual ++ " bytes (expected 0 or 8 KiB)"

namespace MainMemory

/-! ## The map -/

def layout : Layout :=
  .composite <|
    .cons (.repeated (.block { start := 0x0000, stop := 0x0800 }) 4) <|
    .cons (.repeated (.device { start := 0x2000, stop := 0x2008 }) 1024) <|
    .cons (.block { start := 0x4000, stop := 0x6000 }) <|
    .cons (.block { start := 0x6000, stop := 0x8000 }) <|
    .cons (.block { start := 0x8000, stop := 0xC000 }) <|
    .last (.block { start := 0xC000, stop := 0x10000 })

def place (address : UInt16) : Place :=
  if address.toNat < 0x2000 then .cell (address.toNat % 0x800)
  else if address.toNat < 0x4000 then .device (0x2000 + address.toNat % 8)
  else .cell address.toNat

theorem land_layout (address : UInt16) :
    layout.land address.toNat = .ok (layout.walk address.toNat) :=
  if_pos ⟨Nat.zero_le _, address.toNat_lt⟩

/-- The walk through the tree comes to the place that is read off the address. -/
theorem walk_layout (address : UInt16) :
    layout.walk address.toNat = .place (place address) := by
  simp only [layout, place, Layout.walk, Tiling.walk, Layout.start, Layout.stop]
  simp only [Nat.sub_zero, Nat.zero_add]
  by_cases work : address.toNat < 0x2000
  · simp [work]
  · by_cases registers : address.toNat < 0x4000
    · have folded : (address.toNat - 0x2000) % 8 = address.toNat % 8 := by omega
      simp [work, registers, folded]
    · by_cases expansion : address.toNat < 0x6000 <;> by_cases saved : address.toNat < 0x8000 <;>
        by_cases lower : address.toNat < 0xC000 <;> simp [work, registers, expansion, saved, lower]

/-- No access on the processor's bus fails, and none is redirected. -/
theorem locate_layout (address : UInt16) :
    layout.locate address.toNat = .ok (place address) :=
  Layout.locate_of_place (by rw [land_layout, walk_layout])

/-! ## Construction -/

def bankSize : Nat := 0x4000

def ofBanks (lower upper : List UInt8) : Except MountError MainMemory :=
  if lower.length ≠ bankSize then
    .error (.unsupportedProgramSize lower.length)
  else if upper.length ≠ bankSize then
    .error (.unsupportedProgramSize upper.length)
  else
    .ok { cells := (Ram.zero 16).setBytes 0x8000 (lower ++ upper) }

/-- Puts an observer at an address and returns the one that was there. -/
def observe (memory : MainMemory) (address : UInt16) (observer : Observer) :
    Option Observer × MainMemory :=
  let (replaced, observers) := memory.observers.insert address observer
  (replaced, { memory with observers })

def clearWork (memory : MainMemory) : MainMemory :=
  let cleared := memory.cells.overlay (Ram.zero 16) 0x0000 0x0800
  { memory with cells := cleared.overlay (Ram.zero 16) 0x6000 0x8000 }

def space (memory : MainMemory) : AddressSpace :=
  { layout, cells := memory.cells }

/-! ## Access -/

section Device

variable {δ : Type} [Device δ]

def read (memory : MainMemory) (address : UInt16) (device : δ) : UInt8 × δ :=
  match place address with
  | .cell cell => (memory.cells.get cell, device)
  | .device folded => Device.read device (UInt16.ofNat folded)

/-- Writes a byte with a device at the registers, and then shows it to the observer of the address. -/
def write (memory : MainMemory) (address : UInt16) (value : UInt8) (device : δ) :
    Option Signal × MainMemory × δ :=
  let (cells, device) :=
    match place address with
    | .cell cell => (memory.cells.set cell value, device)
    | .device folded => (memory.cells, Device.write device (UInt16.ofNat folded) value)
  let (signal, observers) := memory.observers.notify address value
  (signal, { cells, observers }, device)

/-- A read through the tree is a read of the flat storage or of the device. -/
theorem readVia_space (memory : MainMemory) (address : UInt16) (device : δ) :
    memory.space.readVia address device = .ok (memory.read address device) := by
  have located : memory.space.locate address = .ok (place address) := locate_layout address
  rw [AddressSpace.readVia, located, read]
  cases place address <;> rfl

/-- A write through the tree is a write that no observer is shown. -/
theorem writeVia_space (memory : MainMemory) (address : UInt16) (value : UInt8) (device : δ) :
    memory.space.writeVia address value device =
      let (_, memory, device) := memory.write address value device
      .ok (memory.space, device) := by
  have located : memory.space.locate address = .ok (place address) := locate_layout address
  rw [AddressSpace.writeVia, located, write]
  cases place address <;> rfl

end Device

def isRegister (address : UInt16) : Bool :=
  0x2000 ≤ address && address < 0x4000

/-- Reads a byte of storage. The registers have none. -/
def peek (memory : MainMemory) (address : UInt16) : Option UInt8 :=
  if isRegister address then none else (memory.space.read address).toOption

end MainMemory

end NesMachine
