import NesMachine.Console.Machine
import NesMachine.Proofs.Ram
import NesMachine.Proofs.Safety.SystemBus

/-!
# Resets with checks

A power-on reset clears memory address by address, by plain accesses; every reset peeks at the vector.

* `AddressSpace.checkedClear_eq`: clearing cells that stand at their own addresses fails no check.
* `MainMemory.checkedClearWork_eq`, `Ppu.exists_checkedClearWork`: so it is in the two memories.
* `Machine.checkedReset_eq`: a reset fails no check.
-/

namespace NesMachine

attribute [local instance (high)] instPowNat

/-! ## Clearing -/

namespace AddressSpace

def checkedClear (space : AddressSpace) (start count : Nat) : Checked AddressSpace :=
  Checked.loop count
    (fun i space => do
      let address ← Checked.fit UInt16.size (start + i)
      space.checkedWrite (UInt16.ofNat address) 0)
    space

/-- The space with zeroes in `count` cells from `start` on. -/
def cleared (space : AddressSpace) (start count : Nat) : AddressSpace :=
  { space with cells := space.cells.overlay (Ram.zero 16) start (start + count) }

/-- The cells from `start` to `stop` stand at their own addresses. -/
def Plain (space : AddressSpace) (start stop : Nat) : Prop :=
  ∀ address, start ≤ address → address < stop →
    space.layout.locate address = .ok (.cell address)

variable {space : AddressSpace} {start count : Nat}

theorem cleared_zero (space : AddressSpace) (start : Nat) : space.cleared start 0 = space := by
  rw [cleared, Nat.add_zero, Ram.overlay_empty]

/-- Storing one more zero clears one more cell, where cells stand at their own addresses. -/
theorem write_cleared (hFits : start + count < busEnd)
    (hCell : space.layout.locate (start + count) = .ok (.cell (start + count))) :
    (space.cleared start count).write (UInt16.ofNat (start + count)) 0 =
      .ok (space.cleared start (count + 1)) := by
  have hToNat : (UInt16.ofNat (start + count)).toNat = start + count :=
    UInt16.toNat_ofNat_of_lt' hFits
  have hLocate : (space.cleared start count).locate (UInt16.ofNat (start + count)) =
      .ok (.cell (start + count)) := by
    rw [locate, hToNat]
    exact hCell
  have hSet := Ram.set_overlay space.cells (Ram.zero 16) (Nat.le_add_right start count) hFits
  rw [Ram.get_zero] at hSet
  rw [write, hLocate, cleared, cleared, ← Nat.add_assoc, ← hSet]
  rfl

/-- Clearing cells that stand at their own addresses fails no check. -/
theorem checkedClear_eq (hWellFormed : space.layout.WellFormed) (hEnd : start + count ≤ busEnd)
    (hPlain : space.Plain start (start + count)) :
    space.checkedClear start count = .ok (space.cleared start count) := by
  induction count with
  | zero =>
    rw [cleared_zero]
    rfl
  | succ count ih =>
    have hFits : start + count < UInt16.size := hEnd
    have hBefore : space.checkedClear start count = .ok (space.cleared start count) :=
      ih (Nat.le_of_lt hFits) fun address hStart hStop =>
        hPlain address hStart (Nat.lt_succ_of_lt hStop)
    have hCell := hPlain (start + count) (Nat.le_add_right _ _) (Nat.lt_succ_self _)
    have hSame : (space.cleared start count).layout.WellFormed := hWellFormed
    rw [checkedClear] at hBefore
    rw [checkedClear, Checked.loop, hBefore, Checked.ok_bind, Checked.fit_eq_ok hFits]
    exact checkedWrite_eq hSame (write_cleared hFits hCell)

end AddressSpace

/-! ## The memories of the machine -/

namespace MainMemory

def checkedClearWork (memory : MainMemory) : Checked MainMemory := do
  let space ← memory.space.checkedClear 0x0000 0x0800
  let space ← space.checkedClear 0x6000 0x2000
  return { memory with cells := space.cells }

def checkedReset (memory : MainMemory) (kind : Reset) : Checked MainMemory :=
  if kind = .powerOn then memory.checkedClearWork else return memory

/-- Working memory and what lies past the registers stand at their own addresses. -/
theorem locate_layout_of_plain {address : Nat} (hOnBus : address < busEnd)
    (hPlain : address < 0x800 ∨ 0x4000 ≤ address) :
    layout.locate address = .ok (.cell address) := by
  have hToNat : (UInt16.ofNat address).toNat = address := UInt16.toNat_ofNat_of_lt' hOnBus
  have hLocate := locate_layout (UInt16.ofNat address)
  rw [place, hToNat] at hLocate
  rw [hLocate]
  rcases hPlain with hWork | hStored
  · rw [if_pos (by omega), Nat.mod_eq_of_lt hWork]
  · rw [if_neg (by omega), if_neg (by omega)]

/-- Clearing memory fails no check. -/
theorem checkedClearWork_eq (memory : MainMemory) :
    memory.checkedClearWork = .ok memory.clearWork := by
  have hWork : memory.space.Plain 0x0000 0x0800 := fun address _ hStop =>
    locate_layout_of_plain (Nat.lt_trans hStop (by decide)) (.inl hStop)
  have hSaved : (memory.space.cleared 0x0000 0x0800).Plain 0x6000 0x8000 := fun address hStart hStop =>
    locate_layout_of_plain (Nat.lt_trans hStop (by decide)) (.inr (Nat.le_trans (by decide) hStart))
  have hFirst : memory.space.checkedClear 0x0000 0x0800 = .ok (memory.space.cleared 0x0000 0x0800) :=
    AddressSpace.checkedClear_eq layout_wellFormed (by decide) hWork
  have hSecond : (memory.space.cleared 0x0000 0x0800).checkedClear 0x6000 0x2000 =
      .ok ((memory.space.cleared 0x0000 0x0800).cleared 0x6000 0x2000) :=
    AddressSpace.checkedClear_eq layout_wellFormed (by decide) hSaved
  rw [checkedClearWork, hFirst, Checked.ok_bind, hSecond]
  rfl

theorem checkedReset_eq (memory : MainMemory) (kind : Reset) :
    memory.checkedReset kind = .ok (if kind = .powerOn then memory.clearWork else memory) := by
  rw [checkedReset, checkedClearWork_eq]
  split <;> rfl

end MainMemory

namespace Ppu

def checkedClearWork (ppu : Ppu) : Checked AddressSpace := do
  let memory ← ppu.memory.checkedClear 0x2000 0x1000
  memory.checkedClear 0x3F00 0x20

/-- A reset, with all checks. The cleared memory is that of `reset`, as far as any address shows. -/
def checkedReset (ppu : Ppu) (kind : Reset) : Checked Ppu := do
  if kind = .powerOn then
    let _ ← ppu.checkedClearWork
  return ppu.reset kind

/-- The nametables and the palette stand at their own addresses. -/
theorem locate_layout_of_plain {address : Nat}
    (hPlain : address < 0x3000 ∨ 0x3F00 ≤ address ∧ address < 0x3F20) :
    Vram.layout.locate address = .ok (.cell address) := by
  have hOnBus : address < UInt16.size := by
    simp only [UInt16.size]
    omega
  have hToNat : (UInt16.ofNat address).toNat = address := UInt16.toNat_ofNat_of_lt' hOnBus
  have hLocate := Vram.locate_layout (UInt16.ofNat address)
  have hFolded : address % 0x4000 = address := Nat.mod_eq_of_lt (by omega)
  simp only [Vram.cell, hToNat, hFolded] at hLocate
  rw [hLocate]
  rcases hPlain with hTables | hPalette
  · rw [if_pos hTables]
  · have hEntry : 0x3F00 + address % 0x20 = address := by omega
    rw [if_neg (by omega), if_neg (by omega), hEntry]

/-- Clearing through the bus shows the same bytes as `Vram.clearWork`, which also clears the cells around
the two windows, where no address comes to. -/
theorem read_cleared (ppu : Ppu) (address : UInt16) :
    Vram.read ((ppu.memory.cleared 0x2000 0x1000).cleared 0x3F00 0x20).cells address =
      Vram.read (Vram.clearWork ppu.vram) address := by
  have hReached : Vram.cell address < 0x3000 ∨
      0x3F00 ≤ Vram.cell address ∧ Vram.cell address < 0x3F20 := by
    simp only [Vram.cell]
    split
    · omega
    · split <;> omega
  have hMod : Vram.cell address % 2 ^ 16 = Vram.cell address := Nat.mod_eq_of_lt (by omega)
  simp only [Vram.read, AddressSpace.cleared, Vram.clearWork, Ram.get_overlay, Ram.get_zero, hMod]
  split
  · rw [if_pos (by omega)]
  · rename_i hOutside
    by_cases hTables : 0x2000 ≤ Vram.cell address ∧ Vram.cell address < 0x3000
    · rw [if_pos hTables, if_pos (by omega)]
    · rw [if_neg hTables, if_neg (by omega)]
      rfl

/-- Clearing video memory fails no check, and leaves what `Vram.clearWork` does at every address. -/
theorem exists_checkedClearWork (ppu : Ppu) : ∃ cleared, ppu.checkedClearWork = .ok cleared ∧
    ∀ address, Vram.read cleared.cells address = Vram.read (Vram.clearWork ppu.vram) address := by
  have hTables : ppu.memory.Plain 0x2000 0x3000 := fun address _ hStop =>
    locate_layout_of_plain (.inl hStop)
  have hPalette : (ppu.memory.cleared 0x2000 0x1000).Plain 0x3F00 0x3F20 := fun address hStart hStop =>
    locate_layout_of_plain (.inr ⟨hStart, hStop⟩)
  have hFirst : ppu.memory.checkedClear 0x2000 0x1000 = .ok (ppu.memory.cleared 0x2000 0x1000) :=
    AddressSpace.checkedClear_eq Vram.layout_wellFormed (by decide) hTables
  have hSecond : (ppu.memory.cleared 0x2000 0x1000).checkedClear 0x3F00 0x20 =
      .ok ((ppu.memory.cleared 0x2000 0x1000).cleared 0x3F00 0x20) :=
    AddressSpace.checkedClear_eq Vram.layout_wellFormed (by decide) hPalette
  refine ⟨(ppu.memory.cleared 0x2000 0x1000).cleared 0x3F00 0x20, ?_, ppu.read_cleared⟩
  rw [checkedClearWork, hFirst, Checked.ok_bind]
  exact hSecond

theorem checkedReset_eq (ppu : Ppu) (kind : Reset) : ppu.checkedReset kind = .ok (ppu.reset kind) := by
  cases kind with
  | powerOn =>
    obtain ⟨cleared, hCleared, -⟩ := ppu.exists_checkedClearWork
    rw [checkedReset, if_pos rfl, hCleared]
    rfl
  | soft => rfl

end Ppu

/-! ## The machine -/

namespace Machine

def checkedReset (machine : Machine) (kind : Reset) : Checked Machine := do
  let memory ← machine.bus.memory.checkedReset kind
  let ppu ← machine.bus.ppu.checkedReset kind
  let bus : SystemBus :=
    { memory, ppu, cycles := if kind = .powerOn then 0 else machine.bus.cycles }
  let low ← bus.checkedPeek resetVector
  let high ← bus.checkedPeek (resetVector + 1)
  return { machine with bus, dma := {}, cpu := machine.cpu.reset kind (Word.ofBytes low high) }

/-- A reset fails no check. -/
theorem checkedReset_eq (machine : Machine) (kind : Reset) :
    machine.checkedReset kind = .ok (machine.reset kind) := by
  rw [checkedReset, MainMemory.checkedReset_eq, Checked.ok_bind, Ppu.checkedReset_eq, Checked.ok_bind]
  simp only [SystemBus.checkedPeek_eq, Checked.ok_bind]
  rfl

end Machine

end NesMachine
