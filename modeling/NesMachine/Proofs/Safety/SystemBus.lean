import NesMachine.Proofs.Bus.Accesses
import NesMachine.Proofs.Console.Peek
import NesMachine.Proofs.Safety.PictureUnit

/-!
# The system bus with checks

Every access of the processor counts a cycle in a word, is looked up in the layout of main memory, and
may reach a register of the picture unit.

* `SystemBus.checkedRead_eq`, `SystemBus.checkedWrite_eq`: an access fails no check while its cycle can
  be counted.
* `SystemBus.checkedPeek_eq`: a peek never reaches the device that it has not got.
* `Script.checkedRun_eq`: nor does a script fail one, however it branches.
-/

namespace NesMachine

/-! ## Main memory -/

namespace MainMemory

def checkedRead (memory : MainMemory) (address : UInt16) (ppu : Ppu) : Checked (UInt8 × Ppu) := do
  match ← layout.checkedLocate address.toNat with
  | .cell cell => return (memory.cells.get cell, ppu)
  | .device folded => ppu.checkedReadRegister (UInt16.ofNat folded)

def checkedWrite (memory : MainMemory) (address : UInt16) (value : UInt8) (ppu : Ppu) :
    Checked (Option Signal × MainMemory × Ppu) := do
  let (cells, ppu) ←
    match ← layout.checkedLocate address.toNat with
    | .cell cell => pure (memory.cells.set cell value, ppu)
    | .device folded => do
      let ppu ← ppu.checkedWriteRegister (UInt16.ofNat folded) value
      pure (memory.cells, ppu)
  let (signal, observers) := memory.observers.notify address value
  return (signal, { cells, observers }, ppu)

def checkedPeek (memory : MainMemory) (address : UInt16) : Checked (Option UInt8) :=
  if isRegister address then
    return none
  else do
    let value ← memory.space.checkedRead address
    return some value

variable (memory : MainMemory) (address : UInt16)

/-- Every read is served, by storage or by a register. -/
theorem checkedRead_eq (ppu : Ppu) :
    memory.checkedRead address ppu = .ok (memory.read address ppu) := by
  rw [checkedRead, checkedLocate_layout, Checked.ok_bind, read]
  cases place address with
  | cell cell => rfl
  | device folded => exact ppu.checkedReadRegister_eq (UInt16.ofNat folded)

/-- Every write is served as well. -/
theorem checkedWrite_eq (value : UInt8) (ppu : Ppu) :
    memory.checkedWrite address value ppu = .ok (memory.write address value ppu) := by
  rw [checkedWrite, checkedLocate_layout, Checked.ok_bind, write]
  cases place address with
  | cell cell => rfl
  | device folded =>
    simp only [ppu.checkedWriteRegister_eq (UInt16.ofNat folded) value, Checked.ok_bind]
    rfl

theorem checkedPeek_eq : memory.checkedPeek address = .ok (memory.peek address) := by
  cases hRegister : isRegister address with
  | true =>
    rw [checkedPeek, hRegister, memory.peek_of_isRegister hRegister]
    rfl
  | false =>
    -- Outside the window of the registers every address has a cell.
    obtain ⟨cell, hCell⟩ := place_of_not_isRegister hRegister
    have hLocate : memory.space.locate address = .ok (.cell cell) := hCell ▸ locate_layout address
    have hRead : memory.space.read address = .ok (memory.cells.get cell) := by
      rw [AddressSpace.read, hLocate]
      rfl
    rw [checkedPeek, hRegister, memory.checkedRead_space hRead, peek, hRegister, hRead]
    rfl

end MainMemory

/-! ## The bus -/

namespace SystemBus

def checkedRead (bus : SystemBus) (address : UInt16) : Checked (UInt8 × SystemBus) := do
  let cycles ← Checked.fit UInt64.size (bus.cycles + 1)
  let (value, ppu) ← bus.memory.checkedRead address bus.ppu
  return (value, { bus with ppu, cycles })

def checkedWrite (bus : SystemBus) (address : UInt16) (value : UInt8) : Checked SystemBus := do
  let cycles ← Checked.fit UInt64.size (bus.cycles + 1)
  let (signal, memory, ppu) ← bus.memory.checkedWrite address value bus.ppu
  return { memory, ppu, cycles, signals := bus.signals ++ signal.toList }

def checkedPeek (bus : SystemBus) (address : UInt16) : Checked UInt8 := do
  match ← bus.memory.checkedPeek address with
  | some value => return value
  | none => bus.ppu.checkedRegisterValue address

def checkedCopySprite (bus : SystemBus) (copy : SpriteTransfer.Copy) : Checked SystemBus := do
  let (value, ppu) ← bus.memory.checkedRead copy.source bus.ppu
  let ppu ← ppu.checkedSetOam copy.offset value
  return { bus with ppu }

variable {bus : SystemBus}

/-- A timed read fails no check, as long as its cycle can be counted. -/
theorem checkedRead_eq (h : bus.cycles + 1 < UInt64.size) (address : UInt16) :
    bus.checkedRead address = .ok (bus.read address) := by
  rw [checkedRead, Checked.fit_eq_ok h, Checked.ok_bind, MainMemory.checkedRead_eq]
  rfl

theorem checkedWrite_eq (h : bus.cycles + 1 < UInt64.size) (address : UInt16) (value : UInt8) :
    bus.checkedWrite address value = .ok (bus.write address value) := by
  rw [checkedWrite, Checked.fit_eq_ok h, Checked.ok_bind, MainMemory.checkedWrite_eq]
  rfl

/-- A peek fails no check. -/
theorem checkedPeek_eq (bus : SystemBus) (address : UInt16) :
    bus.checkedPeek address = .ok (bus.peek address) := by
  rw [checkedPeek, MainMemory.checkedPeek_eq, Checked.ok_bind, peek]
  cases bus.memory.peek address with
  | some value => rfl
  | none => exact bus.ppu.checkedRegisterValue_eq address

theorem checkedCopySprite_eq (bus : SystemBus) (copy : SpriteTransfer.Copy) :
    bus.checkedCopySprite copy = .ok (bus.copySprite copy) := by
  rw [checkedCopySprite, MainMemory.checkedRead_eq, Checked.ok_bind]
  simp only [Ppu.checkedSetOam_eq, Checked.ok_bind]
  rfl

end SystemBus

/-! ## Scripts -/

namespace Script

variable {α : Type}

def checkedRun : Script α → SystemBus → Checked (α × SystemBus)
  | done result, bus => return (result, bus)
  | read address next, bus => do
    let (byte, bus) ← bus.checkedRead address
    (next byte).checkedRun bus
  | write address value next, bus => do
    let bus ← bus.checkedWrite address value
    next.checkedRun bus

/-- The cycle counter never runs back. -/
theorem cycles_le_run (script : Script α) (bus : SystemBus) :
    bus.cycles ≤ (script.run bus).2.cycles := by
  have hCycles : (script.run bus).2.cycles = bus.cycles + (script.accesses bus).length :=
    script.cycles_run bus
  rw [hCycles]
  exact Nat.le_add_right _ _

/-- A script fails no check, if the cycles can be counted until it ends. -/
theorem checkedRun_eq {script : Script α} {bus : SystemBus}
    (h : (script.run bus).2.cycles < UInt64.size) : script.checkedRun bus = .ok (script.run bus) := by
  induction script generalizing bus with
  | done result => rfl
  | read address next ih =>
    have hHere : bus.cycles + 1 < UInt64.size :=
      Nat.lt_of_le_of_lt (cycles_le_run (next (bus.read address).1) (bus.read address).2) h
    rw [checkedRun, SystemBus.checkedRead_eq hHere, Checked.ok_bind]
    exact ih _ h
  | write address value next ih =>
    have hHere : bus.cycles + 1 < UInt64.size :=
      Nat.lt_of_le_of_lt (cycles_le_run next (bus.write address value)) h
    rw [checkedRun, SystemBus.checkedWrite_eq hHere, Checked.ok_bind]
    exact ih h

end Script

end NesMachine
