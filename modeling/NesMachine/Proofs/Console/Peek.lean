import NesMachine.Console.Machine
import NesMachine.Proofs.Console.Accesses

/-!
# Peeking

A peek says what a read would return, without the read. The two are decided separately: a peek tests the
window of the registers and works the value of a register out by itself, and a read follows the layout and
goes through the steps of the register.

* `Ppu.registerValue_eq`: the value of a register is what a read of it returns.
* `Machine.peek_agrees_with_read`: a peek is a read, at every address and in every state.
-/

namespace NesMachine

/-! ## Registers -/

namespace PpuRegister

/-- Folding an address of the register window does not change the register. -/
theorem ofAddress_ofNat (address : UInt16) :
    ofAddress (UInt16.ofNat (0x2000 + address.toNat % 8)) = ofAddress address := by
  have hMirror : (UInt16.ofNat (0x2000 + address.toNat % 8)).toNat % 8 = address.toNat % 8 := by
    rw [UInt16.toNat_ofNat']
    omega
  rw [ofAddress, ofAddress, hMirror]

end PpuRegister

namespace Ppu

/-- A register answers at all of its addresses alike. -/
theorem readRegister_congr (ppu : Ppu) {a b : UInt16}
    (h : PpuRegister.ofAddress a = PpuRegister.ofAddress b) :
    ppu.readRegister a = ppu.readRegister b := by
  rw [readRegister, readRegister, h]

/-- A read starts timers and moves latches, but not before it has its value. -/
theorem registerValue_eq (ppu : Ppu) (address : UInt16) :
    ppu.registerValue address = (ppu.readRegister address).1 := by
  rw [registerValue, readRegister]
  -- Only the data register has two ways to its value: the buffer, or the palette over the bus.
  cases PpuRegister.ofAddress address with
  | data =>
    simp only [dataRead]
    split
    · rfl
    · rfl
  | _ => rfl

end Ppu

/-! ## Main memory -/

namespace MainMemory

theorem isRegister_iff (address : UInt16) :
    isRegister address = true ↔ 0x2000 ≤ address.toNat ∧ address.toNat < 0x4000 := by
  rw [isRegister, Bool.and_eq_true, decide_eq_true_eq, decide_eq_true_eq]
  exact Iff.rfl

/-- The window of the registers is where the layout has the device. -/
theorem place_of_isRegister {address : UInt16} (h : isRegister address = true) :
    place address = .device (0x2000 + address.toNat % 8) := by
  have hWindow := (isRegister_iff address).mp h
  have hNotWork : ¬address.toNat < 0x2000 := Nat.not_lt_of_le hWindow.1
  rw [place, if_neg hNotWork, if_pos hWindow.2]

/-- Every other address has a byte of storage behind it. -/
theorem place_of_not_isRegister {address : UInt16} (h : isRegister address = false) :
    ∃ cell, place address = .cell cell := by
  have hWindow : ¬(0x2000 ≤ address.toNat ∧ address.toNat < 0x4000) := by
    rw [← isRegister_iff, h]
    decide
  by_cases hWork : address.toNat < 0x2000
  · exact ⟨_, if_pos hWork⟩
  · have hAbove : ¬address.toNat < 0x4000 := by omega
    exact ⟨address.toNat, by rw [place, if_neg hWork, if_neg hAbove]⟩

variable {δ : Type} [Device δ] (memory : MainMemory)

theorem read_of_isRegister {address : UInt16} (h : isRegister address = true) (device : δ) :
    memory.read address device =
      Device.read device (UInt16.ofNat (0x2000 + address.toNat % 8)) := by
  rw [read, place_of_isRegister h]

theorem peek_of_isRegister {address : UInt16} (h : isRegister address = true) :
    memory.peek address = none :=
  if_pos h

/-- Outside the window a peek finds the byte that a read finds, and a read leaves the device alone. -/
theorem read_of_not_isRegister {address : UInt16} (h : isRegister address = false) :
    ∃ value, memory.peek address = some value ∧
      ∀ device : δ, memory.read address device = (value, device) := by
  rcases place_of_not_isRegister h with ⟨cell, hPlace⟩
  have hLocate : memory.space.locate address = .ok (.cell cell) := by
    rw [← hPlace]
    exact locate_layout address
  refine ⟨memory.cells.get cell, ?_, ?_⟩
  · rw [peek, h, AddressSpace.read, hLocate]
    rfl
  · intro device
    rw [read, hPlace]

end MainMemory

/-! ## The machine -/

namespace Machine

/-- **A peek is a read.** In every state and at every address the layout serves a timed read, which returns
the byte that a peek returns; and outside the window of the registers it changes the cycle counter and
nothing else. -/
theorem peek_agrees_with_read (machine : Machine) (address : UInt16) :
    let timed := Bus.read machine.bus address
    machine.peek address = timed.1 ∧
      machine.bus.memory.space.readVia address machine.ppu = .ok (timed.1, timed.2.ppu) ∧
      (¬(0x2000 ≤ address.toNat ∧ address.toNat < 0x4000) →
        timed.2 = { machine.bus with cycles := machine.bus.cycles + 1 }) := by
  intro timed
  have hServed := machine.bus.memory.readVia_space address machine.ppu
  -- The window that a peek tests is where the layout has the device, so both take the same side.
  cases hRegister : MainMemory.isRegister address with
  | true =>
    have hWindow := (MainMemory.isRegister_iff address).mp hRegister
    refine ⟨?_, hServed, fun hOutside => absurd hWindow hOutside⟩
    calc
      machine.peek address = machine.ppu.registerValue address := by
        simp only [peek, SystemBus.peek, MainMemory.peek_of_isRegister _ hRegister, ppu]
      _ = (machine.ppu.readRegister address).1 := machine.ppu.registerValue_eq address
      _ = (machine.bus.memory.read address machine.ppu).1 := by
        rw [MainMemory.read_of_isRegister _ hRegister]
        exact congrArg Prod.fst
          (machine.ppu.readRegister_congr (PpuRegister.ofAddress_ofNat address).symm)
  | false =>
    rcases machine.bus.memory.read_of_not_isRegister (δ := Ppu) hRegister with
      ⟨value, hPeek, hRead⟩
    refine ⟨?_, hServed, fun _ => ?_⟩
    · calc
        machine.peek address = value := by simp only [peek, SystemBus.peek, hPeek]
        _ = (machine.bus.memory.read address machine.ppu).1 := by rw [hRead]
    · have hBus : timed.2 =
          { machine.bus with
            ppu := (machine.bus.memory.read address machine.bus.ppu).2
            cycles := machine.bus.cycles + 1 } := rfl
      rw [hBus, hRead]

/-- Cell `$12` of working memory, through its fourth mirror. -/
theorem peek_agrees_with_read_in_work_memory :
    let machine : Machine := { bus := { memory := { cells := (Ram.zero 16).set 0x12 0x5C } } }
    machine.peek 0x1812 = 0x5C ∧ (Bus.read machine.bus 0x1812).1 = 0x5C ∧
      (Bus.read machine.bus 0x1812).2 = { machine.bus with cycles := 1 } := by
  intro machine
  have hAgrees := peek_agrees_with_read machine 0x1812
  have hPeek : machine.peek 0x1812 = 0x5C := by decide +kernel
  exact ⟨hPeek, hAgrees.1.symm.trans hPeek, hAgrees.2.2 (by decide)⟩

end Machine

end NesMachine
