import Mathlib.Tactic.SplitIfs
import NesMachine.Proofs.Console.Peek
import NesMachine.Proofs.Ppu.VideoMemory

/-!
# Picture units with the same bytes

The video bus does not reach every cell of the storage behind it. Two picture units that differ in cells
out of its reach at most answer alike and stay alike.

* `Ppu.Alike.readRegister`, `Ppu.Alike.writeRegister`: accesses to the registers.
* `Ppu.Alike.ticks`: the passing of dots.
* `Ppu.Alike.registerValue_eq`: what a peek at a register finds.
-/

namespace NesMachine.Ppu

def withVram (ppu : Ppu) (vram : Ram 16) : Ppu :=
  { ppu with vram }

/-- The same bytes on the video bus, and no other difference. -/
def Alike (ppu other : Ppu) : Prop :=
  ∃ vram, other = ppu.withVram vram ∧ ∀ address, Vram.read vram address = Vram.read ppu.vram address

section Dots

variable (ppu : Ppu) (vram : Ram 16)

theorem statusEvent_withVram : (ppu.withVram vram).statusEvent = ppu.statusEvent.withVram vram := by
  have hBeam : (ppu.withVram vram).beam = ppu.beam := rfl
  simp only [statusEvent, hBeam]
  split_ifs <;> rfl

theorem spriteEvent_withVram : (ppu.withVram vram).spriteEvent = ppu.spriteEvent.withVram vram := by
  have hBeam : (ppu.withVram vram).beam = ppu.beam := rfl
  simp only [spriteEvent, hBeam]
  split_ifs <;> rfl

/-- Dots do not look into video memory. -/
theorem tick_withVram : (ppu.withVram vram).tick = ppu.tick.withVram vram := by
  have hBus : { ppu.withVram vram with openBus := (ppu.withVram vram).openBus.tick } =
      { ppu with openBus := ppu.openBus.tick }.withVram vram := rfl
  rw [tick, tick, hBus, statusEvent_withVram, spriteEvent_withVram]
  rfl

/-- The passing of dots does not look at video memory. -/
theorem ticks_withVram (n : Nat) : (ppu.withVram vram).ticks n = (ppu.ticks n).withVram vram := by
  induction n generalizing ppu with
  | zero => rfl
  | succ n ih => rw [ticks, ticks, tick_withVram, ih]

theorem ticks_vram (n : Nat) : (ppu.ticks n).vram = ppu.vram := by
  have hSame := congrArg Ppu.vram (ppu.ticks_withVram ppu.vram n)
  exact hSame

end Dots

/-- A read of a register depends on video memory through the byte at the data address alone. -/
theorem readRegister_withVram (ppu : Ppu) (vram : Ram 16)
    (h : Vram.read vram ppu.dataAddress = Vram.read ppu.vram ppu.dataAddress) (address : UInt16) :
    (ppu.withVram vram).readRegister address =
      ((ppu.readRegister address).1, (ppu.readRegister address).2.withVram vram) := by
  rw [readRegister, readRegister]
  cases PpuRegister.ofAddress address with
  | data =>
    have hAddress : (ppu.withVram vram).dataAddress = ppu.dataAddress := rfl
    have hStored : Vram.read (ppu.withVram vram).vram ppu.dataAddress =
        Vram.read ppu.vram ppu.dataAddress := h
    simp only [dataRead, hAddress, hStored]
    split
    · rfl
    · rfl
  | _ => rfl

/-- Reading a register changes no byte of video memory. -/
theorem readRegister_vram (ppu : Ppu) (address : UInt16) : (ppu.readRegister address).2.vram = ppu.vram :=
  congrArg (fun answer => answer.2.vram) (ppu.readRegister_withVram ppu.vram rfl address)

theorem oamWrite_withVram (ppu : Ppu) (vram : Ram 16) (value : UInt8) :
    (ppu.withVram vram).oamWrite value = (ppu.oamWrite value).withVram vram := by
  have hLine : (ppu.withVram vram).isRendering = ppu.isRendering := rfl
  simp only [oamWrite, hLine]
  split_ifs <;> rfl

/-- A write changes video memory through the data register, and otherwise does not look into it. -/
theorem writeRegister_withVram (ppu : Ppu) (vram : Ram 16) (address : UInt16) (value : UInt8) :
    (ppu.withVram vram).writeRegister address value =
      (ppu.writeRegister address value).withVram
        (if PpuRegister.ofAddress address = .data then Vram.write vram ppu.dataAddress value else vram) := by
  rw [writeRegister, writeRegister]
  cases PpuRegister.ofAddress address with
  | oamData =>
    exact oamWrite_withVram { ppu with openBus := OpenBus.drive value } vram value
  | _ => rfl

/-- Of all registers, only the data register stores in video memory. -/
theorem writeRegister_vram (ppu : Ppu) (address : UInt16) (value : UInt8) :
    (ppu.writeRegister address value).vram =
      if PpuRegister.ofAddress address = .data then Vram.write ppu.vram ppu.dataAddress value
      else ppu.vram :=
  congrArg vram (ppu.writeRegister_withVram ppu.vram address value)

namespace Alike

variable {ppu other : Ppu}

theorem ticks (h : ppu.Alike other) (n : Nat) : (ppu.ticks n).Alike (other.ticks n) := by
  rcases h with ⟨vram, rfl, hBytes⟩
  refine ⟨vram, ppu.ticks_withVram vram n, fun address => ?_⟩
  rw [hBytes, ticks_vram]

/-- Picture units that are alike answer alike and stay so. -/
theorem readRegister (h : ppu.Alike other) (address : UInt16) :
    (ppu.readRegister address).1 = (other.readRegister address).1 ∧
      (ppu.readRegister address).2.Alike (other.readRegister address).2 := by
  rcases h with ⟨vram, rfl, hBytes⟩
  rw [readRegister_withVram ppu vram (hBytes ppu.dataAddress)]
  refine ⟨rfl, vram, rfl, fun asked => ?_⟩
  rw [hBytes, readRegister_vram]

theorem registerValue_eq (h : ppu.Alike other) (address : UInt16) :
    ppu.registerValue address = other.registerValue address := by
  rw [Ppu.registerValue_eq, Ppu.registerValue_eq]
  exact (h.readRegister address).1

/-- They take a written byte alike. -/
theorem writeRegister (h : ppu.Alike other) (address : UInt16) (value : UInt8) :
    (ppu.writeRegister address value).Alike (other.writeRegister address value) := by
  rcases h with ⟨vram, rfl, hBytes⟩
  refine ⟨_, ppu.writeRegister_withVram vram address value, fun asked => ?_⟩
  rw [writeRegister_vram]
  split
  · rw [Vram.read_write, Vram.read_write, hBytes]
  · exact hBytes asked

theorem setOam (h : ppu.Alike other) (offset value : UInt8) :
    (ppu.setOam offset value).Alike (other.setOam offset value) := by
  rcases h with ⟨vram, rfl, hBytes⟩
  exact ⟨vram, rfl, hBytes⟩

theorem releaseNmi (h : ppu.Alike other) :
    ppu.releaseNmi.1 = other.releaseNmi.1 ∧ ppu.releaseNmi.2.Alike other.releaseNmi.2 := by
  rcases h with ⟨vram, rfl, hBytes⟩
  exact ⟨rfl, vram, rfl, hBytes⟩

end Alike

end NesMachine.Ppu
