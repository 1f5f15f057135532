import Mathlib.Tactic.IntervalCases
import NesMachine.Proofs.Byte
import NesMachine.Proofs.Ppu.Events
import NesMachine.Proofs.Ram

/-!
# The port of sprite memory

Sprite memory is reached a byte at a time, at an address that the picture unit keeps. A write moves this
address on, around the end of the memory; on a line that is being drawn it does nothing at all. A read leaves
the address where it is, and of the attributes of a sprite it leaves out three bits, which the memory keeps.

* `Ppu.send_oamData`: writes in a row, where the line is not being drawn.
* `Ppu.send_oamData_of_isRendering`: writes in a row, where it is.
* `Ppu.receive_oamData`: reads in a row.
* `Ppu.sprite_port_stores_and_wraps`: all of it, from an address that is written first.
-/

namespace NesMachine

theorem Mask.rendering_iff (mask : Mask) :
    mask.rendering = true ↔ Byte.bit mask.byte 3 = true ∨ Byte.bit mask.byte 4 = true :=
  Byte.forall_of_all
    (P := fun byte => (byte &&& 0x18 != 0) = true ↔ Byte.bit byte 3 = true ∨ Byte.bit byte 4 = true)
    (by decide +kernel) mask.byte

namespace Ppu

variable (ppu : Ppu)

/-- Rendering takes a line of the picture or the one before it, and one of two mask bits. -/
theorem isRendering_iff : ppu.isRendering = true ↔
    ppu.beam.scanline < 240 ∧
      (Byte.bit ppu.latches.mask.byte 3 = true ∨ Byte.bit ppu.latches.mask.byte 4 = true) := by
  rw [isRendering, Bool.and_eq_true, decide_eq_true_iff, Mask.rendering_iff]
  rfl

/-! ## Writes -/

/-- A write to the sprite port stores and moves on, unless the line is being rendered. -/
theorem writeRegister_oamData (byte : UInt8) : ppu.writeRegister 0x2004 byte =
    if ppu.isRendering then { ppu with openBus := OpenBus.drive byte }
    else
      { ppu with
        openBus := OpenBus.drive byte
        oam := ppu.oam.set ppu.latches.oamAddress.toNat byte
        latches := { ppu.latches with oamAddress := ppu.latches.oamAddress + 1 } } := rfl

/-- Where the line is not being drawn, bytes are stored in a row and the address moves past them. -/
theorem send_oamData (h : ppu.isRendering = false) (bytes : List UInt8) :
    ∃ openBus, ppu.send 0x2004 bytes =
      { ppu with
        openBus
        oam := ppu.oam.setBytes ppu.latches.oamAddress.toNat bytes
        latches :=
          { ppu.latches with oamAddress := ppu.latches.oamAddress + UInt8.ofNat bytes.length } } := by
  induction bytes generalizing ppu with
  | nil => exact ⟨ppu.openBus, by simp [send, Ram.setBytes]⟩
  | cons byte rest ih =>
    let start := ppu.latches.oamAddress
    have hStored := ppu.writeRegister_oamData byte
    rw [h] at hStored
    obtain ⟨openBus, hRest⟩ := ih (ppu.writeRegister 0x2004 byte) (hStored ▸ h)
    -- The memory does not tell an address past its end from the one at which it starts over.
    have hWrap (ram : Ram 8) : ram.setBytes (start + 1).toNat rest = ram.setBytes (start.toNat + 1) rest := by
      rw [← Ram.setBytes_mod ram (start.toNat + 1), UInt8.toNat_add]
      rfl
    have hEnd : start + 1 + UInt8.ofNat rest.length = start + UInt8.ofNat (byte :: rest).length := by
      rw [List.length_cons, Nat.add_comm, UInt8.ofNat_add, UInt8.add_assoc]
      rfl
    refine ⟨openBus, ?_⟩
    calc
      ppu.send 0x2004 (byte :: rest) = (ppu.writeRegister 0x2004 byte).send 0x2004 rest := rfl
      _ = _ := hRest
      _ = _ := by
        rw [hStored]
        simp only [Bool.false_eq_true, if_false, hWrap, hEnd, start, Ram.setBytes]

/-- While the line is being drawn, nothing is stored and the address stays. -/
theorem send_oamData_of_isRendering (h : ppu.isRendering = true) (bytes : List UInt8) :
    ∃ openBus, ppu.send 0x2004 bytes = { ppu with openBus } := by
  induction bytes generalizing ppu with
  | nil => exact ⟨ppu.openBus, rfl⟩
  | cons byte rest ih =>
    have hDropped := ppu.writeRegister_oamData byte
    rw [h] at hDropped
    obtain ⟨openBus, hRest⟩ := ih (ppu.writeRegister 0x2004 byte) (hDropped ▸ h)
    refine ⟨openBus, ?_⟩
    calc
      ppu.send 0x2004 (byte :: rest) = (ppu.writeRegister 0x2004 byte).send 0x2004 rest := rfl
      _ = _ := hRest
      _ = { ppu with openBus } := by rw [hDropped]; rfl

/-! ## Reads -/

/-- Reads in a row show the same byte and leave all but the open bus as it was. -/
theorem receive_oamData (n : Nat) :
    ∃ openBus, ppu.receive 0x2004 n = (List.replicate n ppu.oamByte, { ppu with openBus }) := by
  induction n generalizing ppu with
  | zero => exact ⟨ppu.openBus, rfl⟩
  | succ n ih =>
    obtain ⟨openBus, hRest⟩ := ih (ppu.readRegister 0x2004).2
    refine ⟨openBus, ?_⟩
    rw [receive, hRest]
    rfl

/-- The byte that a read shows lacks bits 2 to 4 in every fourth byte, from the third on. -/
theorem bit_oamByte {line : Nat} (h : line < 8) : Byte.bit ppu.oamByte line =
    (Byte.bit (ppu.oam.get ppu.latches.oamAddress.toNat) line &&
      !decide (ppu.latches.oamAddress.toNat % 4 = 2 ∧ 2 ≤ line ∧ line ≤ 4)) := by
  have hAttribute : ppu.latches.oamAddress % 4 = 2 ↔ ppu.latches.oamAddress.toNat % 4 = 2 := by
    rw [← UInt8.toNat_inj, UInt8.toNat_mod]
    rfl
  have hShown : Byte.bit 0xE3 line = !decide (2 ≤ line ∧ line ≤ 4) := by
    interval_cases line <;> rfl
  simp only [oamByte, hAttribute]
  split
  · rename_i hPlace
    simp [hShown, hPlace]
  · rename_i hPlace
    simp [hPlace]

/-! ## From an address on -/

/-- **The sprite port stores, wraps and is protected while a line is drawn.** Write an address and then bytes,
with no time in between. If the line is one of the picture and something is shown, the memory is as it was and
the address is the one that was written. Otherwise up to 256 bytes stand from the address on, around the end,
no other byte has changed, and the address is past them. Then write any address and read as often as you like:
each read shows the byte there, without bits 2 to 4 if it is an attribute byte, and changes neither the memory
nor the address. -/
theorem sprite_port_stores_and_wraps (start : UInt8) (bytes : List UInt8) (hLength : bytes.length ≤ 256) :
    let written := (ppu.writeRegister 0x2003 start).send 0x2004 bytes
    let drawn := ppu.beam.scanline < 240 ∧
      (Byte.bit ppu.latches.mask.byte 3 = true ∨ Byte.bit ppu.latches.mask.byte 4 = true)
    (drawn → written.oam = ppu.oam ∧ written.latches.oamAddress = start) ∧
    (¬drawn →
      (∀ (k : Nat) (hk : k < bytes.length),
        written.oam.get ((start.toNat + k) % 256) = bytes[k]) ∧
      (∀ i < 256, (∀ k < bytes.length, (start.toNat + k) % 256 ≠ i) →
        written.oam.get i = ppu.oam.get i) ∧
      written.latches.oamAddress.toNat = (start.toNat + bytes.length) % 256) ∧
    ∀ (i : UInt8) (n : Nat),
      let shown := (written.writeRegister 0x2003 i).receive 0x2004 n
      (∃ byte, shown.1 = List.replicate n byte ∧ ∀ line < 8, Byte.bit byte line =
        (Byte.bit (written.oam.get i.toNat) line &&
          !decide (i.toNat % 4 = 2 ∧ 2 ≤ line ∧ line ≤ 4))) ∧
      shown.2.oam = written.oam ∧ shown.2.latches.oamAddress = i := by
  intro written drawn
  let placed := ppu.writeRegister 0x2003 start
  refine ⟨fun hDrawn => ?_, fun hIdle => ?_, fun i n => ?_⟩
  · -- While a line is drawn, only the open bus takes the bytes.
    have hLine : placed.isRendering = true := ppu.isRendering_iff.mpr hDrawn
    obtain ⟨openBus, hSend⟩ := placed.send_oamData_of_isRendering hLine bytes
    have hWritten : written = _ := hSend
    rw [hWritten]
    exact ⟨rfl, rfl⟩
  · -- Otherwise the bytes are stored one after the other, modulo the size of the memory.
    have hLine : placed.isRendering = false :=
      Bool.eq_false_iff.mpr (mt ppu.isRendering_iff.mp hIdle)
    obtain ⟨openBus, hSend⟩ := placed.send_oamData hLine bytes
    have hWritten : written = _ := hSend
    have hOam : written.oam = ppu.oam.setBytes start.toNat bytes := by
      rw [hWritten]
      rfl
    have hAddress : written.latches.oamAddress = start + UInt8.ofNat bytes.length := by
      rw [hWritten]
      rfl
    rw [hOam, hAddress]
    refine ⟨?_, ?_, by simp⟩
    · intro k hk
      have hFold := Ram.get_mod (ppu.oam.setBytes start.toNat bytes) (start.toNat + k)
      exact hFold.trans (Ram.get_setBytes_add ppu.oam start.toNat bytes hLength k hk)
    · intro i hi hOutside
      refine Ram.get_setBytes_of_outside ppu.oam start.toNat bytes i fun k hk => ?_
      rw [Nat.mod_eq_of_lt (show i < 2 ^ 8 from hi)]
      exact hOutside k hk
  · -- The address does not move with reads, so all of them show the same byte.
    obtain ⟨openBus, hReceive⟩ := (written.writeRegister 0x2003 i).receive_oamData n
    intro shown
    have hShown : shown = _ := hReceive
    rw [hShown]
    exact ⟨⟨_, rfl, fun line hLine => bit_oamByte _ hLine⟩, rfl, rfl⟩

/-- Bytes from `$FE` on come around to the start, and the third byte of a sprite is shown without three of its
bits. -/
theorem sprite_port_over_the_end :
    let written := (({} : Ppu).writeRegister 0x2003 0xFE).send 0x2004 [0x11, 0x22, 0x33, 0x44, 0xFF]
    [0x11, 0x22, 0x33, 0x44, 0xFF].length ≤ 256 ∧ written.oam.get 0x00 = 0x33 ∧
      written.oam.get 0x02 = 0xFF ∧ written.latches.oamAddress.toNat = 0x03 ∧
      ∃ byte, ((written.writeRegister 0x2003 0x02).receive 0x2004 2).1 = [byte, byte] ∧
        Byte.bit byte 2 = false ∧ Byte.bit byte 5 = true := by
  intro written
  have hPort := sprite_port_stores_and_wraps {} 0xFE [0x11, 0x22, 0x33, 0x44, 0xFF] (by decide)
  have hStored := hPort.2.1 (by decide)
  obtain ⟨byte, hShown, hBits⟩ := (hPort.2.2 0x02 2).1
  have hByte : written.oam.get 0x02 = 0xFF := hStored.1 4 (by decide)
  refine ⟨by decide, hStored.1 2 (by decide), hByte, hStored.2.2, byte, hShown, ?_, ?_⟩
  · exact (hBits 2 (by decide)).trans (by simp)
  · have hBit := hBits 5 (by decide)
    rw [show written.oam.get (0x02 : UInt8).toNat = 0xFF from hByte] at hBit
    exact hBit

end Ppu

end NesMachine
