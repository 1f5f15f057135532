import NesMachine.Proofs.Ppu.Dots
import NesMachine.Proofs.Safety.Lookup

/-!
# The picture unit with checks

The position of the beam in words of fixed width, the timers of the open bus, and the registers, each
access to video or sprite memory with its own checks.

* `Beam.checkedAdvance_eq`: a valid position does not leave its words, while the count of frames fits.
* `Ppu.checkedTicks_eq`: so dots pass with no check failing.
* `Ppu.checkedReadRegister_eq`, `Ppu.checkedWriteRegister_eq`: no access to a register fails a check,
  whatever the latches hold.
-/

namespace NesMachine

/-! ## The beam -/

namespace Beam

def checkedNextLine (beam : Beam) : Checked Beam := do
  let scanline ← Checked.fitSigned 0x8000 (beam.scanline + 1)
  if lastLine < scanline then do
    let frame ← Checked.fit UInt64.size (beam.frame + 1)
    return { scanline := preRenderLine, dot := 0, frame }
  else
    return { beam with scanline, dot := 0 }

def checkedAdvance (beam : Beam) (mayDrop : Bool) : Checked Beam := do
  let dot ← Checked.fit UInt16.size (beam.dot + 1)
  if dot < Clock.dotsPerScanline && !beam.dropsDot mayDrop then
    return { beam with dot }
  else
    beam.checkedNextLine

variable {beam : Beam}

/-- The next line is found without a fault, as long as the frames can be counted. -/
theorem checkedNextLine_eq (h : beam.Valid) (hFrame : beam.nextLine.frame < UInt64.size) :
    beam.checkedNextLine = .ok beam.nextLine := by
  have hFirst : -1 ≤ beam.scanline := h.first_le_scanline
  have hLast : beam.scanline ≤ 260 := h.scanline_le_last
  have hLine : Checked.fitSigned 0x8000 (beam.scanline + 1) = .ok (beam.scanline + 1) :=
    Checked.fitSigned_eq_ok (by omega) (by omega)
  rw [checkedNextLine, hLine, Checked.ok_bind]
  by_cases hInside : beam.scanline < lastLine
  · rw [if_neg (Int.not_lt.mpr hInside), nextLine_of_lt hInside]
    rfl
  · rw [nextLine_of_last hInside] at hFrame
    rw [if_pos (Int.lt_add_one_of_le (Int.not_lt.mp hInside)), Checked.fit_eq_ok hFrame,
      Checked.ok_bind, nextLine_of_last hInside]
    rfl

/-- The beam is far from the ends of its words. -/
theorem checkedAdvance_eq (h : beam.Valid) {mayDrop : Bool}
    (hFrame : (beam.advance mayDrop).frame < UInt64.size) :
    beam.checkedAdvance mayDrop = .ok (beam.advance mayDrop) := by
  have hDot : beam.dot < 341 := h.dot_lt
  rw [checkedAdvance, Checked.fit_word_eq_ok (by omega), Checked.ok_bind]
  by_cases hStay : (beam.dot + 1 < Clock.dotsPerScanline && !beam.dropsDot mayDrop) = true
  · rw [if_pos hStay, advance, if_pos hStay]
    rfl
  · rw [if_neg hStay, advance, if_neg hStay]
    rw [advance, if_neg hStay] at hFrame
    exact checkedNextLine_eq h hFrame

end Beam

/-! ## The open bus -/

def OpenBus.checkMasks : Checked Unit :=
  forM (List.range 8) fun line => Checked.shift line 8

/-- A line whose timer runs out is masked; another timer counts down. -/
def OpenBus.checkTimer (bus : OpenBus) (line : Fin 8) : Checked Unit :=
  if bus.timers[line] = 0 then
    return ()
  else if bus.timers[line] = 1 then
    Checked.shift line 8
  else do
    let _ ← Checked.sub bus.timers[line] 1

def OpenBus.checkedTick (bus : OpenBus) : Checked OpenBus := do
  forM (List.finRange 8) bus.checkTimer
  return bus.tick

theorem OpenBus.checkMasks_eq_ok : OpenBus.checkMasks = .ok () :=
  Checked.forM_eq_ok fun _ hMem => Checked.shift_eq_ok (List.mem_range.mp hMem)

/-- No timer runs below zero. -/
theorem OpenBus.checkTimer_eq_ok (bus : OpenBus) (line : Fin 8) : bus.checkTimer line = .ok () := by
  rw [OpenBus.checkTimer]
  by_cases hZero : bus.timers[line] = 0
  · rw [if_pos hZero]
    rfl
  · rw [if_neg hZero, Checked.sub_eq_ok (Nat.one_le_iff_ne_zero.mpr hZero),
      Checked.shift_eq_ok line.isLt]
    exact ite_self _

theorem OpenBus.checkedTick_eq (bus : OpenBus) : bus.checkedTick = .ok bus.tick := by
  rw [OpenBus.checkedTick, Checked.forM_eq_ok fun line _ => bus.checkTimer_eq_ok line]
  rfl

namespace Ppu

variable {ppu : Ppu}

/-! ## Time -/

def checkedTick (ppu : Ppu) : Checked Ppu := do
  let openBus ← ppu.openBus.checkedTick
  let ppu := { ppu with openBus }.statusEvent.spriteEvent
  let beam ← ppu.beam.checkedAdvance (ppu.shortOddFrames && ppu.latches.mask.rendering)
  return { ppu with beam }

def checkedTicks (ppu : Ppu) : Nat → Checked Ppu
  | 0 => return ppu
  | n + 1 => do
    let next ← ppu.checkedTick
    next.checkedTicks n

/-- A dot fails no check within the frame. -/
theorem checkedTick_eq (h : ppu.beam.Valid) (hFrame : ppu.tick.beam.frame < UInt64.size) :
    ppu.checkedTick = .ok ppu.tick := by
  have hValid : { ppu with openBus := ppu.openBus.tick }.statusEvent.spriteEvent.beam.Valid := by
    rw [spriteEvent_beam, statusEvent_beam]
    exact h
  simp only [checkedTick, OpenBus.checkedTick_eq, Checked.ok_bind,
    Beam.checkedAdvance_eq hValid hFrame]
  rfl

/-- Dots pass with no check failing, as long as the frames after them can be counted. -/
theorem checkedTicks_eq (h : ppu.beam.Valid) {n : Nat}
    (hFrame : (ppu.ticks n).beam.frame < UInt64.size) :
    ppu.checkedTicks n = .ok (ppu.ticks n) := by
  induction n generalizing ppu with
  | zero => rfl
  | succ n ih =>
    have hNow : ppu.tick.beam.frame < UInt64.size :=
      Nat.lt_of_le_of_lt (ppu.tick.frame_ticks n).1 hFrame
    rw [checkedTicks, checkedTick_eq h hNow, Checked.ok_bind]
    exact ih (tick_valid h) hFrame

/-! ## Sprite memory -/

def oamSize : Nat := 0x100

def checkOam (offset : UInt8) : Checked Unit :=
  Checked.index offset.toNat oamSize

theorem checkOam_eq_ok (offset : UInt8) : checkOam offset = .ok () :=
  Checked.index_eq_ok offset.toNat_lt

def checkedSetOam (ppu : Ppu) (offset value : UInt8) : Checked Ppu := do
  checkOam offset
  return ppu.setOam offset value

theorem checkedSetOam_eq (ppu : Ppu) (offset value : UInt8) :
    ppu.checkedSetOam offset value = .ok (ppu.setOam offset value) := by
  rw [checkedSetOam, checkOam_eq_ok]
  rfl

/-! ## Registers -/

def checkedRegisterValue (ppu : Ppu) (address : UInt16) : Checked UInt8 :=
  match PpuRegister.ofAddress address with
  | .status => return ppu.overBus statusBits ppu.latches.status.toByte
  | .oamData => do
    checkOam ppu.latches.oamAddress
    return ppu.oamByte
  | .data =>
    if ppu.dataAddress < paletteStart then
      return ppu.latches.readBuffer
    else do
      let stored ← ppu.memory.checkedRead ppu.dataAddress
      return ppu.overBus paletteBits stored
  | _ => return ppu.openBus.value

def checkedDataRead (ppu : Ppu) : Checked (UInt8 × Ppu) := do
  OpenBus.checkMasks
  let stored ← ppu.memory.checkedRead ppu.dataAddress
  let latches := { ppu.latches with readBuffer := stored }.advance
  if ppu.dataAddress < paletteStart then
    return (ppu.latches.readBuffer, { ppu.refreshBus 0xFF with latches })
  else
    return (ppu.overBus paletteBits stored, { ppu.refreshBus paletteBits with latches })

def checkedReadRegister (ppu : Ppu) (address : UInt16) : Checked (UInt8 × Ppu) := do
  let (value, ppu) ←
    match PpuRegister.ofAddress address with
    | .status => do
      OpenBus.checkMasks
      pure ppu.statusRead
    | .oamData => do
      OpenBus.checkMasks
      checkOam ppu.latches.oamAddress
      pure ppu.oamRead
    | .data => ppu.checkedDataRead
    | _ => pure (ppu.openBus.value, ppu)
  return (value, { ppu with openBus := ppu.openBus.latch value })

def checkedOamWrite (ppu : Ppu) (value : UInt8) : Checked Ppu :=
  if ppu.isRendering then
    return ppu
  else do
    checkOam ppu.latches.oamAddress
    return ppu.oamWrite value

def checkedDataWrite (ppu : Ppu) (value : UInt8) : Checked Ppu := do
  let memory ← ppu.memory.checkedWrite ppu.dataAddress value
  return { ppu with vram := memory.cells, latches := ppu.latches.advance }

def checkedWriteRegister (ppu : Ppu) (address : UInt16) (value : UInt8) : Checked Ppu :=
  let ppu := { ppu with openBus := OpenBus.drive value }
  match PpuRegister.ofAddress address with
  | .oamData => ppu.checkedOamWrite value
  | .data => ppu.checkedDataWrite value
  | register => return ppu.settleWrite register value

theorem checkedRegisterValue_eq (ppu : Ppu) (address : UInt16) :
    ppu.checkedRegisterValue address = .ok (ppu.registerValue address) := by
  rw [checkedRegisterValue, registerValue]
  cases PpuRegister.ofAddress address with
  | oamData =>
    simp only [checkOam_eq_ok, Checked.ok_bind]
    rfl
  | data =>
    simp only [checkedRead_memory, Checked.ok_bind]
    split <;> rfl
  | _ => rfl

theorem checkedDataRead_eq (ppu : Ppu) : ppu.checkedDataRead = .ok ppu.dataRead := by
  rw [checkedDataRead, OpenBus.checkMasks_eq_ok, checkedRead_memory, dataRead]
  simp only [Checked.ok_bind]
  split <;> rfl

/-- A read of a register fails no check. -/
theorem checkedReadRegister_eq (ppu : Ppu) (address : UInt16) :
    ppu.checkedReadRegister address = .ok (ppu.readRegister address) := by
  rw [checkedReadRegister, readRegister]
  cases PpuRegister.ofAddress address with
  | status =>
    simp only [OpenBus.checkMasks_eq_ok, Checked.ok_bind]
    rfl
  | oamData =>
    simp only [OpenBus.checkMasks_eq_ok, checkOam_eq_ok, Checked.ok_bind]
    rfl
  | data =>
    simp only [checkedDataRead_eq, Checked.ok_bind]
    rfl
  | _ => rfl

/-- Sprite addresses fit the sprite memory. -/
theorem checkedOamWrite_eq (ppu : Ppu) (value : UInt8) :
    ppu.checkedOamWrite value = .ok (ppu.oamWrite value) := by
  by_cases hRendering : ppu.isRendering = true
  · rw [checkedOamWrite, if_pos hRendering, oamWrite, if_pos hRendering]
    rfl
  · rw [checkedOamWrite, if_neg hRendering, checkOam_eq_ok]
    rfl

theorem checkedDataWrite_eq (ppu : Ppu) (value : UInt8) :
    ppu.checkedDataWrite value = .ok (ppu.dataWrite value) := by
  rw [checkedDataWrite, checkedWrite_memory]
  rfl

/-- Nor does a write. -/
theorem checkedWriteRegister_eq (ppu : Ppu) (address : UInt16) (value : UInt8) :
    ppu.checkedWriteRegister address value = .ok (ppu.writeRegister address value) := by
  rw [checkedWriteRegister, writeRegister]
  cases PpuRegister.ofAddress address with
  | oamData => exact checkedOamWrite_eq _ value
  | data => exact checkedDataWrite_eq _ value
  | _ => rfl

end Ppu

end NesMachine
