import Mathlib.Tactic.IntervalCases
import NesMachine.Proofs.Byte
import NesMachine.Proofs.Ppu.Events

/-!
# The open bus as a record of times

The open bus keeps a countdown for each of its lines. What it shows can be said without them: each line
has the level to which it was last driven, if that was less than the holding time ago, and is low
otherwise. `Stamps` keeps just the time and the level of the last drive of each line.

* `Ppu.drives`: the lines that an access drives.
* `Ppu.respond_drives`: an access does the same to the bus, whichever register it reaches.
* `Ppu.Tracks`: the countdowns agree with the stamps.
* `Ppu.openBus_refines_stamps`: after any history, the lines show what the stamps say.
-/

namespace NesMachine

/-! ## The stamps -/

/-- The last drive of a line: the dots that had passed, and the level. -/
structure Stamp where
  time : Nat
  level : Bool
  deriving DecidableEq, Repr

/-- The dots that have passed, and the last drive of each line that has been driven. -/
structure Stamps where
  now : Nat := 0
  last : Nat → Option Stamp := fun _ => none

namespace Stamps

/-- Whether a line is high: it was driven high and still holds. -/
def level (stamps : Stamps) (line : Nat) : Bool :=
  match stamps.last line with
  | some stamp => stamp.level && stamps.now - stamp.time < OpenBus.holdDots
  | none => false

def drive (stamps : Stamps) (driven : Nat → Bool) (byte : UInt8) : Stamps :=
  { stamps with
    last := fun line =>
      if driven line then some { time := stamps.now, level := Byte.bit byte line }
      else stamps.last line }

def tick (stamps : Stamps) : Stamps :=
  { stamps with now := stamps.now + 1 }

def remaining (stamps : Stamps) (line : Nat) : Nat :=
  match stamps.last line with
  | some stamp => OpenBus.holdDots - (stamps.now - stamp.time)
  | none => 0

/-- No line was driven in the future. -/
def Past (stamps : Stamps) : Prop :=
  ∀ line stamp, stamps.last line = some stamp → stamp.time ≤ stamps.now

variable {stamps : Stamps} {line : Nat} {stamp : Stamp}

theorem level_of_last (h : stamps.last line = some stamp) :
    stamps.level line = (stamp.level && stamps.now - stamp.time < OpenBus.holdDots) := by
  rw [level, h]

theorem remaining_of_last (h : stamps.last line = some stamp) :
    stamps.remaining line = OpenBus.holdDots - (stamps.now - stamp.time) := by
  rw [remaining, h]

/-! ### A dot -/

theorem Past.tick (h : stamps.Past) : stamps.tick.Past := by
  intro line stamp hLast
  exact Nat.le_succ_of_le (h line stamp hLast)

/-- With every dot there is one dot less for a line to hold. -/
theorem remaining_tick (h : stamps.Past) (line : Nat) :
    stamps.tick.remaining line = stamps.remaining line - 1 := by
  cases hLast : stamps.last line with
  | none => simp [remaining, tick, hLast]
  | some stamp =>
    have hPast := h line stamp hLast
    have hAfter : stamps.tick.remaining line = OpenBus.holdDots - (stamps.now + 1 - stamp.time) :=
      remaining_of_last hLast
    rw [hAfter, remaining_of_last hLast]
    omega

/-- A line falls at the dot at which its time runs out. -/
theorem level_tick (h : stamps.Past) (line : Nat) :
    stamps.tick.level line = (stamps.level line && stamps.remaining line != 1) := by
  cases hLast : stamps.last line with
  | none => simp [level, tick, hLast]
  | some stamp =>
    have hPast := h line stamp hLast
    have hAfter : stamps.tick.level line =
        (stamp.level && stamps.now + 1 - stamp.time < OpenBus.holdDots) := level_of_last hLast
    -- The countdown reads one exactly in the last dot in which the stamp holds.
    have hHolds : stamps.now + 1 - stamp.time < OpenBus.holdDots ↔
        stamps.now - stamp.time < OpenBus.holdDots ∧
          OpenBus.holdDots - (stamps.now - stamp.time) ≠ 1 := by omega
    rw [hAfter, level_of_last hLast, remaining_of_last hLast, Bool.eq_iff_iff]
    simp [hHolds, and_assoc]

/-! ### A drive -/

theorem last_of_driven (stamps : Stamps) {driven : Nat → Bool} (byte : UInt8)
    (h : driven line = true) :
    (stamps.drive driven byte).last line =
      some { time := stamps.now, level := Byte.bit byte line } :=
  if_pos h

theorem last_of_not_driven (stamps : Stamps) {driven : Nat → Bool} (byte : UInt8)
    (h : driven line = false) :
    (stamps.drive driven byte).last line = stamps.last line :=
  if_neg (by simp [h])

theorem Past.drive (h : stamps.Past) (driven : Nat → Bool) (byte : UInt8) :
    (stamps.drive driven byte).Past := by
  intro line stamp hLast
  cases hDriven : driven line with
  | true =>
    rw [last_of_driven stamps byte hDriven, Option.some.injEq] at hLast
    rw [← hLast]
    exact Nat.le_refl stamps.now
  | false =>
    rw [last_of_not_driven stamps byte hDriven] at hLast
    exact h line stamp hLast

/-- Driving a line starts its time anew and leaves that of the others. -/
theorem remaining_drive (stamps : Stamps) (driven : Nat → Bool) (byte : UInt8) (line : Nat) :
    (stamps.drive driven byte).remaining line =
      if driven line then OpenBus.holdDots else stamps.remaining line := by
  cases hDriven : driven line with
  | true =>
    have hNow := remaining_of_last (last_of_driven stamps byte hDriven)
    simpa [drive] using hNow
  | false =>
    have hLast := last_of_not_driven stamps byte hDriven
    rw [remaining, hLast]
    rfl

/-- Driving a line sets its level and leaves that of the others. -/
theorem level_drive (stamps : Stamps) (driven : Nat → Bool) (byte : UInt8) (line : Nat) :
    (stamps.drive driven byte).level line =
      if driven line then Byte.bit byte line else stamps.level line := by
  cases hDriven : driven line with
  | true =>
    have hHolds : 0 < OpenBus.holdDots := by decide
    have hNow := level_of_last (last_of_driven stamps byte hDriven)
    simpa [drive, hHolds] using hNow
  | false =>
    have hLast := last_of_not_driven stamps byte hDriven
    rw [level, hLast]
    rfl

end Stamps

/-! ## The bus -/

namespace OpenBus

/-- A bit is held over a dot unless its timer stands at one. -/
theorem bit_held (timers : Vector Nat 8) {line : Nat} (h : line < 8) :
    Byte.bit (held timers) line = (timers[line] != 1) := by
  have hBits := Byte.bit_ofBits (timers[0] != 1) (timers[1] != 1) (timers[2] != 1)
    (timers[3] != 1) (timers[4] != 1) (timers[5] != 1) (timers[6] != 1) (timers[7] != 1) ⟨line, h⟩
  refine hBits.trans ?_
  interval_cases line <;> rfl

theorem tick_bit (bus : OpenBus) {line : Nat} (h : line < 8) :
    Byte.bit bus.tick.value line = (Byte.bit bus.value line && bus.timers[line] != 1) := by
  rw [tick, Byte.bit_and, bit_held bus.timers h]

theorem tick_timer (bus : OpenBus) {line : Nat} (h : line < 8) :
    bus.tick.timers[line] = bus.timers[line] - 1 := by
  simp [tick]

theorem drive_timer (value : UInt8) {line : Nat} (h : line < 8) :
    (drive value).timers[line] = holdDots := by
  simp [drive]

theorem refresh_timer (bus : OpenBus) (mask : UInt8) {line : Nat} (h : line < 8) :
    (bus.refresh mask).timers[line] = if Byte.bit mask line then holdDots else bus.timers[line] := by
  simp [refresh]

end OpenBus

/-- The registers that answer a read with the open bus. -/
def PpuRegister.isWriteOnly : PpuRegister → Bool
  | .status | .oamData | .data => false
  | .control | .mask | .oamAddress | .scroll | .address => true

namespace Ppu

def drives (ppu : Ppu) : Access → Nat → Bool
  | .write _ _, _ => true
  | .read address, line =>
    match PpuRegister.ofAddress address with
    | .status => 5 ≤ line
    | .oamData => true
    | .data => ppu.latches.vramAddress < 0x3F00 || line < 6
    | .control | .mask | .oamAddress | .scroll | .address => false

variable {ppu : Ppu} {line : Nat}

/-- The lines of a read that drives the lines of `mask` only. -/
theorem overBus_bit (ppu : Ppu) (mask driven : UInt8) (h : line < 8) :
    Byte.bit (ppu.overBus mask driven) line =
      if Byte.bit mask line then Byte.bit driven line else Byte.bit ppu.openBus.value line := by
  rw [overBus, Byte.bit_or, Byte.bit_and, Byte.bit_and, Byte.bit_not mask h]
  cases Byte.bit mask line <;> simp

theorem bit_statusBits (h : line < 8) : Byte.bit statusBits line = decide (5 ≤ line) := by
  interval_cases line <;> rfl

theorem bit_paletteBits (h : line < 8) : Byte.bit paletteBits line = decide (line < 6) := by
  interval_cases line <;> rfl

theorem bit_allBits (h : line < 8) : Byte.bit 0xFF line = true := by
  interval_cases line <;> rfl

/-- The effect of a write on the registers leaves the bus alone. -/
theorem settleWrite_openBus (ppu : Ppu) (register : PpuRegister) (value : UInt8) :
    (ppu.settleWrite register value).openBus = ppu.openBus := by
  cases register with
  | oamData =>
    simp only [settleWrite, oamWrite]
    split
    · rfl
    · rfl
  | _ => rfl

/-- Reading a register that is only written gives the open bus and changes nothing. -/
theorem readRegister_of_writeOnly {address : UInt16}
    (h : (PpuRegister.ofAddress address).isWriteOnly = true) (ppu : Ppu) :
    ppu.readRegister address = (ppu.openBus.value, ppu) := by
  rw [readRegister]
  cases hRegister : PpuRegister.ofAddress address with
  | status => simp [hRegister, PpuRegister.isWriteOnly] at h
  | oamData => simp [hRegister, PpuRegister.isWriteOnly] at h
  | data => simp [hRegister, PpuRegister.isWriteOnly] at h
  | _ => rfl

/-- What an access does to the bus: the lines take the byte of the access, of which those that it does not
drive have the levels that they had, and the countdowns of the driven lines start anew. -/
structure Drives (ppu : Ppu) (driven : Nat → Bool) (byte : UInt8) (bus : OpenBus) : Prop where
  value : bus.value = byte
  timer : ∀ line (h : line < 8),
    bus.timers[line] = if driven line then OpenBus.holdDots else ppu.openBus.timers[line]
  rest : ∀ line < 8, driven line = false → Byte.bit byte line = Byte.bit ppu.openBus.value line

/-- Refreshing under a mask drives the lines of the mask. -/
theorem Drives.of_refresh {driven : Nat → Bool} {mask byte : UInt8}
    (hMask : ∀ line < 8, Byte.bit mask line = driven line)
    (hRest : ∀ line < 8, driven line = false →
      Byte.bit byte line = Byte.bit ppu.openBus.value line) :
    Drives ppu driven byte ((ppu.openBus.refresh mask).latch byte) where
  value := rfl
  timer := by
    intro line h
    rw [← hMask line h]
    exact OpenBus.refresh_timer ppu.openBus mask h
  rest := hRest

/-- A read that drives the lines of `mask` over the bus. -/
theorem Drives.of_overBus {driven : Nat → Bool} {mask value : UInt8}
    (hMask : ∀ line < 8, Byte.bit mask line = driven line) :
    Drives ppu driven (ppu.overBus mask value)
      ((ppu.openBus.refresh mask).latch (ppu.overBus mask value)) := by
  refine .of_refresh hMask ?_
  intro line h hDriven
  rw [overBus_bit ppu mask value h, hMask line h, hDriven]
  rfl

/-- An access does the same to the bus, whichever register it reaches. -/
theorem respond_drives (h : ppu.AddressFits) (access : Access) :
    Drives ppu (ppu.drives access) (ppu.respond access).1 (ppu.respond access).2.openBus := by
  cases access with
  | write address value =>
    have hBus : (ppu.respond (.write address value)).2.openBus = OpenBus.drive value :=
      settleWrite_openBus _ _ _
    rw [hBus]
    exact ⟨rfl, fun line hLine => OpenBus.drive_timer value hLine, fun line _ hNot => nomatch hNot⟩
  | read address =>
    simp only [respond, readRegister]
    cases hRegister : PpuRegister.ofAddress address with
    | status =>
      refine .of_overBus ?_
      intro line hLine
      simp [drives, hRegister, bit_statusBits hLine]
    | oamData =>
      refine .of_refresh ?_ ?_
      · intro line hLine
        simp [drives, hRegister, bit_allBits hLine]
      · intro line hLine hNot
        simp [drives, hRegister] at hNot
    | data =>
      -- Below the palette the whole byte comes from the buffer; in the palette six lines do.
      simp only [dataRead, dataAddress_eq h]
      by_cases hBelow : ppu.latches.vramAddress < paletteStart
      · have hAll (line : Nat) : ppu.drives (.read address) line = true := by
          simp [drives, hRegister, show ppu.latches.vramAddress < 0x3F00 from hBelow]
        rw [if_pos hBelow]
        refine .of_refresh ?_ ?_
        · intro line hLine
          rw [hAll line, bit_allBits hLine]
        · intro line _ hNot
          rw [hAll line] at hNot
          cases hNot
      · have hLow (line : Nat) : ppu.drives (.read address) line = decide (line < 6) := by
          simp [drives, hRegister, show ¬ppu.latches.vramAddress < 0x3F00 from hBelow]
        rw [if_neg hBelow]
        refine .of_overBus ?_
        intro line hLine
        rw [hLow line, bit_paletteBits hLine]
    | _ =>
      -- No line is driven, and the byte is the one that was there.
      refine ⟨rfl, ?_, fun _ _ _ => rfl⟩
      intro line _
      simp [drives, hRegister, OpenBus.latch]

/-! ## The refinement -/

def stamp (ppu : Ppu) (stamps : Stamps) : Event → Stamps
  | .access access => stamps.drive (ppu.drives access) (ppu.respond access).1
  | .dot => stamps.tick

def stampsAfter (ppu : Ppu) (stamps : Stamps) : List Event → Stamps
  | [] => stamps
  | event :: rest => (ppu.next event).stampsAfter (ppu.stamp stamps event) rest

/-- The countdowns and levels of the lines agree with the stamps. -/
structure Tracks (ppu : Ppu) (stamps : Stamps) : Prop where
  fits : ppu.AddressFits
  past : stamps.Past
  timer : ∀ line (h : line < 8), ppu.openBus.timers[line] = stamps.remaining line
  level : ∀ line < 8, Byte.bit ppu.openBus.value line = stamps.level line

namespace Tracks

variable {stamps : Stamps}

theorem start {start : Ppu} (h : start.Started) : Tracks start {} where
  fits := h.addressFits
  past := by
    intro line stamp hLast
    cases hLast
  timer := by
    intro line hLine
    simp [h.openBus_eq, Stamps.remaining]
  level := by
    intro line hLine
    rw [h.openBus_eq]
    exact Nat.zero_testBit line

/-- An access drives the lines that its stamps say. -/
theorem access (h : Tracks ppu stamps) (access : Access) :
    Tracks (ppu.next (.access access)) (ppu.stamp stamps (.access access)) := by
  have hDrives := respond_drives h.fits access
  refine ⟨next_addressFits h.fits _, h.past.drive _ _, ?_, ?_⟩
  · intro line hLine
    have hTimer := hDrives.timer line hLine
    rw [h.timer line hLine] at hTimer
    exact hTimer.trans (Stamps.remaining_drive stamps _ _ line).symm
  · intro line hLine
    have hLevel := stamps.level_drive (ppu.drives access) (ppu.respond access).1 line
    rw [next, hDrives.value]
    refine Eq.trans ?_ hLevel.symm
    cases hDriven : ppu.drives access line with
    | true => rfl
    | false =>
      -- A line that is not driven is latched as it was.
      rw [hDrives.rest line hLine hDriven, h.level line hLine]
      rfl

/-- A dot lets the countdowns and the time of the stamps go on together. -/
theorem dot (h : Tracks ppu stamps) : Tracks (ppu.next .dot) (ppu.stamp stamps .dot) := by
  refine ⟨next_addressFits h.fits _, h.past.tick, ?_, ?_⟩
  · intro line hLine
    calc
      (ppu.next .dot).openBus.timers[line] = ppu.openBus.tick.timers[line] := by
        simp only [next, tick_openBus]
      _ = stamps.remaining line - 1 := by rw [OpenBus.tick_timer _ hLine, h.timer line hLine]
      _ = stamps.tick.remaining line := (Stamps.remaining_tick h.past line).symm
  · intro line hLine
    calc
      Byte.bit (ppu.next .dot).openBus.value line = Byte.bit ppu.openBus.tick.value line := by
        rw [next, tick_openBus]
      _ = (stamps.level line && stamps.remaining line != 1) := by
        rw [OpenBus.tick_bit _ hLine, h.level line hLine, h.timer line hLine]
      _ = stamps.tick.level line := (Stamps.level_tick h.past line).symm

theorem next (h : Tracks ppu stamps) (event : Event) :
    Tracks (ppu.next event) (ppu.stamp stamps event) := by
  cases event with
  | access access => exact h.access access
  | dot => exact h.dot

theorem after (h : Tracks ppu stamps) (history : List Event) :
    Tracks (ppu.after history) (ppu.stampsAfter stamps history) := by
  induction history generalizing ppu stamps with
  | nil => exact h
  | cons event rest ih => exact ih (h.next event)

end Tracks

/-- **The open bus refines the record of times.** After any history since it was switched on or reset, a
line of the open bus is high when it was last driven high and fewer dots than the holding time have passed
since; and a read of a register that is only written returns the open bus and leaves everything as it
was. -/
theorem openBus_refines_stamps {start : Ppu} (hStart : start.Started) (history : List Event) :
    let ppu := start.after history
    let stamps := start.stampsAfter {} history
    (∀ line < 8, Byte.bit ppu.openBus.value line = stamps.level line) ∧
      (∀ address, (PpuRegister.ofAddress address).isWriteOnly = true →
        ppu.readRegister address = (ppu.openBus.value, ppu)) := by
  intro ppu stamps
  have hTracks : Tracks ppu stamps := (Tracks.start hStart).after history
  refine ⟨hTracks.level, ?_⟩
  intro address hWriteOnly
  exact readRegister_of_writeOnly hWriteOnly ppu

/-- A byte is written, and after a dot the status is read: its lines replace three of those written. -/
theorem openBus_refines_stamps_over_status :
    Started {} ∧
      let ppu := ({} : Ppu).after [.access (.write 0x2001 0x45), .dot, .access (.read 0x2002)]
      Byte.bit ppu.openBus.value 0 = true ∧ Byte.bit ppu.openBus.value 6 = false ∧
        ppu.readRegister 0x2000 = (ppu.openBus.value, ppu) := by
  have hRefines := openBus_refines_stamps .fresh
    [.access (.write 0x2001 0x45), .dot, .access (.read 0x2002)]
  refine ⟨.fresh, ?_, ?_, hRefines.2 0x2000 (by decide)⟩
  · exact (hRefines.1 0 (by decide)).trans (by decide +kernel)
  · exact (hRefines.1 6 (by decide)).trans (by decide +kernel)

end Ppu

end NesMachine
