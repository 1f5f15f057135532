import NesMachine.Ppu.Basic

/-!
# Accesses to the registers and the timing

The processor comes in between dots. Whatever it does there, the beam stays where it is, the vertical
blank flag can only be cleared, and an NMI edge is made exactly by enabling the NMI while the flag is set.

* `Ppu.enablesNmi`: the edge that an access makes.
* `Ppu.Accessed`: what accesses keep.
* `Ppu.readRegister_accessed`, `Ppu.writeRegister_accessed`: every access keeps it.
-/

namespace NesMachine

namespace Ppu

/-- The NMI is enabled while the vertical blank flag is set. -/
def enablesNmi (before after : Ppu) : Bool :=
  !before.latches.control.nmiEnabled && after.latches.control.nmiEnabled &&
    before.latches.status.vblank

/-- What accesses from the processor's side keep, when they make so many NMI edges. -/
structure Accessed (edges : Nat) (before after : Ppu) : Prop where
  beam : after.beam = before.beam
  shortOddFrames : after.shortOddFrames = before.shortOddFrames
  vblank : after.latches.status.vblank = true → before.latches.status.vblank = true
  nmiLatched : after.nmiLatched = (before.nmiLatched || decide (0 < edges))
  -- An edge needs the flag, and the flag was there from the start.
  flagged : 0 < edges → before.latches.status.vblank = true

namespace Accessed

/-- Without an access there is no edge. -/
theorem refl (ppu : Ppu) : Accessed 0 ppu ppu where
  beam := rfl
  shortOddFrames := rfl
  vblank := id
  nmiLatched := by simp
  flagged := fun h => absurd h (Nat.lt_irrefl 0)

/-- Accesses one after another make the edges of all of them. -/
theorem trans {first second third : Ppu} {m n : Nat} (h : Accessed m first second)
    (hNext : Accessed n second third) : Accessed (m + n) first third where
  beam := hNext.beam.trans h.beam
  shortOddFrames := hNext.shortOddFrames.trans h.shortOddFrames
  vblank := fun hFlag => h.vblank (hNext.vblank hFlag)
  nmiLatched := by
    have hEither : decide (0 < m + n) = (decide (0 < m) || decide (0 < n)) := by
      rw [← Bool.decide_or]
      exact decide_eq_decide.mpr Nat.add_pos_iff_pos_or_pos
    rw [hNext.nmiLatched, h.nmiLatched, hEither, Bool.or_assoc]
  flagged := by
    intro hSome
    rcases Nat.add_pos_iff_pos_or_pos.mp hSome with hFirst | hSecond
    · exact h.flagged hFirst
    · exact h.vblank (hNext.flagged hSecond)

end Accessed

/-- Without a change of the control register there is no edge. -/
theorem enablesNmi_of_control_eq {before after : Ppu}
    (h : after.latches.control = before.latches.control) : enablesNmi before after = false := by
  rw [enablesNmi, h]
  cases before.latches.control.nmiEnabled <;> rfl

/-- An access that leaves the control register alone makes no edge. -/
theorem Accessed.of_control_eq {before after : Ppu} (hBeam : after.beam = before.beam)
    (hShort : after.shortOddFrames = before.shortOddFrames)
    (hStatus : after.latches.status.vblank = true → before.latches.status.vblank = true)
    (hNmi : after.nmiLatched = before.nmiLatched)
    (hControl : after.latches.control = before.latches.control) :
    Accessed (enablesNmi before after).toNat before after := by
  rw [enablesNmi_of_control_eq hControl]
  exact ⟨hBeam, hShort, hStatus, by simp [hNmi], fun h => absurd h (Nat.lt_irrefl 0)⟩

/-- Writing the control register makes an edge when this enables the NMI in time. -/
theorem controlWrite_accessed (ppu : Ppu) (value : UInt8) :
    Accessed (enablesNmi ppu (ppu.controlWrite value)).toNat ppu (ppu.controlWrite value) where
  beam := rfl
  shortOddFrames := rfl
  vblank := id
  nmiLatched := by
    have hLatch : (ppu.controlWrite value).nmiLatched =
        (ppu.nmiLatched || enablesNmi ppu (ppu.controlWrite value)) := rfl
    rw [hLatch]
    cases enablesNmi ppu (ppu.controlWrite value) <;> rfl
  flagged := by
    intro hSome
    cases hFlag : ppu.latches.status.vblank with
    | true => rfl
    | false => simp [enablesNmi, hFlag] at hSome

/-! ## Reads -/

/-- Reads leave the control register alone: only the status register and the data register change anything
but the open bus. -/
theorem readRegister_control (ppu : Ppu) (address : UInt16) :
    (ppu.readRegister address).2.latches.control = ppu.latches.control := by
  rw [readRegister]
  cases PpuRegister.ofAddress address with
  | data =>
    simp only [dataRead]
    split <;> rfl
  | _ => rfl

/-- A read can only take the flag away, and makes no edge. -/
theorem readRegister_accessed (ppu : Ppu) (address : UInt16) :
    Accessed (enablesNmi ppu (ppu.readRegister address).2).toNat ppu
      (ppu.readRegister address).2 := by
  have hControl := readRegister_control ppu address
  revert hControl
  rw [readRegister]
  cases PpuRegister.ofAddress address with
  | status =>
    intro hControl
    exact .of_control_eq rfl rfl (fun h => by cases h) rfl hControl
  | data =>
    simp only [dataRead]
    split
    · intro hControl
      exact .of_control_eq rfl rfl id rfl hControl
    · intro hControl
      exact .of_control_eq rfl rfl id rfl hControl
  | _ =>
    intro hControl
    exact .of_control_eq rfl rfl id rfl hControl

/-! ## Writes -/

/-- A write makes an edge exactly when it enables the NMI under the flag. -/
theorem writeRegister_accessed (ppu : Ppu) (address : UInt16) (value : UInt8) :
    Accessed (enablesNmi ppu (ppu.writeRegister address value)).toNat ppu
      (ppu.writeRegister address value) := by
  rw [writeRegister]
  cases PpuRegister.ofAddress address with
  | control =>
    have h := controlWrite_accessed ppu value
    exact ⟨rfl, rfl, id, h.nmiLatched, h.flagged⟩
  | oamData =>
    simp only [settleWrite, oamWrite]
    split
    · exact .of_control_eq rfl rfl id rfl rfl
    · exact .of_control_eq rfl rfl id rfl rfl
  | _ => exact .of_control_eq rfl rfl id rfl rfl

end Ppu

end NesMachine
