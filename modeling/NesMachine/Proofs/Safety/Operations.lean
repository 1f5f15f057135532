import NesMachine.Proofs.Console.Build
import NesMachine.Proofs.Safety.Drawing
import NesMachine.Proofs.Safety.Machine
import NesMachine.Proofs.Safety.Reset

/-!
# A running machine fails no check

Whatever a machine that was built is asked for, in whatever order, and whatever program it runs: as long as
its counters are in range, no operation meets an access that memory cannot serve, an operand that an
instruction cannot take, an index out of bounds, or a number that does not fit in its word.

* `Operation`, `Machine.perform`: what can be asked of a machine.
* `Machine.perform_valid`: no operation moves the beam out of the frame.
* `Machine.checkedPerform_eq`: with that, it fails no check.
* `Machine.operations_fail_no_check`: any number of operations in a row.
-/

namespace NesMachine

inductive Operation
  | step
  | runFor (budget : Nat)
  | runToNextFrame
  | reset (kind : Reset)
  | setRegisters (registers : Registers)
  | setTracing (on : Bool)
  | observe (address : UInt16) (observer : Observer)
  | peek (address : UInt16)
  | render (buffer : Array UInt8)
  /-- Accesses to the registers of the picture unit that take no time. -/
  | readRegister (address : UInt16)
  | writeRegister (address : UInt16) (value : UInt8)
  | peekRegister (address : UInt16)
  /-- Accesses to sprite memory and video memory. -/
  | setOam (offset value : UInt8)
  | readVram (address : UInt16)
  | writeVram (address : UInt16) (value : UInt8)

inductive Answer
  | done
  | cycles (count : Nat)
  | byte (value : UInt8)
  | replaced (observer : Option Observer)
  | picture (result : Except RenderError (Array UInt8))

namespace Machine

def perform (machine : Machine) : Operation → Answer × Machine
  | .step => machine.step.map .cycles id
  | .runFor budget => (machine.runFor budget).map .cycles id
  | .runToNextFrame => machine.runToNextFrame.map .cycles id
  | .reset kind => (.done, machine.reset kind)
  | .setRegisters registers => (.done, machine.setRegisters registers)
  | .setTracing on => (.done, machine.setTracing on)
  | .observe address observer => (machine.observe address observer).map .replaced id
  | .peek address => (.byte (machine.peek address), machine)
  | .render buffer => (.picture (machine.ppu.renderInto buffer), machine)
  | .readRegister address =>
    let (value, ppu) := machine.ppu.readRegister address
    (.byte value, machine.mapPpu fun _ => ppu)
  | .writeRegister address value => (.done, machine.mapPpu (·.writeRegister address value))
  | .peekRegister address => (.byte (machine.ppu.registerValue address), machine)
  | .setOam offset value => (.done, machine.mapPpu (·.setOam offset value))
  | .readVram address => (.byte (Vram.read machine.ppu.vram address), machine)
  | .writeVram address value =>
    (.done, machine.mapPpu fun ppu => { ppu with vram := Vram.write ppu.vram address value })

def performAll (machine : Machine) : List Operation → List Answer × Machine
  | [] => ([], machine)
  | operation :: rest =>
    let (answer, machine) := machine.perform operation
    let (answers, machine) := machine.performAll rest
    (answer :: answers, machine)

/-! ## With checks -/

def checkedPerform (machine : Machine) : Operation → Checked (Answer × Machine)
  | .step => do
    let (cycles, machine) ← machine.checkedStep
    return (.cycles cycles, machine)
  | .runFor budget => do
    let (cycles, machine) ← machine.checkedRunFor budget
    return (.cycles cycles, machine)
  | .runToNextFrame => do
    let (cycles, machine) ← machine.checkedRunToNextFrame
    return (.cycles cycles, machine)
  | .reset kind => do
    let machine ← machine.checkedReset kind
    return (.done, machine)
  | .setRegisters registers => return (.done, machine.setRegisters registers)
  | .setTracing on => return (.done, machine.setTracing on)
  | .observe address observer =>
    let (replaced, machine) := machine.observe address observer
    return (.replaced replaced, machine)
  | .peek address => do
    let value ← machine.bus.checkedPeek address
    return (.byte value, machine)
  | .render buffer => do
    let result ← machine.ppu.checkedRenderInto buffer
    return (.picture result, machine)
  | .readRegister address => do
    let (value, ppu) ← machine.ppu.checkedReadRegister address
    return (.byte value, machine.mapPpu fun _ => ppu)
  | .writeRegister address value => do
    let ppu ← machine.ppu.checkedWriteRegister address value
    return (.done, machine.mapPpu fun _ => ppu)
  | .peekRegister address => do
    let value ← machine.ppu.checkedRegisterValue address
    return (.byte value, machine)
  | .setOam offset value => do
    let ppu ← machine.ppu.checkedSetOam offset value
    return (.done, machine.mapPpu fun _ => ppu)
  | .readVram address => do
    let value ← machine.ppu.memory.checkedRead address
    return (.byte value, machine)
  | .writeVram address value => do
    let memory ← machine.ppu.memory.checkedWrite address value
    return (.done, machine.mapPpu fun ppu => { ppu with vram := memory.cells })

def checkedPerformAll (machine : Machine) : List Operation → Checked (List Answer × Machine)
  | [] => return ([], machine)
  | operation :: rest => do
    let (answer, machine) ← machine.checkedPerform operation
    let (answers, machine) ← machine.checkedPerformAll rest
    return (answer :: answers, machine)

variable {machine : Machine}

/-- No operation moves the beam out of the frame. -/
theorem perform_valid (h : machine.ppu.beam.Valid) (operation : Operation) :
    (machine.perform operation).2.ppu.beam.Valid := by
  cases operation with
  | step => exact step_valid h
  | runFor budget => exact runBudget_valid 0 h budget
  | runToNextFrame => exact runWithin_valid 0 h machine.bus.ppu.beam.frame Clock.dotsPerFrame
  | reset kind => exact Beam.valid_default
  | readRegister address =>
    have hBeam := (machine.ppu.readRegister_accessed address).beam
    exact hBeam.symm ▸ h
  | writeRegister address value =>
    have hBeam := (machine.ppu.writeRegister_accessed address value).beam
    exact hBeam.symm ▸ h
  | _ => exact h

/-- An operation fails no check, if the counters are in range after it. -/
theorem checkedPerform_eq (hValid : machine.ppu.beam.Valid) {operation : Operation}
    (hRange : (machine.perform operation).2.InRange) :
    machine.checkedPerform operation = .ok (machine.perform operation) := by
  cases operation with
  | step =>
    rw [checkedPerform, checkedStep_eq hValid hRange]
    rfl
  | runFor budget =>
    rw [checkedPerform, checkedRunFor_eq hValid hRange]
    rfl
  | runToNextFrame =>
    rw [checkedPerform, checkedRunToNextFrame_eq hValid hRange]
    rfl
  | reset kind =>
    rw [checkedPerform, checkedReset_eq]
    rfl
  | peek address =>
    rw [checkedPerform, SystemBus.checkedPeek_eq]
    rfl
  | render buffer =>
    rw [checkedPerform, Ppu.checkedRenderInto_eq]
    rfl
  | readRegister address =>
    rw [checkedPerform, Ppu.checkedReadRegister_eq]
    rfl
  | writeRegister address value =>
    rw [checkedPerform, Ppu.checkedWriteRegister_eq]
    rfl
  | peekRegister address =>
    rw [checkedPerform, Ppu.checkedRegisterValue_eq]
    rfl
  | setOam offset value =>
    rw [checkedPerform, Ppu.checkedSetOam_eq]
    rfl
  | readVram address =>
    rw [checkedPerform, Ppu.checkedRead_memory]
    rfl
  | writeVram address value =>
    rw [checkedPerform, Ppu.checkedWrite_memory]
    rfl
  | _ => rfl

/-- Operations in a row fail no check, if the counters fit after each of them. The beam carries the
induction: it stays within the frame. -/
theorem checkedPerformAll_eq (hValid : machine.ppu.beam.Valid) {operations : List Operation}
    (hRange : ∀ past, past <+: operations → (machine.performAll past).2.InRange) :
    machine.checkedPerformAll operations = .ok (machine.performAll operations) := by
  induction operations generalizing machine with
  | nil => rfl
  | cons operation rest ih =>
    have hFirst : (machine.perform operation).2.InRange :=
      hRange [operation] (List.prefix_append [operation] rest)
    have hRest : ∀ past, past <+: rest →
        ((machine.perform operation).2.performAll past).2.InRange := fun past hPast =>
      hRange (operation :: past) ((List.prefix_cons_inj operation).mpr hPast)
    rw [checkedPerformAll, checkedPerform_eq hValid hFirst, Checked.ok_bind]
    simp only [ih (perform_valid hValid operation) hRest, Checked.ok_bind]
    rfl

/-! ## Machines that were built -/

section Built

variable {program patterns : List UInt8} {config : Config} {built : Machine}

theorem valid_of_build (hBuild : build program patterns config = .ok built) :
    built.ppu.beam.Valid := by
  rcases build_eq_ok_iff.mp hBuild with ⟨lower, upper, -, -, rfl⟩
  exact Beam.valid_default

/-- **A running machine fails no check.** After a machine was built, operations in any order pass every
check on their way and return what they return without checks, if the cycle counter and the count of
frames are in range after each of them. -/
theorem operations_fail_no_check (hBuild : build program patterns config = .ok built)
    (operations : List Operation)
    (hRange : ∀ past, past <+: operations → (built.performAll past).2.InRange) :
    built.checkedPerformAll operations = .ok (built.performAll operations) :=
  checkedPerformAll_eq (valid_of_build hBuild) hRange

theorem counters_of_build (hBuild : build program patterns config = .ok built) :
    built.cycles = 0 ∧ built.ppu.beam.frame = 0 := by
  rcases build_eq_ok_iff.mp hBuild with ⟨lower, upper, -, -, rfl⟩
  exact ⟨rfl, rfl⟩

/-- A machine whose program is a bank of `nop`s takes a step, and a sprite is changed before the picture is
asked for in a buffer that is too small. -/
theorem operations_fail_no_check_on_nops :
    ∃ built, build (List.replicate MainMemory.bankSize 0xEA) [] {} = .ok built ∧
      built.checkedPerformAll [.step, .setOam 0xFF 0x2A, .render #[]] =
        .ok (built.performAll [.step, .setOam 0xFF 0x2A, .render #[]]) := by
  obtain ⟨built, hBuild⟩ := exists_build_of_replicate 0xEA {}
  obtain ⟨hNoCycles, hNoFrames⟩ := counters_of_build hBuild
  have hStart : built.InRange := ⟨hNoCycles ▸ by decide, hNoFrames ▸ by decide⟩
  have hStep : built.step.2.InRange := by
    have hTaken := built.step_le
    have hCycles : built.step.2.cycles = built.step.1 := by rw [step_cycles, hNoCycles, Nat.zero_add]
    have hFrames := (Ppu.frame_ticks built.stepProcessor.2.ppu (Clock.dotsFor built.step.1)).2
    rw [stepProcessor_beam, hNoFrames, ← step_beam, Nat.zero_add] at hFrames
    have hDots : Clock.dotsFor built.step.1 ≤ Clock.dotsFor 8 := Nat.mul_le_mul_right _ hTaken
    exact ⟨Nat.lt_of_le_of_lt (hCycles ▸ hTaken) (by decide),
      Nat.lt_of_le_of_lt (Nat.le_trans hFrames hDots) (by decide)⟩
  refine ⟨built, hBuild, operations_fail_no_check hBuild _ ?_⟩
  -- Only the step moves the counters.
  intro past hPast
  rcases List.prefix_cons_iff.mp hPast with rfl | ⟨afterStep, rfl, hAfterStep⟩
  · exact hStart
  rcases List.prefix_cons_iff.mp hAfterStep with rfl | ⟨afterStore, rfl, hAfterStore⟩
  · exact hStep
  rcases List.prefix_cons_iff.mp hAfterStore with rfl | ⟨afterPicture, rfl, hAfterPicture⟩
  · exact ⟨hStep.cycles_lt, hStep.frame_lt⟩
  rw [List.prefix_nil.mp hAfterPicture]
  exact ⟨hStep.cycles_lt, hStep.frame_lt⟩

end Built

end Machine

end NesMachine
