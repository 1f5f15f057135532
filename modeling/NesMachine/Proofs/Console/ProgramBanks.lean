import NesMachine.Proofs.Cartridge.Mount
import NesMachine.Proofs.Console.FrameTiming

/-!
# The program banks

The program banks are storage like any other: the processor can store bytes there, and finds them when it
reads. Nothing else changes a bank, as a sprite transfer only reads and a reset leaves the banks alone. So a
byte of the program windows is the last one that the processor stored at this address, or else the byte of
the program.

* `Access.lastStored`: the last byte that some accesses store at an address.
* `Machine.accessesDuring`: the accesses of the processor during some calls.
* `Machine.peek_foldl_call`: a byte of the program windows after some calls.
* `Machine.program_windows_hold_last_store`: the windows of a machine that was built.
* `Machine.store_overwrites_program`: a program that changes itself.
-/

namespace NesMachine

/-! ## What accesses store -/

namespace Access

def storedAt (address : UInt16) : Access → Option UInt8
  | .read _ => none
  | .write target value => if target = address then some value else none

/-- The last byte that some accesses store at an address, if they store one there. -/
def lastStored (address : UInt16) : List Access → Option UInt8
  | [] => none
  | access :: rest => (lastStored address rest).or (access.storedAt address)

/-- A byte that is stored later is the one that counts. -/
theorem lastStored_append (address : UInt16) (accesses more : List Access) :
    lastStored address (accesses ++ more) = (lastStored address more).or (lastStored address accesses) := by
  induction accesses with
  | nil => exact (Option.or_none ..).symm
  | cons access rest ih => rw [List.cons_append, lastStored, ih, Option.or_assoc, lastStored]

/-- Nothing is stored at an address that no access writes to. -/
theorem lastStored_eq_none {address : UInt16} {accesses : List Access}
    (h : ∀ value, Access.write address value ∉ accesses) : lastStored address accesses = none := by
  induction accesses with
  | nil => rfl
  | cons access rest ih =>
    have hRest := ih fun value hMem => h value (List.mem_cons_of_mem access hMem)
    have hHere : access.storedAt address = none := by
      cases access with
      | read target => rfl
      | write target value =>
        refine if_neg fun hTarget => h value ?_
        rw [hTarget]
        exact List.mem_cons_self
    rw [lastStored, hRest, hHere]
    rfl

end Access

/-! ## One access -/

namespace MainMemory

/-- Above the registers every address has a cell of its own. -/
theorem place_eq_iff {address target : UInt16} (h : 0x4000 ≤ address.toNat) :
    place target = place address ↔ target = address := by
  constructor
  · intro hSame
    rw [place_of_le h] at hSame
    simp only [place] at hSame
    split at hSame
    · injection hSame
      omega
    · split at hSame
      · cases hSame
      · injection hSame with hCell
        exact UInt16.toNat_inj.mp hCell
  · exact congrArg place

end MainMemory

namespace SystemBus

theorem some_peek_eq (bus : SystemBus) {address : UInt16} (h : 0x4000 ≤ address.toNat) :
    some (bus.peek address) = bus.memory.peek address := by
  rw [peek, bus.memory.peek_eq, MainMemory.place_of_le h]

/-- Past the registers a peek sees the byte of the last access, if it was stored there. -/
theorem peek_after (bus : SystemBus) (access : Access) {address : UInt16} (h : 0x4000 ≤ address.toNat) :
    (Bus.after bus access).peek address = (access.storedAt address).getD (bus.peek address) := by
  apply Option.some.inj
  rw [some_peek_eq _ h]
  cases access with
  | read target => exact (bus.some_peek_eq h).symm
  | write target value =>
    have hWritten := bus.memory.peek_write target address value bus.ppu
    simp only [MainMemory.place_eq_iff h, ← bus.some_peek_eq h] at hWritten
    rw [Access.storedAt]
    by_cases hHere : target = address
    · rw [if_pos hHere] at hWritten ⊢
      exact hWritten
    · rw [if_neg hHere] at hWritten ⊢
      exact hWritten

/-- After some accesses a peek sees the last byte they stored, and the old byte if they stored none. -/
theorem peek_foldl_after (bus : SystemBus) (accesses : List Access) {address : UInt16}
    (h : 0x4000 ≤ address.toNat) : (accesses.foldl Bus.after bus).peek address =
      (Access.lastStored address accesses).getD (bus.peek address) := by
  induction accesses generalizing bus with
  | nil => rfl
  | cons access rest ih =>
    rw [List.foldl_cons, ih, peek_after bus access h, Access.lastStored, Option.getD_or]

end SystemBus

namespace Machine

/-! ## Calls -/

/-- The accesses of the processor in the next step. During a transfer it makes none. -/
def stepAccesses (machine : Machine) : List Access :=
  if machine.dma.isActive then [] else machine.cpu.accessesOn machine.bus

/-- The accesses of the processor during a call. A reset makes none. -/
def callAccesses (machine : Machine) : Call → List Access
  | .step => machine.stepAccesses
  | .reset _ => []

def accessesDuring (machine : Machine) : List Call → List Access
  | [] => []
  | call :: rest => machine.callAccesses call ++ (machine.call call).accessesDuring rest

section Window

variable (machine : Machine) {address : UInt16}

/-- What a step stores is what its processor accesses store, for a transfer stores nothing. -/
theorem peek_step (h : 0x4000 ≤ address.toNat) : machine.step.2.peek address =
    (Access.lastStored address machine.stepAccesses).getD (machine.peek address) := by
  have hOutside : ¬(0x2000 ≤ address.toNat ∧ address.toNat < 0x4000) := by omega
  have hStep : machine.step.2.peek address = machine.stepProcessor.2.peek address := by
    refine peek_eq_of_memory_peek ?_ hOutside
    rw [machine.step_memory]
  rw [hStep, stepAccesses]
  cases hActive : machine.dma.isActive with
  | true =>
    -- The engine copies to sprite memory.
    refine peek_eq_of_memory_peek ?_ hOutside
    rw [stepProcessor_of_active hActive]
    exact congrArg (fun memory : MainMemory => memory.peek address) (machine.bus.copied_memory _)
  | false =>
    rw [stepProcessor_of_idle hActive]
    exact machine.bus.peek_foldl_after _ h

/-- In the upper half a reset changes no byte, and a step changes those it stores. -/
theorem peek_call (h : 0x8000 ≤ address.toNat) (call : Call) : (machine.call call).peek address =
    (Access.lastStored address (machine.callAccesses call)).getD (machine.peek address) := by
  cases call with
  | step => exact machine.peek_step (Nat.le_trans (by decide) h)
  | reset kind => exact machine.peek_reset_of_kept kind (.inr h)

/-- After some calls, an address of the program windows has the last byte that the processor stored there. -/
theorem peek_foldl_call (h : 0x8000 ≤ address.toNat) (calls : List Call) :
    (calls.foldl Machine.call machine).peek address =
      (Access.lastStored address (machine.accessesDuring calls)).getD (machine.peek address) := by
  induction calls generalizing machine with
  | nil => rfl
  | cons call rest ih =>
    rw [List.foldl_cons, ih, machine.peek_call h, accessesDuring, Access.lastStored_append, Option.getD_or]

end Window

/-! ## Programs of one byte -/

def filled (byte : UInt8) : Machine :=
  switchedOn (.split (Ram.zero 15) (Ram.fill byte 15))

/-- A single bank of one byte fills both program windows. -/
theorem build_replicate (byte : UInt8) :
    build (List.replicate MainMemory.bankSize byte) [] {} = .ok (filled byte) := by
  refine build_eq_switchedOn (if_pos List.length_replicate) ?_
  rw [List.replicate_append_replicate]
  exact Ram.setBytes_replicate (Ram.zero 15) (Ram.zero 15) byte

/-! ## The program -/

/-- The program windows show a program, once or twice as its size demands. -/
def HoldsProgram (machine : Machine) (program : List UInt8) : Prop :=
  ∀ i < 0x8000, some (machine.peek (UInt16.ofNat (0x8000 + i))) = program[i % program.length]?

section Built

variable {program patterns : List UInt8} {config : Config} {built : Machine}

/-- Only the upper half counts for the program that is held. -/
theorem HoldsProgram.congr {machine other : Machine} (h : machine.HoldsProgram program)
    (hSame : ∀ {address : UInt16}, 0x8000 ≤ address.toNat → other.peek address = machine.peek address) :
    other.HoldsProgram program := by
  intro i hWindow
  have hAddress := toNat_programAddress hWindow
  rw [hSame (by omega)]
  exact h i hWindow

/-- A program of one bank is shown in both windows. -/
theorem HoldsProgram.peek_upper {machine : Machine} (h : machine.HoldsProgram program)
    (hOne : program.length = MainMemory.bankSize) {i : Nat} (hBank : i < 0x4000) :
    machine.peek (UInt16.ofNat (0x8000 + i)) = machine.peek (UInt16.ofNat (0xC000 + i)) := by
  have hLower := h i (by omega)
  have hUpper := h (0x4000 + i) (by omega)
  have hAddress : 0x8000 + (0x4000 + i) = 0xC000 + i := by omega
  have hRepeat : (0x4000 + i) % program.length = i % program.length := by
    rw [hOne]
    exact Nat.add_mod_left ..
  rw [hAddress, hRepeat, ← hLower] at hUpper
  exact (Option.some.inj hUpper).symm

/-- A machine that was built starts where the vector points. -/
theorem pc_of_build (h : build program patterns config = .ok built) :
    built.cpu.registers.pc = Word.ofBytes (built.peek 0xFFFC) (built.peek 0xFFFD) := by
  obtain ⟨lower, upper, -, -, rfl⟩ := build_eq_ok_iff.mp h
  rfl

/-- **The program windows hold what was stored there last.** After any calls, a byte of the program windows is
the last one that the processor stored at this address since the machine was built, and the byte of the
program if it stored none there. So as long as the processor stores nothing in the program windows, they show
the program, both windows show the same bank if it has one bank, and power-on starts the same program as in
the beginning. -/
theorem program_windows_hold_last_store (hBuild : build program patterns config = .ok built)
    (calls : List Call) :
    let machine := calls.foldl Machine.call built
    let accesses := built.accessesDuring calls
    (∀ i < 0x8000, some (machine.peek (UInt16.ofNat (0x8000 + i))) =
      (Access.lastStored (UInt16.ofNat (0x8000 + i)) accesses).or program[i % program.length]?) ∧
    ((∀ address value, 0x8000 ≤ address.toNat → Access.write address value ∉ accesses) →
      machine.HoldsProgram program ∧
      (program.length = MainMemory.bankSize → ∀ i < 0x4000,
        machine.peek (UInt16.ofNat (0x8000 + i)) = machine.peek (UInt16.ofNat (0xC000 + i))) ∧
      (machine.reset .powerOn).HoldsProgram program ∧
      (machine.reset .powerOn).cpu.registers.pc = built.cpu.registers.pc) := by
  intro machine accesses
  have hShows : built.HoldsProgram program := (build_shows hBuild).programByte
  refine ⟨fun i hWindow => ?_, fun hUntouched => ?_⟩
  · have hAddress := toNat_programAddress hWindow
    have hPeek := built.peek_foldl_call (by omega : 0x8000 ≤ (UInt16.ofNat (0x8000 + i)).toNat) calls
    rw [← hShows i hWindow, Option.or_some]
    exact congrArg some hPeek
  · -- Nothing was stored, so nothing was stored last.
    have hKept {address : UInt16} (hWindow : 0x8000 ≤ address.toNat) :
        machine.peek address = built.peek address := by
      have hPeek := built.peek_foldl_call hWindow calls
      rw [Access.lastStored_eq_none fun value => hUntouched address value hWindow] at hPeek
      exact hPeek
    have hHolds : machine.HoldsProgram program := hShows.congr hKept
    have hPowerOn : (machine.reset .powerOn).HoldsProgram program :=
      hHolds.congr fun hWindow => machine.peek_reset_of_kept .powerOn (.inr hWindow)
    have hEntry : (machine.reset .powerOn).cpu.registers.pc = built.cpu.registers.pc := by
      rw [machine.reset_pc, pc_of_build hBuild, hKept (by decide), hKept (by decide)]
    exact ⟨hHolds, fun hOne i hBank => hHolds.peek_upper hOne hBank, hPowerOn, hEntry⟩

end Built

/-- A bank of no-operations stores nothing, and stays as it is. -/
theorem program_windows_of_idle_program :
    let program := List.replicate MainMemory.bankSize 0xEA
    let calls := [Call.step, .reset .soft, .step, .reset .powerOn, .step]
    ∃ built, build program [] {} = .ok built ∧
      (∀ address value, 0x8000 ≤ address.toNat → Access.write address value ∉ built.accessesDuring calls) ∧
      (calls.foldl Machine.call built).HoldsProgram program := by
  intro program calls
  have hReads : (filled 0xEA).accessesDuring calls =
      [.read 0xEAEA, .read 0xEAEB, .read 0xEAEA, .read 0xEAEB, .read 0xEAEA, .read 0xEAEB] := by
    decide +kernel
  have hUntouched (address : UInt16) (value : UInt8) (_ : 0x8000 ≤ address.toNat) :
      Access.write address value ∉ (filled 0xEA).accessesDuring calls := by
    rw [hReads]
    simp
  have hBuild := build_replicate 0xEA
  exact ⟨_, hBuild, hUntouched, ((program_windows_hold_last_store hBuild calls).2 hUntouched).1⟩

/-- A bank of the opcode `$8D` stores the accumulator at `$8D8D`, and so over one of its own bytes. The other
window keeps its copy, and power-on does not bring the byte back. -/
theorem store_overwrites_program :
    let program := List.replicate MainMemory.bankSize 0x8D
    ∃ built, build program [] {} = .ok built ∧
      let machine := [Call.step].foldl Machine.call built
      ¬machine.HoldsProgram program ∧ machine.peek 0x8D8D ≠ machine.peek 0xCD8D ∧
        ¬(machine.reset .powerOn).HoldsProgram program := by
  intro program
  have hChanged {machine : Machine} (hByte : machine.peek 0x8D8D = 0) : ¬machine.HoldsProgram program := by
    intro hHolds
    have hSame := hHolds 0x0D8D (by decide)
    have hLength : program.length = MainMemory.bankSize := List.length_replicate
    have hOpcode : program[0x0D8D % MainMemory.bankSize]? = some 0x8D :=
      List.getElem?_replicate_of_lt (by decide)
    rw [hLength, hOpcode] at hSame
    exact absurd (hByte.symm.trans (Option.some.inj hSame)) (by decide)
  exact ⟨filled 0x8D, build_replicate 0x8D, hChanged (by decide +kernel), by decide +kernel,
    hChanged (by decide +kernel)⟩

end Machine

end NesMachine
