import NesMachine.Proofs.Console.Steps
import NesMachine.Proofs.Cpu.Timing

/-!
# Progress

Every step takes time, and in that time the beam moves on. So neither the cycle counter nor the count of
frames runs back, in a step or in a run of any kind.

* `Machine.step_pos`, `Machine.two_le_step`: the progress of a step.
* `Machine.NotBefore`: what no step takes back.
* `Machine.exists_after_runBudget`, `Machine.exists_after_runWithin`: a run is a number of steps.
-/

namespace NesMachine

/-- The transfer engine takes time whenever it is active. -/
theorem SpriteTransfer.step_cycles_pos {dma : SpriteTransfer} (h : dma.isActive = true) (now : Nat) :
    0 < (dma.step now).cycles := by
  rcases dma with ⟨state, page⟩
  cases state with
  | idle => cases h
  | aligning =>
    have hFirst : 0 < 1 + now % 2 := Nat.add_pos_left Nat.one_pos _
    exact hFirst
  | copying offset => exact Nat.two_pos

namespace Machine

variable {machine : Machine}

/-! ## One step -/

/-- Without a transfer a step takes two cycles or more, since the opcode and another byte are read. -/
theorem two_le_step (hIdle : machine.dma.isActive = false) : 2 ≤ machine.step.1 := by
  have hStep : machine.step.1 = (machine.cpu.accessesOn machine.bus).length :=
    congrArg Prod.fst (stepProcessor_of_idle hIdle)
  rw [hStep, Cpu.length_accessesOn]
  exact Cpu.two_le_timing _ _

/-- Every step takes time. -/
theorem step_pos (machine : Machine) : 0 < machine.step.1 := by
  cases hActive : machine.dma.isActive with
  | true =>
    rw [step_cycles_of_active hActive]
    exact SpriteTransfer.step_cycles_pos hActive _
  | false => exact Nat.lt_of_lt_of_le Nat.two_pos (two_le_step hActive)

/-- The processor leaves the beam to the picture unit. -/
theorem stepProcessor_beam (machine : Machine) :
    machine.stepProcessor.2.ppu.beam = machine.ppu.beam :=
  machine.stepProcessor_accessed.beam

theorem step_valid (h : machine.ppu.beam.Valid) : machine.step.2.ppu.beam.Valid := by
  rw [step_beam]
  exact Ppu.ticks_valid (machine.stepProcessor_beam ▸ h) _

/-! ## Counters -/

/-- The counters have not run back since `earlier`. -/
structure NotBefore (earlier machine : Machine) : Prop where
  cycles_le : earlier.cycles ≤ machine.cycles
  frame_le : earlier.ppu.beam.frame ≤ machine.ppu.beam.frame

theorem NotBefore.refl (machine : Machine) : NotBefore machine machine :=
  ⟨Nat.le_refl _, Nat.le_refl _⟩

theorem NotBefore.trans {earlier middle : Machine} (h : NotBefore earlier middle)
    (hNext : NotBefore middle machine) : NotBefore earlier machine :=
  ⟨Nat.le_trans h.cycles_le hNext.cycles_le, Nat.le_trans h.frame_le hNext.frame_le⟩

/-- No step sets a counter back. -/
theorem notBefore_step (machine : Machine) : NotBefore machine machine.step.2 where
  cycles_le := by
    rw [step_cycles]
    exact Nat.le_add_right _ _
  frame_le := by
    rw [step_beam, ← stepProcessor_beam]
    exact (Ppu.frame_ticks _ _).1

/-! ## Runs -/

/-- A first step can be split off from a run. -/
theorem after_step (machine : Machine) (n : Nat) : machine.step.2.after n = machine.after (n + 1) := by
  induction n with
  | zero => rfl
  | succ n ih => exact congrArg (fun reached : Machine => reached.step.2) ih

/-- No run sets a counter back. -/
theorem notBefore_after (machine : Machine) (n : Nat) : NotBefore machine (machine.after n) := by
  induction n with
  | zero => exact .refl machine
  | succ n ih => exact ih.trans (machine.after n).notBefore_step

/-- The beam never leaves the frame in a run. -/
theorem after_valid (h : machine.ppu.beam.Valid) (n : Nat) : (machine.after n).ppu.beam.Valid := by
  induction n with
  | zero => exact h
  | succ n ih => exact step_valid ih

theorem runBudget_zero (machine : Machine) (elapsed : Nat) :
    machine.runBudget 0 elapsed = (elapsed, machine) := by
  rw [runBudget, if_pos rfl]

/-- A step is paid for with at least one cycle of the budget. -/
theorem runBudget_of_pos (machine : Machine) {budget : Nat} (h : budget ≠ 0) (elapsed : Nat) :
    machine.runBudget budget elapsed =
      machine.step.2.runBudget (budget - max machine.step.1 1) (elapsed + machine.step.1) := by
  rw [runBudget, if_neg h]

/-- A run on a budget is a number of steps. -/
theorem exists_after_runBudget (machine : Machine) (budget elapsed : Nat) :
    ∃ n, (machine.runBudget budget elapsed).2 = machine.after n := by
  induction budget using Nat.strong_induction_on generalizing machine elapsed with
  | _ budget ih =>
    by_cases hZero : budget = 0
    · rw [hZero, runBudget_zero]
      exact ⟨0, rfl⟩
    · have hLess : budget - max machine.step.1 1 < budget := by omega
      obtain ⟨n, hAfter⟩ := ih _ hLess machine.step.2 (elapsed + machine.step.1)
      rw [runBudget_of_pos machine hZero]
      exact ⟨n + 1, hAfter.trans (machine.after_step n)⟩

/-- In a frame other than the given one, no further step is made. -/
theorem runWithin_of_ne {frame : Nat} (h : machine.ppu.beam.frame ≠ frame) (elapsed limit : Nat) :
    machine.runWithin frame elapsed limit = (elapsed, machine) := by
  cases limit with
  | zero => rfl
  | succ limit => exact if_neg h

/-- Within the given frame a step is made and the limit goes down. -/
theorem runWithin_of_eq {frame : Nat} (h : machine.ppu.beam.frame = frame) (elapsed limit : Nat) :
    machine.runWithin frame elapsed (limit + 1) =
      machine.step.2.runWithin frame (elapsed + machine.step.1) limit :=
  if_pos h

/-- So is a run within a frame. -/
theorem exists_after_runWithin (machine : Machine) (frame elapsed limit : Nat) :
    ∃ n, (machine.runWithin frame elapsed limit).2 = machine.after n := by
  induction limit generalizing machine elapsed with
  | zero => exact ⟨0, rfl⟩
  | succ limit ih =>
    by_cases hHere : machine.ppu.beam.frame = frame
    · obtain ⟨n, hAfter⟩ := ih machine.step.2 (elapsed + machine.step.1)
      rw [runWithin_of_eq hHere]
      exact ⟨n + 1, hAfter.trans (machine.after_step n)⟩
    · rw [runWithin_of_ne hHere]
      exact ⟨0, rfl⟩

section Kept

variable (machine : Machine) (elapsed : Nat)

theorem notBefore_runBudget (budget : Nat) :
    NotBefore machine (machine.runBudget budget elapsed).2 := by
  obtain ⟨n, hAfter⟩ := machine.exists_after_runBudget budget elapsed
  exact hAfter ▸ machine.notBefore_after n

theorem notBefore_runWithin (frame limit : Nat) :
    NotBefore machine (machine.runWithin frame elapsed limit).2 := by
  obtain ⟨n, hAfter⟩ := machine.exists_after_runWithin frame elapsed limit
  exact hAfter ▸ machine.notBefore_after n

variable {machine}

theorem runBudget_valid (h : machine.ppu.beam.Valid) (budget : Nat) :
    (machine.runBudget budget elapsed).2.ppu.beam.Valid := by
  obtain ⟨n, hAfter⟩ := machine.exists_after_runBudget budget elapsed
  exact hAfter ▸ after_valid h n

theorem runWithin_valid (h : machine.ppu.beam.Valid) (frame limit : Nat) :
    (machine.runWithin frame elapsed limit).2.ppu.beam.Valid := by
  obtain ⟨n, hAfter⟩ := machine.exists_after_runWithin frame elapsed limit
  exact hAfter ▸ after_valid h n

end Kept

end Machine

end NesMachine
