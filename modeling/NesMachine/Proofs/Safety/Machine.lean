import NesMachine.Proofs.Console.NextFrame
import NesMachine.Proofs.Safety.Processor

/-!
# The machine with checks

Steps and runs of the machine in words of fixed width. What they need is in `Machine.InRange`: the cycle
counter and the count of frames, as they are in the end, fit in their words. Everything else that could
fail follows from the beam being where it can be.

* `Machine.checkedStep_eq`: a step fails no check.
* `Machine.checkedRunFor_eq`, `Machine.checkedRunToNextFrame_eq`: nor does a run.
-/

namespace NesMachine

namespace Machine

/-! ## The range of the counters -/

/-- The counters fit in their words: every cycle can be counted, and so can its dots. -/
structure InRange (machine : Machine) : Prop where
  cycles_lt : machine.cycles < (UInt64.size - 1) / Clock.dotsPerCycle
  frame_lt : machine.ppu.beam.frame < UInt64.size

theorem InRange.dots_lt {machine : Machine} (h : machine.InRange) :
    machine.cycles * Clock.dotsPerCycle < UInt64.size :=
  Clock.dots_lt_size (Nat.le_of_lt h.cycles_lt)

theorem InRange.cycles_lt_size {machine : Machine} (h : machine.InRange) :
    machine.cycles < UInt64.size :=
  Nat.lt_of_le_of_lt (Nat.le_mul_of_pos_right _ (by decide)) h.dots_lt

/-- Counters that fit in the end have fitted all the time. -/
theorem InRange.earlier {earlier machine : Machine} (h : machine.InRange)
    (hBefore : NotBefore earlier machine) : earlier.InRange :=
  ⟨Nat.lt_of_le_of_lt hBefore.cycles_le h.cycles_lt, Nat.lt_of_le_of_lt hBefore.frame_le h.frame_lt⟩

/-! ## Steps -/

def checkedCopied (bus : SystemBus) : Option SpriteTransfer.Copy → Checked SystemBus
  | some copy => bus.checkedCopySprite copy
  | none => return bus

def checkedTransfer (machine : Machine) (step : SpriteTransfer.Step) : Checked (Nat × Machine) := do
  let bus ← checkedCopied machine.bus step.copy
  let cycles ← Checked.fit UInt64.size (bus.cycles + step.cycles)
  return (step.cycles, { machine with dma := step.next, bus := { bus with cycles } })

def checkedStepProcessor (machine : Machine) : Checked (Nat × Machine) :=
  if machine.dma.isActive then
    machine.checkedTransfer (machine.dma.step machine.bus.cycles)
  else do
    let (cycles, cpu, bus) ← machine.cpu.checkedStepOn machine.bus
    return (cycles, { machine with cpu, bus })

def checkedCatchUp (machine : Machine) (cycles : Nat) : Checked Machine := do
  let dots ← Checked.fit UInt64.size (cycles * Clock.dotsPerCycle)
  let ppu ← machine.bus.ppu.checkedTicks dots
  let (edge, ppu) := ppu.releaseNmi
  return { machine with
    cpu := if edge then machine.cpu.latchNmi else machine.cpu
    bus := { machine.bus with ppu } }

def checkedStep (machine : Machine) : Checked (Nat × Machine) := do
  let (cycles, machine) ← machine.checkedStepProcessor
  let machine ← machine.applySignals.checkedCatchUp cycles
  return (cycles, machine)

variable {machine : Machine}

theorem checkedCopied_eq (bus : SystemBus) (copy : Option SpriteTransfer.Copy) :
    checkedCopied bus copy = .ok (bus.copied copy) := by
  cases copy with
  | none => rfl
  | some copy => exact bus.checkedCopySprite_eq copy

/-- A step of the processor or the engine fails no check, as long as its cycles can be counted. -/
theorem checkedStepProcessor_eq
    (h : machine.stepProcessor.2.cycles * Clock.dotsPerCycle < UInt64.size) :
    machine.checkedStepProcessor = .ok machine.stepProcessor := by
  cases hActive : machine.dma.isActive with
  | true =>
    have hCycles : (machine.bus.copied (machine.dma.step machine.bus.cycles).copy).cycles +
        (machine.dma.step machine.bus.cycles).cycles < UInt64.size := by
      rw [stepProcessor_of_active hActive] at h
      exact Nat.lt_of_le_of_lt (Nat.le_mul_of_pos_right _ (by decide)) h
    rw [checkedStepProcessor, if_pos hActive, checkedTransfer, checkedCopied_eq, Checked.ok_bind,
      Checked.fit_eq_ok hCycles, stepProcessor_of_active hActive]
    rfl
  | false =>
    have hOff : ¬machine.dma.isActive = true := by simp [hActive]
    rw [stepProcessor, if_neg hOff] at h
    rw [checkedStepProcessor, if_neg hOff, Cpu.checkedStepOn_eq h, stepProcessor, if_neg hOff]
    rfl

/-- Catching up fails no check, as long as the dots and the frames can be counted. -/
theorem checkedCatchUp_eq (hValid : machine.ppu.beam.Valid) {cycles : Nat}
    (hDots : cycles * Clock.dotsPerCycle < UInt64.size)
    (hFrame : (machine.catchUp cycles).ppu.beam.frame < UInt64.size) :
    machine.checkedCatchUp cycles = .ok (machine.catchUp cycles) := by
  have hTicks : machine.bus.ppu.checkedTicks (cycles * Clock.dotsPerCycle) =
      .ok (machine.bus.ppu.ticks (cycles * Clock.dotsPerCycle)) := Ppu.checkedTicks_eq hValid hFrame
  rw [checkedCatchUp, Checked.fit_eq_ok hDots, Checked.ok_bind, hTicks]
  rfl

/-- A step fails no check, if the counters are in range after it. -/
theorem checkedStep_eq (hValid : machine.ppu.beam.Valid) (hRange : machine.step.2.InRange) :
    machine.checkedStep = .ok machine.step := by
  have hCycles : machine.stepProcessor.2.cycles = machine.step.2.cycles :=
    machine.stepProcessor_cycles.trans machine.step_cycles.symm
  have hProcessor : machine.checkedStepProcessor = .ok machine.stepProcessor :=
    checkedStepProcessor_eq (hCycles ▸ hRange.dots_lt)
  -- The dots of the step are some of the dots that are counted after it.
  have hDots : machine.stepProcessor.1 * Clock.dotsPerCycle < UInt64.size := by
    have hTaken : machine.step.1 ≤ machine.step.2.cycles := by
      rw [step_cycles]
      exact Nat.le_add_left _ _
    exact Nat.lt_of_le_of_lt (Nat.mul_le_mul_right _ hTaken) hRange.dots_lt
  have hBeam : machine.stepProcessor.2.applySignals.ppu.beam.Valid := by
    rw [applySignals_ppu, stepProcessor_beam]
    exact hValid
  rw [checkedStep, hProcessor, Checked.ok_bind]
  simp only [checkedCatchUp_eq hBeam hDots hRange.frame_lt, Checked.ok_bind]
  rfl

/-! ## Runs -/

def checkedRunBudget (machine : Machine) (budget elapsed : Nat) : Checked (Nat × Machine) :=
  if budget = 0 then
    return (elapsed, machine)
  else do
    let (cycles, machine) ← machine.checkedStep
    let elapsed ← Checked.fit UInt64.size (elapsed + cycles)
    machine.checkedRunBudget (budget - max cycles 1) elapsed
termination_by budget
decreasing_by omega

def checkedRunFor (machine : Machine) (budget : Nat) : Checked (Nat × Machine) :=
  machine.checkedRunBudget budget 0

/-- Steps until the count of frames differs from `frame`, with all checks. It has to differ after `limit`
steps at the latest. -/
def checkedRunWithin (machine : Machine) (frame elapsed : Nat) :
    (limit : Nat) → Checked (Nat × Machine)
  | 0 =>
    if machine.bus.ppu.beam.frame = frame then throw .unfinished
    else return (elapsed, machine)
  | limit + 1 =>
    if machine.bus.ppu.beam.frame = frame then do
      let (cycles, machine) ← machine.checkedStep
      let elapsed ← Checked.fit UInt64.size (elapsed + cycles)
      machine.checkedRunWithin frame elapsed limit
    else
      return (elapsed, machine)

def checkedRunToNextFrame (machine : Machine) : Checked (Nat × Machine) :=
  machine.checkedRunWithin machine.bus.ppu.beam.frame 0 Clock.dotsPerFrame

/-- What is elapsed never overtakes the cycle counter. -/
theorem elapsed_step_le {elapsed : Nat} (h : elapsed ≤ machine.cycles) :
    elapsed + machine.step.1 ≤ machine.step.2.cycles := by
  rw [step_cycles]
  exact Nat.add_le_add_right h _

/-- Running for a budget fails no check, if the counters fit at its end.

The induction is on the budget. No more cycles have elapsed than the machine has counted. -/
theorem checkedRunBudget_eq (hValid : machine.ppu.beam.Valid) {budget elapsed : Nat}
    (hElapsed : elapsed ≤ machine.cycles) (hRange : (machine.runBudget budget elapsed).2.InRange) :
    machine.checkedRunBudget budget elapsed = .ok (machine.runBudget budget elapsed) := by
  induction budget using Nat.strong_induction_on generalizing machine elapsed with
  | _ budget ih =>
    by_cases hZero : budget = 0
    · rw [hZero, checkedRunBudget, if_pos rfl, runBudget_zero]
      rfl
    · rw [runBudget_of_pos machine hZero] at hRange ⊢
      have hNext := elapsed_step_le hElapsed
      have hStep : machine.step.2.InRange := hRange.earlier (notBefore_runBudget _ _ _)
      have hFits : elapsed + machine.step.1 < UInt64.size :=
        Nat.lt_of_le_of_lt hNext hStep.cycles_lt_size
      have hLess : budget - max machine.step.1 1 < budget := by omega
      rw [checkedRunBudget, if_neg hZero, checkedStep_eq hValid hStep, Checked.ok_bind]
      simp only [Checked.fit_eq_ok hFits, Checked.ok_bind]
      exact ih _ hLess (step_valid hValid) hNext hRange

/-- A run on a budget fails no check, if the counters are in range after it. -/
theorem checkedRunFor_eq (hValid : machine.ppu.beam.Valid) {budget : Nat}
    (hRange : (machine.runFor budget).2.InRange) :
    machine.checkedRunFor budget = .ok (machine.runFor budget) :=
  checkedRunBudget_eq hValid (Nat.zero_le _) hRange

/-- Running within a frame fails no check, if the frame ends before the limit. -/
theorem checkedRunWithin_eq (hValid : machine.ppu.beam.Valid) {frame elapsed limit : Nat}
    (hElapsed : elapsed ≤ machine.cycles)
    (hRange : (machine.runWithin frame elapsed limit).2.InRange)
    (hEnds : (machine.runWithin frame elapsed limit).2.ppu.beam.frame ≠ frame) :
    machine.checkedRunWithin frame elapsed limit = .ok (machine.runWithin frame elapsed limit) := by
  induction limit generalizing machine elapsed with
  | zero => exact if_neg hEnds
  | succ limit ih =>
    by_cases hHere : machine.bus.ppu.beam.frame = frame
    · rw [runWithin_of_eq hHere] at hRange hEnds ⊢
      have hNext := elapsed_step_le hElapsed
      have hStep : machine.step.2.InRange := hRange.earlier (notBefore_runWithin _ _ _ _)
      have hFits : elapsed + machine.step.1 < UInt64.size :=
        Nat.lt_of_le_of_lt hNext hStep.cycles_lt_size
      rw [checkedRunWithin, if_pos hHere, checkedStep_eq hValid hStep, Checked.ok_bind]
      simp only [Checked.fit_eq_ok hFits, Checked.ok_bind]
      exact ih (step_valid hValid) hNext hRange hEnds
    · rw [runWithin_of_ne hHere]
      exact if_neg hHere

/-- A run to the next frame gets there and fails no check, if the counters are in range after it. -/
theorem checkedRunToNextFrame_eq (hValid : machine.ppu.beam.Valid)
    (hRange : machine.runToNextFrame.2.InRange) :
    machine.checkedRunToNextFrame = .ok machine.runToNextFrame :=
  checkedRunWithin_eq hValid (Nat.zero_le _) hRange (frame_runToNextFrame_ne hValid)

end Machine

end NesMachine
