import NesMachine.Proofs.Cpu.Effort

/-!
# The steps of the processor

A step is an interrupt entry or an instruction. `Cpu.activity` says which before it starts, and this
module says what every step has in common.

* `Cpu.step_eq_perform`: a step does what the activity says.
* `Cpu.step_effort`: it makes at most eight accesses, at most two of them stores.
* `Cpu.nmiLatched_of_makes`: it leaves no NMI latched.
-/

namespace NesMachine

/-- The next instruction is the one whose opcode is read at the program counter. -/
theorem Exec.executeNext_run {σ : Type} [Bus σ] (core : Core) (bus : σ) :
    let opcode := (Bus.read bus core.pc).1
    let fetched : Core := { core with pc := core.pc + 1, fetched := core.fetched.clear.push opcode }
    let final := (execute (Instruction.decode opcode) fetched).run (Bus.read bus core.pc).2
    (executeNext core).run bus = ((Instruction.decode opcode, final.1.2), final.2) := by
  intro opcode fetched final
  let rest : Script (Instruction × Core) :=
    execute (Instruction.decode opcode) fetched >>= fun done =>
      .done (Instruction.decode opcode, done.2)
  calc
    (executeNext core).run bus = rest.run (Bus.read bus core.pc).2 := rfl
    _ = ((Instruction.decode opcode, final.1.2), final.2) := by rw [Script.run_bind]; rfl

namespace Cpu

inductive Activity
  | entry (line : Interrupt)
  | instruction
  deriving DecidableEq, Repr

def activity (cpu : Cpu) : Activity :=
  if cpu.nmiLatched then .entry .nmi
  else if 0 < cpu.irqCount && !cpu.irqMasked then .entry .irq
  else .instruction

def acknowledge (cpu : Cpu) : Interrupt → Cpu
  | .nmi => { cpu with nmiLatched := false }
  | .irq => { cpu with irqCount := cpu.irqCount - 1 }

def perform (cpu : Cpu) (now : Nat) : Activity → Script Cpu
  | .entry line => (cpu.acknowledge line).enter line
  | .instruction => cpu.executeNext now

/-- A step decides on one activity and carries it out. -/
theorem step_eq_perform (cpu : Cpu) (now : Nat) : cpu.step now = cpu.perform now cpu.activity := by
  rw [step, activity]
  by_cases hNmi : cpu.nmiLatched
  · simp [hNmi, perform, acknowledge]
  · by_cases hIrq : (0 < cpu.irqCount && !cpu.irqMasked) = true
    · simp [hNmi, hIrq, perform, acknowledge]
    · simp [hNmi, hIrq, perform]

/-- A latched NMI is entered before anything else. -/
theorem activity_eq_nmi_iff (cpu : Cpu) : cpu.activity = .entry .nmi ↔ cpu.nmiLatched = true := by
  by_cases hNmi : cpu.nmiLatched
  · simp [activity, hNmi]
  · by_cases hIrq : (0 < cpu.irqCount && !cpu.irqMasked) = true
    · simp [activity, hNmi, hIrq]
    · simp [activity, hNmi, hIrq]

/-- An IRQ is entered when it is requested, not masked, and no NMI is latched. -/
theorem activity_eq_irq_iff (cpu : Cpu) : cpu.activity = .entry .irq ↔
    cpu.nmiLatched = false ∧ 0 < cpu.irqCount ∧ cpu.irqMasked = false := by
  cases hNmi : cpu.nmiLatched with
  | true => simp [activity, hNmi]
  | false =>
    cases hMasked : cpu.irqMasked with
    | true => simp [activity, hNmi, hMasked]
    | false => simp [activity, hNmi, hMasked, Nat.pos_iff_ne_zero]

theorem nmiLatched_of_activity_ne {cpu : Cpu} (h : cpu.activity ≠ .entry .nmi) :
    cpu.nmiLatched = false := by
  simpa [activity_eq_nmi_iff] using h

/-! ## Branches of a step -/

variable {cpu next : Cpu} {now : Nat} {accesses : List Access}

/-- An entry makes the accesses of the entry sequence, and changes the core and the mask. -/
theorem enter_makes {line : Interrupt} (h : (cpu.enter line).Makes accesses next) :
    ∃ core, (Exec.interrupt line cpu.core).Makes accesses ((), core) ∧
      next = { cpu with core, irqMasked := true } := by
  rcases Script.makes_bind_iff.mp h with ⟨before, ⟨_, core⟩, after, rfl, hBefore, hAfter⟩
  cases hAfter
  exact ⟨core, by simpa using hBefore, rfl⟩

/-- The status in which the interrupt lines are polled, where `core` is left by the instruction. -/
def polled (cpu : Cpu) (instruction : Instruction) (core : Core) : Flags :=
  if instruction.pollsBeforeEffect then cpu.registers.p else core.p

/-- The record of an instruction that starts at `now` and leaves `core`. -/
def record (cpu : Cpu) (core : Core) (now : Nat) : TraceLine :=
  { registers := cpu.registers, bytes := core.fetched.toList, cycles := now }

def executed (cpu : Cpu) (now : Nat) (instruction : Instruction) (core : Core) : Cpu :=
  { cpu with
    core
    irqMasked := (cpu.polled instruction core).interruptDisable
    lastRecord := if cpu.tracing then some (cpu.record core now) else cpu.lastRecord }

def entered (cpu : Cpu) (line : Interrupt) (core : Core) : Cpu :=
  { cpu.acknowledge line with core, irqMasked := true }

/-- What an instruction can do to the processor is the execution of its core and the record of it. -/
theorem executeNext_cases (h : (cpu.executeNext now).Makes accesses next) :
    ∃ instruction core, (Exec.executeNext cpu.core).Makes accesses (instruction, core) ∧
      next = cpu.executed now instruction core := by
  rcases Script.makes_bind_iff.mp h with ⟨before, ⟨instruction, core⟩, after, rfl, hBefore, hAfter⟩
  cases hAfter
  exact ⟨instruction, core, by simpa using hBefore, rfl⟩

/-- An instruction makes its accesses, and keeps the lines of the interrupts. -/
theorem executeNext_makes (h : (cpu.executeNext now).Makes accesses next) :
    ∃ instruction core, (Exec.executeNext cpu.core).Makes accesses (instruction, core) ∧
      next.core = core ∧ next.nmiLatched = cpu.nmiLatched ∧ next.irqCount = cpu.irqCount := by
  rcases executeNext_cases h with ⟨instruction, core, hMakes, rfl⟩
  exact ⟨instruction, core, hMakes, rfl, rfl, rfl⟩

/-- All that a step can do: the entry sequence of a line, or the next instruction. -/
theorem step_cases (h : (cpu.step now).Makes accesses next) :
    (∃ line core, cpu.activity = .entry line ∧
      (Exec.interrupt line cpu.core).Makes accesses ((), core) ∧ next = cpu.entered line core) ∨
    (∃ instruction core, cpu.activity = .instruction ∧
      (Exec.executeNext cpu.core).Makes accesses (instruction, core) ∧
      next = cpu.executed now instruction core) := by
  rw [step_eq_perform] at h
  cases hActivity : cpu.activity with
  | entry line =>
    rw [hActivity] at h
    rcases enter_makes h with ⟨core, hMakes, rfl⟩
    -- Acknowledging a line leaves the core as it is.
    have hCore : (cpu.acknowledge line).core = cpu.core := by
      cases line <;> rfl
    rw [hCore] at hMakes
    exact .inl ⟨line, core, rfl, hMakes, rfl⟩
  | instruction =>
    rw [hActivity] at h
    rcases executeNext_cases h with ⟨instruction, core, hMakes, rfl⟩
    exact .inr ⟨instruction, core, rfl, hMakes, rfl⟩

/-- The setting of the record outlasts every step. -/
theorem tracing_of_makes (h : (cpu.step now).Makes accesses next) : next.tracing = cpu.tracing := by
  rcases step_cases h with ⟨line, core, -, -, rfl⟩ | ⟨instruction, core, -, -, rfl⟩
  · cases line <;> rfl
  · rfl

/-- An IRQ entry takes one request, and nothing else takes any. -/
theorem irqCount_of_makes (h : (cpu.step now).Makes accesses next) :
    (if cpu.activity = .entry .irq then 1 else 0) + next.irqCount = cpu.irqCount := by
  rcases step_cases h with ⟨line, core, hEntry, -, rfl⟩ | ⟨instruction, core, hEntry, -, rfl⟩
  · cases line with
    | nmi =>
      rw [hEntry]
      exact Nat.zero_add _
    | irq =>
      have hPending : 0 < cpu.irqCount := (cpu.activity_eq_irq_iff.mp hEntry).2.1
      rw [if_pos hEntry]
      exact Nat.add_sub_cancel' hPending
  · rw [hEntry]
    exact Nat.zero_add _

/-- An instruction that is run while tracing is recorded as it started. -/
theorem lastRecord_of_makes (h : (cpu.step now).Makes accesses next)
    (hActivity : cpu.activity = .instruction) (hTracing : cpu.tracing = true) :
    ∃ core, next.lastRecord = some (cpu.record core now) := by
  rcases step_cases h with ⟨line, core, hEntry, -, -⟩ | ⟨instruction, core, -, -, rfl⟩
  · rw [hActivity] at hEntry
    cases hEntry
  · exact ⟨core, if_pos hTracing⟩

/-- A step makes at most eight accesses, and at most two of them are stores. -/
theorem step_effort (h : (cpu.step now).Makes accesses next) :
    accesses.length ≤ 8 ∧ accesses.countP Access.isStore ≤ 2 := by
  rw [step_eq_perform] at h
  cases hActivity : cpu.activity with
  | entry line =>
    rw [hActivity] at h
    rcases enter_makes h with ⟨core, hMakes, -⟩
    have hTakes := (Exec.interrupt_takes line).effort (by decide : 7 ≤ 8)
    exact hTakes.mono (Nat.le_refl 8) (Nat.zero_le 2) _ _ _ hMakes
  | instruction =>
    rw [hActivity] at h
    rcases executeNext_makes h with ⟨instruction, core, hMakes, -⟩
    exact Exec.executeNext_effort _ _ _ hMakes

/-- A latched NMI is entered by the next step, so no step leaves one. -/
theorem nmiLatched_of_makes (h : (cpu.step now).Makes accesses next) : next.nmiLatched = false := by
  rw [step_eq_perform] at h
  cases hActivity : cpu.activity with
  | entry line =>
    rw [hActivity] at h
    rcases enter_makes h with ⟨core, -, rfl⟩
    cases line with
    | nmi => rfl
    | irq =>
      -- An IRQ is only entered while no NMI is latched.
      have hNmi : cpu.nmiLatched = false := nmiLatched_of_activity_ne (by simp [hActivity])
      exact hNmi
  | instruction =>
    rw [hActivity] at h
    rcases executeNext_makes h with ⟨instruction, core, -, -, hNmi, -⟩
    rw [hNmi]
    exact nmiLatched_of_activity_ne (by simp [hActivity])

/-! ## Steps on a bus -/

section Bus

variable {σ : Type} [Bus σ]

def accessesOn (cpu : Cpu) (bus : σ) : List Access :=
  (cpu.step (Bus.cycles bus)).accesses bus

/-- On a bus a step makes some of the accesses that it can make. -/
theorem makes_accessesOn (cpu : Cpu) (bus : σ) :
    (cpu.step (Bus.cycles bus)).Makes (cpu.accessesOn bus) (cpu.stepOn bus).2.1 :=
  Script.makes_accesses _ _

/-- A step that is no entry runs the next instruction. -/
theorem stepOn_snd_of_instruction {cpu : Cpu} (h : cpu.activity = .instruction) (bus : σ) :
    let ran := (Exec.executeNext cpu.core).run bus
    (cpu.stepOn bus).2 = (cpu.executed (Bus.cycles bus) ran.1.1 ran.1.2, ran.2) := by
  intro ran
  have hPerform : cpu.step (Bus.cycles bus) = cpu.executeNext (Bus.cycles bus) := by
    rw [step_eq_perform, h]
    rfl
  calc
    (cpu.stepOn bus).2 = (cpu.step (Bus.cycles bus)).run bus := rfl
    _ = (cpu.executeNext (Bus.cycles bus)).run bus := by rw [hPerform]
    _ = _ := by rw [executeNext, Script.run_bind]; rfl

/-- A step that is an entry runs the entry sequence of its line. -/
theorem stepOn_snd_of_entry {cpu : Cpu} {line : Interrupt} (h : cpu.activity = .entry line) (bus : σ) :
    let ran := (Exec.interrupt line cpu.core).run bus
    (cpu.stepOn bus).2 = (cpu.entered line ran.1.2, ran.2) := by
  intro ran
  have hPerform : cpu.step (Bus.cycles bus) = (cpu.acknowledge line).enter line := by
    rw [step_eq_perform, h]
    rfl
  calc
    (cpu.stepOn bus).2 = (cpu.step (Bus.cycles bus)).run bus := rfl
    _ = ((cpu.acknowledge line).enter line).run bus := by rw [hPerform]
    _ = (cpu.entered line ran.1.2, ran.2) := by cases line <;> rfl

theorem stepOn_bus (cpu : Cpu) (bus : σ) :
    (cpu.stepOn bus).2.2 = (cpu.accessesOn bus).foldl Bus.after bus :=
  Script.run_eq_foldl _ _

/-- A step takes as many cycles as accesses. -/
theorem stepOn_cycles [TimedBus σ] (cpu : Cpu) (bus : σ) :
    (cpu.stepOn bus).1 = (cpu.accessesOn bus).length := by
  have hCycles := Script.cycles_run (cpu.step (Bus.cycles bus)) bus
  calc
    (cpu.stepOn bus).1
        = Bus.cycles ((cpu.step (Bus.cycles bus)).run bus).2 - Bus.cycles bus := rfl
    _ = Bus.cycles bus + (cpu.accessesOn bus).length - Bus.cycles bus := by
          rw [hCycles, accessesOn]
    _ = (cpu.accessesOn bus).length := Nat.add_sub_cancel_left ..

end Bus

end Cpu

end NesMachine
