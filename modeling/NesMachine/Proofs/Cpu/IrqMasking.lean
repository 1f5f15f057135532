import NesMachine.Bus.Flat
import NesMachine.Proofs.Cpu.Activity
import NesMachine.Proofs.Cpu.Status

/-!
# The masking of IRQs

The interrupt lines are polled once in every step, and the next step enters an IRQ only if that poll found
it unmasked. `CLI`, `SEI` and `PLP` are polled with the flag as it was before them, everything else with
the flag that it leaves, so a change of the flag by one of the three is obeyed an instruction late.

* `Cpu.Event`, `Cpu.Run`: a run of the processor on any bus, with what its last step did.
* `Cpu.LastStep.Settled`: how the poll, the flag and the last step hang together.
* `Cpu.irq_masking_is_late_by_one`: what the next step does, after any run.
-/

namespace NesMachine

/-- The instruction that runs next is the one whose opcode stands at the program counter. -/
theorem Exec.executeNext_run_fst {σ : Type} [Bus σ] (core : Core) (bus : σ) :
    ((executeNext core).run bus).1.1 = Instruction.decode (Bus.read bus core.pc).1 := by
  rw [executeNext_run]

namespace Cpu

/-! ## What a step does -/

inductive Deed
  | entered (line : Interrupt)
  | ran (instruction : Instruction)
  deriving DecidableEq, Repr

section Bus

variable {σ : Type} [Bus σ]

/-- What the next step does on a bus. The instruction is the one whose opcode is read there. -/
def deedOn (cpu : Cpu) (bus : σ) : Deed :=
  match cpu.activity with
  | .entry line => .entered line
  | .instruction => .ran (Instruction.decode (Bus.read bus cpu.core.pc).1)

def interruptDisable (cpu : Cpu) : Bool :=
  cpu.core.p.interruptDisable

/-- A step that is no entry runs the instruction at the program counter. -/
theorem stepOn_of_instruction {cpu : Cpu} (h : cpu.activity = .instruction) (bus : σ) :
    ∃ core, (Exec.executeNext cpu.core).Makes
        ((Exec.executeNext cpu.core).accesses bus)
        (Instruction.decode (Bus.read bus cpu.core.pc).1, core) ∧
      (cpu.stepOn bus).2.1 =
        cpu.executed (Bus.cycles bus) (Instruction.decode (Bus.read bus cpu.core.pc).1) core := by
  have hMakes := (Exec.executeNext cpu.core).makes_accesses bus
  have hInstruction := Exec.executeNext_run_fst cpu.core bus
  have hStep := congrArg Prod.fst (stepOn_snd_of_instruction h bus)
  refine ⟨((Exec.executeNext cpu.core).run bus).1.2, ?_, ?_⟩
  · rw [← hInstruction]
    exact hMakes
  · rw [← hInstruction]
    exact hStep

end Bus

structure LastStep where
  deed : Deed
  before : Bool
  after : Bool
  deriving DecidableEq, Repr

namespace LastStep

/-- The value of the flag that the poll of the step found. -/
def polled (last : LastStep) : Bool :=
  match last.deed with
  | .ran instruction => if instruction.pollsBeforeEffect then last.before else last.after
  | .entered _ => last.after

/-- The step polled the interrupt lines as it should, only five instructions and the entries changed the
flag, and a handler starts with interrupts disabled. -/
structure Settled (last : LastStep) (cpu : Cpu) : Prop where
  masked : cpu.irqMasked = last.polled
  kept : ∀ instruction, last.deed = .ran instruction →
    instruction.writesInterruptDisable = false → last.before = last.after
  disabled : last.deed = .ran .brk ∨ (∃ line, last.deed = .entered line) → last.after = true

end LastStep

/-- The processor obeys a value of the flag: it enters an IRQ next if and only if one is requested, no NMI
is latched, and the value is clear. -/
def Obeys (cpu : Cpu) (flag : Bool) : Prop :=
  cpu.activity = .entry .irq ↔ cpu.nmiLatched = false ∧ 0 < cpu.irqCount ∧ flag = false

theorem obeys_irqMasked (cpu : Cpu) : cpu.Obeys cpu.irqMasked :=
  cpu.activity_eq_irq_iff

/-- A processor that obeys a set flag enters no IRQ. -/
theorem Obeys.activity_ne {cpu : Cpu} (h : cpu.Obeys true) : cpu.activity ≠ .entry .irq := by
  intro hIrq
  cases (h.mp hIrq).2.2

section Bus

variable {σ : Type} [Bus σ]

/-- The next step on a bus, as it will be looked back on. -/
def lastStepOn (cpu : Cpu) (bus : σ) : LastStep :=
  { deed := cpu.deedOn bus
    before := cpu.interruptDisable
    after := (cpu.stepOn bus).2.1.interruptDisable }

/-- Every step settles what it leaves. -/
theorem stepOn_settled (cpu : Cpu) (bus : σ) :
    (cpu.lastStepOn bus).Settled (cpu.stepOn bus).2.1 := by
  cases hActivity : cpu.activity with
  | entry line =>
    have hDeed : cpu.deedOn bus = .entered line := by simp [deedOn, hActivity]
    have hMasked : (cpu.stepOn bus).2.1.irqMasked = true ∧
        (cpu.stepOn bus).2.1.interruptDisable = true := by
      rcases step_cases (cpu.makes_accessesOn bus) with
        ⟨_, core, -, hMakes, hNext⟩ | ⟨_, _, hOther, -⟩
      · -- An entry masks IRQs at once, and its script sets the flag.
        have hDisabled := Exec.interrupt_disables _ (fun _ => True) _ _ _ trivial hMakes
        rw [hNext]
        exact ⟨rfl, hDisabled⟩
      · rw [hActivity] at hOther
        cases hOther
    refine ⟨?_, ?_, fun _ => hMasked.2⟩
    · have hPolled : (cpu.lastStepOn bus).polled = (cpu.stepOn bus).2.1.interruptDisable := by
        simp [lastStepOn, LastStep.polled, hDeed]
      rw [hPolled, hMasked.1, hMasked.2]
    · intro instruction hRan
      have hOther : Deed.entered line = .ran instruction := hDeed.symm.trans hRan
      cases hOther
  | instruction =>
    rcases stepOn_of_instruction hActivity bus with ⟨core, hMakes, hNext⟩
    have hDeed : cpu.deedOn bus = .ran (Instruction.decode (Bus.read bus cpu.core.pc).1) := by
      simp [deedOn, hActivity]
    have hAfter : (cpu.lastStepOn bus).after = core.p.interruptDisable := by
      rw [lastStepOn, hNext]
      rfl
    have hFlag := Exec.executeNext_interruptDisable cpu.interruptDisable _ _ _ rfl hMakes
    refine ⟨?_, ?_, ?_⟩
    · -- Whether the poll comes before the effect depends on the instruction.
      have hPolled : (cpu.lastStepOn bus).polled =
          if (Instruction.decode (Bus.read bus cpu.core.pc).1).pollsBeforeEffect then
            cpu.interruptDisable
          else (cpu.lastStepOn bus).after := by
        simp [lastStepOn, LastStep.polled, hDeed]
      rw [hPolled, hAfter, hNext, executed, polled]
      split <;> rfl
    · intro instruction hRan hWrites
      cases hDeed.symm.trans hRan
      exact (hFlag.1 hWrites).symm.trans hAfter.symm
    · rintro (hRan | ⟨line, hEntered⟩)
      · have hBrk : Deed.ran _ = .ran .brk := hDeed.symm.trans hRan
        rw [hAfter]
        exact hFlag.2 (by injection hBrk)
      · cases hDeed.symm.trans hEntered

end Bus

/-! ## Runs -/

/-- What can happen to the processor: a step, on a bus in any state, or a change of an interrupt line. -/
inductive Event (σ : Type)
  | step (bus : σ)
  | nmi
  | irq

structure Run where
  cpu : Cpu
  last : Option LastStep := none

section Bus

variable {σ : Type} [Bus σ]

def meet (cpu : Cpu) : Event σ → Cpu
  | .step bus => (cpu.stepOn bus).2.1
  | .nmi => cpu.latchNmi
  | .irq => cpu.raiseIrq

namespace Run

def next (run : Run) (event : Event σ) : Run :=
  { cpu := run.cpu.meet event
    last :=
      match event with
      | .step bus => some (run.cpu.lastStepOn bus)
      | .nmi | .irq => run.last }

def after (cpu : Cpu) (events : List (Event σ)) : Run :=
  events.foldl next { cpu }

/-- Looking back changes nothing in the processor. -/
theorem after_cpu (cpu : Cpu) (events : List (Event σ)) :
    (after cpu events).cpu = events.foldl meet cpu := by
  have hFold (run : Run) : (events.foldl next run).cpu = events.foldl meet run.cpu := by
    induction events generalizing run with
    | nil => rfl
    | cons event rest ih => exact ih (run.next event)
  exact hFold { cpu }

/-- Before the first step IRQs are masked; then the last step settles what the next one does. -/
def Settled (run : Run) : Prop :=
  match run.last with
  | none => run.cpu.irqMasked = true
  | some last => last.Settled run.cpu

-- Of the processor, only the poll has a part in what is settled.
theorem Settled.of_irqMasked {run : Run} (h : run.Settled) {cpu : Cpu}
    (hMasked : cpu.irqMasked = run.cpu.irqMasked) : Settled { run with cpu } := by
  rcases run with ⟨before, last⟩
  cases last with
  | none => exact hMasked.trans h
  | some last => exact ⟨hMasked.trans h.masked, h.kept, h.disabled⟩

/-- Every event leaves the run settled. -/
theorem Settled.next {run : Run} (h : run.Settled) (event : Event σ) : (run.next event).Settled := by
  cases event with
  | step bus => exact run.cpu.stepOn_settled bus
  | nmi => exact h.of_irqMasked rfl
  | irq => exact h.of_irqMasked rfl

/-- From a masked start, every run is settled. -/
theorem Settled.after {cpu : Cpu} (h : cpu.irqMasked = true) (events : List (Event σ)) :
    (after cpu events).Settled := by
  have hFold (run : Run) (hRun : run.Settled) : (events.foldl Run.next run).Settled := by
    induction events generalizing run with
    | nil => exact hRun
    | cons event rest ih => exact ih (run.next event) (hRun.next event)
  exact hFold { cpu } h

end Run

end Bus

/-! ## What the last step says about the next -/

namespace LastStep.Settled

variable {last : LastStep} {cpu : Cpu}

/-- After a settled step the processor obeys the value that the step polled. -/
theorem obeys (h : last.Settled cpu) : cpu.Obeys last.polled := by
  rw [← h.masked]
  exact cpu.obeys_irqMasked

/-- If the flag was not changed, before and after make no difference. -/
theorem polled_of_same (h : last.before = last.after) : last.polled = last.after := by
  rcases last with ⟨deed, before, after⟩
  cases deed with
  | entered line => rfl
  | ran instruction =>
    have hSame : before = after := h
    rw [polled, hSame]
    exact ite_self _

/-- If the flag did not change, the next step obeys it. -/
theorem obeys_of_same (h : last.Settled cpu) (hSame : last.before = last.after) :
    cpu.Obeys last.after := by
  have hObeys := h.obeys
  rwa [polled_of_same hSame] at hObeys

/-- If it did, the next step obeys the old value after `CLI`, `SEI` and `PLP`, and the new one after all
else that can change it. -/
theorem obeys_of_changed (h : last.Settled cpu) (hChanged : last.before ≠ last.after) :
    (last.deed ∈ [.ran (.implied .cli), .ran (.implied .sei), .ran .plp] ∧
      cpu.Obeys last.before) ∨
    (last.deed ∈ [.ran .rti, .ran .brk, .entered .nmi, .entered .irq] ∧
      cpu.Obeys last.after) := by
  have hObeys := h.obeys
  rcases last with ⟨deed, before, after⟩
  cases deed with
  | entered line =>
    refine .inr ⟨?_, hObeys⟩
    cases line <;> simp
  | ran instruction =>
    -- The flag changed, so the instruction is one of those that can write it.
    have hWrites : instruction.writesInterruptDisable = true := by
      cases hFlag : instruction.writesInterruptDisable with
      | true => rfl
      | false => exact absurd (h.kept instruction rfl hFlag) hChanged
    cases instruction with
    | implied op =>
      cases op with
      | cli => exact .inl ⟨by simp, hObeys⟩
      | sei => exact .inl ⟨by simp, hObeys⟩
      | _ => cases hWrites
    | plp => exact .inl ⟨by simp, hObeys⟩
    | rti => exact .inr ⟨by simp, hObeys⟩
    | brk => exact .inr ⟨by simp, hObeys⟩
    | _ => cases hWrites

/-- The first instruction of a handler is not preempted by an IRQ. -/
theorem activity_ne_of_handler (h : last.Settled cpu)
    (hHandler : last.deed ∈ [.ran .brk, .entered .nmi, .entered .irq]) :
    cpu.activity ≠ .entry .irq := by
  have hStarts : last.deed = .ran .brk ∨ ∃ line, last.deed = .entered line := by
    simp only [List.mem_cons, List.not_mem_nil, or_false] at hHandler
    rcases hHandler with hBrk | hNmi | hIrq
    · exact .inl hBrk
    · exact .inr ⟨.nmi, hNmi⟩
    · exact .inr ⟨.irq, hIrq⟩
  have hAfter : last.after = true := h.disabled hStarts
  have hPolled : last.polled = last.after := by
    rcases hStarts with hBrk | ⟨line, hEntered⟩
    · simp [polled, hBrk, Instruction.pollsBeforeEffect]
    · simp [polled, hEntered]
  have hObeys := h.obeys
  rw [hPolled, hAfter] at hObeys
  exact hObeys.activity_ne

end LastStep.Settled

/-- **The masking of IRQs is late by one instruction.** After a reset and any events, on any bus, the next
step does what `activity` says. A latched NMI comes first. Before the first step no IRQ is entered. After a
step that left the flag as it was, the next step obeys the flag: set, it enters no IRQ, and clear, it
enters one that is requested unless an NMI is latched. A step that changed the flag was `CLI`, `SEI` or
`PLP`, and the next step obeys the old value, or it was `RTI`, `BRK` or an entry, and the next step obeys
the new one. The first instruction of a handler is not preempted by an IRQ. -/
theorem irq_masking_is_late_by_one {σ : Type} [Bus σ] (cpu : Cpu) (kind : Reset) (boot : σ)
    (events : List (Event σ)) :
    let run := Run.after (cpu.resetOn kind boot) events
    run.cpu = events.foldl meet (cpu.resetOn kind boot) ∧
    (∀ now, run.cpu.step now = run.cpu.perform now run.cpu.activity) ∧
    (run.cpu.nmiLatched = true → run.cpu.activity = .entry .nmi) ∧
    (run.last = none → run.cpu.activity ≠ .entry .irq) ∧
    ∀ last, run.last = some last →
      (last.before = true → last.after = true → run.cpu.activity ≠ .entry .irq) ∧
      (last.before = false → last.after = false → 0 < run.cpu.irqCount →
        run.cpu.nmiLatched = false → run.cpu.activity = .entry .irq) ∧
      (last.before ≠ last.after →
        (last.deed ∈ [.ran (.implied .cli), .ran (.implied .sei), .ran .plp] ∧
          run.cpu.Obeys last.before) ∨
        (last.deed ∈ [.ran .rti, .ran .brk, .entered .nmi, .entered .irq] ∧
          run.cpu.Obeys last.after)) ∧
      (last.deed ∈ [.ran .brk, .entered .nmi, .entered .irq] → run.cpu.activity ≠ .entry .irq) := by
  intro run
  have hRun : run.Settled := Run.Settled.after rfl events
  refine ⟨Run.after_cpu _ events, run.cpu.step_eq_perform, run.cpu.activity_eq_nmi_iff.mpr, ?_, ?_⟩
  · intro hNone
    -- There was no step yet, and a reset leaves IRQs masked.
    have hMasked : run.cpu.irqMasked = true := by simpa [Run.Settled, hNone] using hRun
    have hObeys := run.cpu.obeys_irqMasked
    rw [hMasked] at hObeys
    exact hObeys.activity_ne
  · intro last hLast
    have h : last.Settled run.cpu := by simpa [Run.Settled, hLast] using hRun
    refine ⟨?_, ?_, h.obeys_of_changed, h.activity_ne_of_handler⟩
    · intro hBefore hAfter
      have hObeys := h.obeys_of_same (hBefore.trans hAfter.symm)
      rw [hAfter] at hObeys
      exact hObeys.activity_ne
    · intro hBefore hAfter hPending hNmi
      exact (h.obeys_of_same (hBefore.trans hAfter.symm)).mpr ⟨hNmi, hPending, hAfter⟩

def cliThenNop : FlatBus :=
  { ram := ((Ram.zero 16).set 0 0x58).set 1 0xEA }

/-- A request that waits for `CLI` also waits for the instruction after it. -/
theorem irq_waits_for_the_instruction_after_cli :
    let cpu := ({} : Cpu).resetOn .powerOn cliThenNop
    (Run.after cpu [.irq, .step cliThenNop]).cpu.activity ≠ .entry .irq ∧
      (Run.after cpu [.irq, .step cliThenNop, .step cliThenNop]).cpu.activity = .entry .irq := by
  intro cpu
  constructor
  · have hRun := irq_masking_is_late_by_one {} .powerOn cliThenNop [.irq, .step cliThenNop]
    rcases hRun with ⟨-, -, -, -, hLast⟩
    rcases (hLast ⟨.ran (.implied .cli), true, false⟩ (by decide +kernel)).2.2.1 (by decide) with
      ⟨-, hOld⟩ | ⟨hOther, -⟩
    · exact fun hIrq => by simpa using hOld.mp hIrq
    · exact absurd hOther (by decide)
  · have hRun := irq_masking_is_late_by_one {} .powerOn cliThenNop
      [.irq, .step cliThenNop, .step cliThenNop]
    rcases hRun with ⟨-, -, -, -, hLast⟩
    exact (hLast ⟨.ran (.implied .nop), false, false⟩ (by decide +kernel)).2.1 rfl rfl
      (by decide +kernel) (by decide +kernel)

end Cpu

end NesMachine
