import NesMachine.Proofs.Console.Build
import NesMachine.Proofs.Console.Runs

/-!
# Recording

A machine that records its instructions does what it does without that. The record is made from what an
instruction leaves behind, without an access of its own, and nothing reads it but the host.

* `Cpu.step_setTracing_false`: the script of a step, without the record.
* `Machine.step_setTracing_false`: a step of the machine.
* `Machine.after_setTracing_false`: any number of steps.
* `Machine.build_setTracing`: a machine that is built.
-/

namespace NesMachine

/-! ## The processor -/

namespace Cpu

theorem enter_setTracing_false (cpu : Cpu) (line : Interrupt) :
    (cpu.setTracing false).enter line = (fun next => next.setTracing false) <$> cpu.enter line := by
  simp only [enter, map_bind]
  rfl

theorem executeNext_setTracing_false (cpu : Cpu) (now : Nat) :
    (cpu.setTracing false).executeNext now =
      (fun next => next.setTracing false) <$> cpu.executeNext now := by
  simp only [executeNext, map_bind]
  rfl

/-- Without recording a step makes the same accesses, and leaves the same processor but for the record. -/
theorem step_setTracing_false (cpu : Cpu) (now : Nat) :
    (cpu.setTracing false).step now = (fun next => next.setTracing false) <$> cpu.step now := by
  have hActivity : (cpu.setTracing false).activity = cpu.activity := rfl
  rw [step_eq_perform, step_eq_perform, hActivity]
  cases cpu.activity with
  | entry line =>
    have hTaken : (cpu.setTracing false).acknowledge line = (cpu.acknowledge line).setTracing false := by
      cases line <;> rfl
    rw [perform, perform, hTaken]
    exact enter_setTracing_false _ line
  | instruction => exact executeNext_setTracing_false cpu now

/-- On any bus the two runs agree in time and in accesses. -/
theorem stepOn_setTracing_false {σ : Type} [Bus σ] (cpu : Cpu) (bus : σ) :
    (cpu.setTracing false).stepOn bus =
      ((cpu.stepOn bus).1, (cpu.stepOn bus).2.1.setTracing false, (cpu.stepOn bus).2.2) := by
  simp only [stepOn, step_setTracing_false, Script.run_map]

end Cpu

/-! ## The machine -/

namespace Machine

variable (machine : Machine)

/-- A step of the processor or of the transfer engine does not look at the record. -/
theorem stepProcessor_setTracing_false : (machine.setTracing false).stepProcessor =
    (machine.stepProcessor.1, machine.stepProcessor.2.setTracing false) := by
  cases hActive : machine.dma.isActive with
  | true =>
    have hActiveOther : (machine.setTracing false).dma.isActive = true := hActive
    rw [stepProcessor_of_active hActive, stepProcessor_of_active hActiveOther]
    rfl
  | false =>
    have hActiveOther : (machine.setTracing false).dma.isActive = false := hActive
    have hCpu := Cpu.stepOn_setTracing_false machine.cpu machine.bus
    rw [stepProcessor_eq_stepOn hActive, stepProcessor_eq_stepOn hActiveOther]
    simp only [setTracing, hCpu]

/-- Neither do signals. -/
theorem foldl_apply_setTracing_false (signals : List Signal) :
    signals.foldl apply (machine.setTracing false) = (signals.foldl apply machine).setTracing false := by
  induction signals generalizing machine with
  | nil => rfl
  | cons signal rest ih =>
    have hApply : (machine.setTracing false).apply signal = (machine.apply signal).setTracing false := by
      cases signal <;> rfl
    rw [List.foldl_cons, hApply]
    exact ih (machine.apply signal)

theorem applySignals_setTracing_false :
    (machine.setTracing false).applySignals = machine.applySignals.setTracing false :=
  foldl_apply_setTracing_false { machine with bus := { machine.bus with signals := [] } }
    machine.bus.signals

/-- Neither does the picture unit. -/
theorem catchUp_setTracing_false (cycles : Nat) :
    (machine.setTracing false).catchUp cycles = (machine.catchUp cycles).setTracing false := by
  cases hEdge : (machine.bus.ppu.ticks (Clock.dotsFor cycles)).releaseNmi.1 with
  | false => simp [catchUp, setTracing, hEdge]
  | true => simp [catchUp, setTracing, hEdge, Cpu.setTracing, Cpu.latchNmi]

/-- Without recording a step takes the same time and leaves the same machine, but for the record. -/
theorem step_setTracing_false :
    (machine.setTracing false).step = (machine.step.1, machine.step.2.setTracing false) := by
  rw [step_eq, stepProcessor_setTracing_false, applySignals_setTracing_false, catchUp_setTracing_false]
  rfl

/-- So does any number of steps. -/
theorem after_setTracing_false (n : Nat) :
    (machine.setTracing false).after n = (machine.after n).setTracing false := by
  induction n with
  | zero => rfl
  | succ n ih =>
    have hStep := (machine.after n).step_setTracing_false
    rw [← ih] at hStep
    exact congrArg Prod.snd hStep

/-- A machine that is built to record, or not to, is the same machine but for that. -/
theorem build_setTracing {program patterns : List UInt8} {config : Config} {built : Machine} (on : Bool)
    (h : build program patterns config = .ok built) :
    build program patterns { config with trace := on } = .ok (built.setTracing on) := by
  obtain ⟨lower, upper, hBanks, hFits, rfl⟩ := build_eq_ok_iff.mp h
  refine build_eq_ok_iff.mpr ⟨lower, upper, hBanks, hFits, ?_⟩
  -- Right after power-on there is no record that could be dropped.
  cases on with
  | false => rfl
  | true => rfl

end Machine

end NesMachine
