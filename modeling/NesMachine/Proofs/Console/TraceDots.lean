import NesMachine.Proofs.Console.FrameTiming
import NesMachine.Proofs.Console.Progress

/-!
# The dot of a trace line

A trace line derives its dot from the cycle counter, while the picture unit counts dots itself. Two things
part the counts: a soft reset sends the beam to the start of a frame and leaves the cycle counter running,
and a short frame takes the beam past a dot that no cycle pays for. Nothing else does.

* `Machine.step_lastRecord`: what a step records.
* `Timeline.dotsFor_cycles_add`: the cycles and the dots of the beam, modulo the line.
* `Timeline.trace_dot_congruence`: the dot of the line against the dot of the beam.
* `Timeline.trace_dot_wrong_after_soft_reset`: a line with another dot than the beam's.
-/

namespace NesMachine

namespace Machine

/-- No step turns the record on or off. -/
theorem stepProcessor_tracing (machine : Machine) :
    machine.stepProcessor.2.cpu.tracing = machine.cpu.tracing := by
  cases hActive : machine.dma.isActive with
  | true => rw [stepProcessor_of_active hActive]
  | false =>
    rw [stepProcessor_of_idle hActive]
    exact Cpu.tracing_of_makes (machine.cpu.makes_accessesOn machine.bus)

/-- Nor does a reset. -/
theorem call_tracing (machine : Machine) (call : Call) :
    (machine.call call).cpu.tracing = machine.cpu.tracing := by
  cases call with
  | reset kind => rfl
  | step =>
    rcases machine.step_cpu with ⟨nmiLatched, irqCount, hCpu⟩
    calc
      (machine.call .step).cpu.tracing = machine.step.2.cpu.tracing := rfl
      _ = machine.stepProcessor.2.cpu.tracing := by rw [hCpu]
      _ = machine.cpu.tracing := machine.stepProcessor_tracing

/-- While tracing, a step that runs an instruction records it with the registers and the cycles
before it. -/
theorem step_lastRecord {machine : Machine} (hTracing : machine.cpu.tracing = true)
    (hIdle : machine.dma.isActive = false) (hActivity : machine.cpu.activity = .instruction) :
    ∃ line, machine.step.2.cpu.lastRecord = some line ∧
      line.registers = machine.cpu.registers ∧ line.cycles = machine.cycles := by
  have hMakes := machine.cpu.makes_accessesOn machine.bus
  rcases Cpu.lastRecord_of_makes hMakes hActivity hTracing with ⟨core, hRecord⟩
  rcases machine.step_cpu with ⟨nmiLatched, irqCount, hCpu⟩
  refine ⟨machine.cpu.record core machine.cycles, ?_, rfl, rfl⟩
  calc
    machine.step.2.cpu.lastRecord = machine.stepProcessor.2.cpu.lastRecord := by rw [hCpu]
    _ = (machine.cpu.stepOn machine.bus).2.1.lastRecord := by rw [stepProcessor_of_idle hIdle]
    _ = some (machine.cpu.record core machine.cycles) := hRecord

/-- The first step after a reset runs an instruction. -/
theorem reset_activity (machine : Machine) (kind : Reset) :
    (machine.reset kind).dma.isActive = false ∧
      (machine.reset kind).cpu.activity = .instruction :=
  ⟨rfl, rfl⟩

end Machine

namespace Timeline

variable {program patterns : List UInt8} {config : Config} {built : Machine}

/-- Whether a record is kept is settled when the machine is built. -/
theorem after_tracing (hBuild : Machine.build program patterns config = .ok built)
    (calls : List Call) : (after built calls).machine.cpu.tracing = config.trace := by
  have hFold (machine : Machine) :
      (calls.foldl Machine.call machine).cpu.tracing = machine.cpu.tracing := by
    induction calls generalizing machine with
    | nil => rfl
    | cons call rest ih => exact (ih (machine.call call)).trans (machine.call_tracing call)
  rcases Machine.build_eq_ok_iff.mp hBuild with ⟨lower, upper, -, -, rfl⟩
  rw [after_machine]
  exact hFold _

/-- Without a soft reset the dots are counted from cycle zero. -/
theorem origin_eq_zero (hBuild : Machine.build program patterns config = .ok built)
    {calls : List Call} (hCalls : Call.reset .soft ∉ calls) : (after built calls).origin = 0 := by
  have hFold (timeline : Timeline) (hStart : timeline.origin = 0) :
      (calls.foldl next timeline).origin = 0 := by
    induction calls generalizing timeline with
    | nil => exact hStart
    | cons call rest ih =>
      rcases not_or.mp (mt List.mem_cons.mpr hCalls) with ⟨hCall, hRest⟩
      refine ih hRest (timeline.next call) ?_
      cases call with
      | step => exact hStart
      | reset kind =>
        cases kind with
        | powerOn => rfl
        | soft => exact absurd rfl hCall
  rcases Machine.build_eq_ok_iff.mp hBuild with ⟨lower, upper, -, -, rfl⟩
  exact hFold _ rfl

/-- Within a line, the dots that the cycles stand for are those of the beam but for the dots that passed
before the last reset and those that short frames left out. -/
theorem Lockstep.dotsFor_cycles_add {timeline : Timeline} (h : Lockstep config timeline) :
    (Clock.dotsFor timeline.machine.cycles + (Ppu.shortFrames timeline.dots).card) %
        Clock.dotsPerScanline =
      (timeline.machine.ppu.beam.dot + Clock.dotsFor timeline.origin) % Clock.dotsPerScanline := by
  have hElapsed := h.elapsed
  have hTotal : timeline.dots.length + (Ppu.shortFrames timeline.dots).card =
      timeline.machine.ppu.beam.frame * (262 * 341) + timeline.machine.ppu.beam.index :=
    h.recorded.total
  -- Lines and frames are whole multiples of a line.
  have hIndex : timeline.machine.ppu.beam.index =
      (timeline.machine.ppu.beam.scanline + 1).toNat * 341 + timeline.machine.ppu.beam.dot := rfl
  have hLine : Clock.dotsPerScanline = 341 := rfl
  rw [hLine]
  omega

/-- **The dot of a trace line.** After any calls, a step that runs an instruction while tracing records a
line whose dot, together with the dots that short frames left out, is the dot of the beam together with the
dots that passed before the last reset. So the two are the same exactly if those two numbers are, as when
there was no soft reset and no short frame. -/
theorem trace_dot_congruence (hBuild : Machine.build program patterns config = .ok built)
    (calls : List Call) :
    let timeline := after built calls
    let machine := timeline.machine
    let skipped := (Ppu.shortFrames timeline.dots).card
    machine = calls.foldl Machine.call built ∧
    (config.trace = true → machine.dma.isActive = false → machine.cpu.activity = .instruction →
      ∃ line, machine.step.2.cpu.lastRecord = some line ∧
        (line.dot + skipped) % 341 = (machine.ppu.beam.dot + 3 * timeline.origin) % 341 ∧
        (line.dot = machine.ppu.beam.dot ↔ skipped % 341 = 3 * timeline.origin % 341)) ∧
    (Call.reset .soft ∉ calls → timeline.origin = 0) ∧
    (config.shortOddFrames = false → skipped = 0) := by
  intro timeline machine skipped
  have h : Lockstep config timeline := .after hBuild calls
  refine ⟨after_machine built calls, ?_, origin_eq_zero hBuild, ?_⟩
  · intro hTrace hIdle hActivity
    have hTracing : machine.cpu.tracing = true := (after_tracing hBuild calls).trans hTrace
    -- The record has the cycles from before the step.
    rcases Machine.step_lastRecord hTracing hIdle hActivity with ⟨line, hLine, -, hCycles⟩
    have hAgree : (machine.cycles * 3 + skipped) % 341 =
        (machine.ppu.beam.dot + timeline.origin * 3) % 341 := h.dotsFor_cycles_add
    have hDot : line.dot = machine.cycles * 3 % 341 := by
      rw [TraceLine.dot, hCycles]
      rfl
    have hInLine : machine.ppu.beam.dot < 341 := h.recorded.valid.dot_lt
    exact ⟨line, hLine, by omega, by omega⟩
  · intro hOff
    have hNone : Ppu.shortFrames timeline.dots = ∅ := h.shortFrames_eq_empty hOff
    exact Finset.card_eq_zero.mpr hNone

/-- Two steps of a bank of `nop`s, traced, with a power-on between them: the third line has the dot of
the beam. -/
theorem trace_dot_of_nops_after_power_on :
    ∃ built, Machine.build (List.replicate MainMemory.bankSize 0xEA) [] { trace := true } =
        .ok built ∧
      let machine := [Call.step, .reset .powerOn].foldl Machine.call built
      ∃ line, machine.step.2.cpu.lastRecord = some line ∧ line.dot = machine.ppu.beam.dot := by
  rcases Machine.exists_build_of_replicate 0xEA { trace := true } with ⟨built, hBuild⟩
  rcases trace_dot_congruence hBuild [.step, .reset .powerOn] with ⟨hMachine, hLine, hOrigin, hShort⟩
  refine ⟨built, hBuild, ?_⟩
  rw [← hMachine]
  rcases hLine rfl rfl rfl with ⟨line, hRecord, -, hSame⟩
  refine ⟨line, hRecord, hSame.mpr ?_⟩
  rw [hOrigin (by decide), hShort rfl]

/-- After a soft reset the beam is at dot zero, and the line tells the dot at which the cycle counter went
on. -/
theorem trace_dot_wrong_after_soft_reset :
    ∃ built, Machine.build (List.replicate MainMemory.bankSize 0xEA) [] { trace := true } =
        .ok built ∧
      let machine := [Call.step, .reset .soft].foldl Machine.call built
      machine.dma.isActive = false ∧ machine.cpu.activity = .instruction ∧
        machine.ppu.beam.dot = 0 ∧
        ∃ line, machine.step.2.cpu.lastRecord = some line ∧ line.dot ≠ machine.ppu.beam.dot := by
  rcases Machine.exists_build_of_replicate 0xEA { trace := true } with ⟨built, hBuild⟩
  refine ⟨built, hBuild, ?_⟩
  intro machine
  have hTracing : machine.cpu.tracing = true := by
    have hAfter := after_tracing hBuild [.step, .reset .soft]
    rwa [after_machine] at hAfter
  rcases built.step.2.reset_activity .soft with ⟨hIdle, hActivity⟩
  rcases Machine.step_lastRecord hTracing hIdle hActivity with ⟨line, hLine, -, hCycles⟩
  refine ⟨hIdle, hActivity, rfl, line, hLine, ?_⟩
  -- The counter holds the two to eight cycles of the step before the reset.
  rcases Machine.build_eq_ok_iff.mp hBuild with ⟨lower, upper, -, -, hBuilt⟩
  have hStart : built.cycles = 0 ∧ built.dma.isActive = false := by
    rw [hBuilt]
    exact ⟨rfl, rfl⟩
  have hCounter : machine.cycles = built.step.1 :=
    calc
      machine.cycles = built.step.2.cycles := rfl
      _ = built.cycles + built.step.1 := built.step_cycles
      _ = built.step.1 := by rw [hStart.1, Nat.zero_add]
  have hLeast : 2 ≤ built.step.1 := Machine.two_le_step hStart.2
  have hMost := built.step_le
  have hDot : line.dot = built.step.1 * 3 % 341 := by
    rw [TraceLine.dot, hCycles, hCounter]
    rfl
  have hBeam : machine.ppu.beam.dot = 0 := rfl
  omega

end Timeline

end NesMachine
