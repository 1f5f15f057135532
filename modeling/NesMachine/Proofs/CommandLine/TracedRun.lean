import NesMachine.CommandLine.Run
import NesMachine.Proofs.Cartridge.Parse
import NesMachine.Proofs.Console.NextFrame
import NesMachine.Proofs.Console.Recording
import NesMachine.Proofs.Console.Reset
import NesMachine.Proofs.Console.TraceDots

/-!
# Traced runs

A traced run goes step by step and looks at its goal before each step; a plain run leaves it to the machine
to run for a budget or from frame to frame. Both make the least number of steps that reach the goal, and a
step is the same with and without a record, so both end in the same machine and show the same picture.

* `CommandLine.Goal.run`, `CommandLine.Goal.runTraced`: the plain run and the traced run.
* `CommandLine.runFrames_of_isLeast`, `CommandLine.traceWithin_of_isLeast`: the steps of both runs.
* `CommandLine.Booted`: the machine at the start.
* `CommandLine.SameRun`: what both runs have in common.
* `CommandLine.tracing_keeps_run`: the command with and without the trace.
-/

namespace NesMachine

namespace CommandLine

/-! ## Printing -/

namespace Printer

def recordSteps (printer : Printer) (machine : Machine) : Nat → Printer
  | 0 => printer
  | n + 1 => (printer.recordSteps machine n).record (machine.after (n + 1))

/-- The first step can be split off from what is printed. -/
theorem recordSteps_step (printer : Printer) (machine : Machine) (n : Nat) :
    (printer.record machine.step.2).recordSteps machine.step.2 n =
      printer.recordSteps machine (n + 1) := by
  induction n with
  | zero => rfl
  | succ n ih =>
    calc
      (printer.record machine.step.2).recordSteps machine.step.2 (n + 1)
          = (printer.recordSteps machine (n + 1)).record (machine.step.2.after (n + 1)) := by
            rw [← ih]
            rfl
      _ = printer.recordSteps machine (n + 2) := by
            rw [Machine.after_step]
            rfl

theorem isFull_of_unlimited {printer : Printer} (h : printer.limit = none) : printer.isFull = false := by
  rw [isFull, h]

/-- Printing keeps the limit. -/
theorem record_limit (printer : Printer) (machine : Machine) :
    (printer.record machine).limit = printer.limit := by
  rw [record]
  split
  · split
    · rfl
    · rfl
  · rfl

/-- Printing takes no line back. -/
theorem size_le_record (printer : Printer) (machine : Machine) :
    printer.lines.size ≤ (printer.record machine).lines.size := by
  rw [record]
  split
  · split
    · exact Nat.le_refl _
    · simp
  · exact Nat.le_refl _

/-- A new printer prints the first record that it is shown. -/
theorem size_record_of_new {printer : Printer} (h : printer.last = none) {machine : Machine}
    {line : TraceLine} (hRecord : machine.cpu.lastRecord = some line) :
    (printer.record machine).lines.size = printer.lines.size + 1 := by
  simp [record, hRecord, h]

/-- Once something is printed, it stays. -/
theorem size_pos_recordSteps {printer : Printer} {machine : Machine} {n : Nat}
    (h : 0 < (printer.record machine.step.2).lines.size) :
    0 < (printer.recordSteps machine (n + 1)).lines.size := by
  induction n with
  | zero => exact h
  | succ n ih => exact Nat.lt_of_lt_of_le ih (size_le_record _ _)

end Printer

/-! ## The steps of a run -/

namespace Goal

def run (goal : Goal) (machine : Machine) : Machine :=
  match goal with
  | cycles budget => (machine.runFor budget).2
  | frames count => runFrames machine count

def runTraced (goal : Goal) (machine : Machine) : Machine × Printer :=
  traceWithin goal machine { limit := none } goal.stepLimit

end Goal

section Steps

variable {machine : Machine} {steps : Nat}

/-- Running frame by frame makes the least number of steps that pass so many frames. -/
theorem runFrames_of_isLeast (h : machine.ppu.beam.Valid) {count : Nat}
    (hSteps : IsLeast {n | machine.ppu.beam.frame + count ≤ (machine.after n).ppu.beam.frame} steps) :
    runFrames machine count = machine.after steps := by
  induction count generalizing machine steps with
  | zero =>
    have hNone : steps = 0 := Nat.le_zero.mp (hSteps.2 (Nat.le_refl machine.ppu.beam.frame))
    rw [hNone]
    rfl
  | succ count ih =>
    -- The first frame is passed after some steps, and the others after some more.
    obtain ⟨first, hFirst, hReached⟩ := Machine.exists_runToNextFrame h
    have hFrame := (Machine.frame_after_of_isLeast h hFirst).1
    have hValid := Machine.after_valid h first
    obtain ⟨rest, hRest, -⟩ := Machine.exists_isLeast_frame_add hValid count
    have hWhole : IsLeast {n | machine.ppu.beam.frame + (count + 1) ≤
        (machine.after n).ppu.beam.frame} (first + rest) := by
      refine isLeast_add hFirst (fun n hLater => ?_) ?_
      · omega
      · simpa only [Machine.after_add, hFrame, Nat.add_assoc, Nat.add_comm 1 count] using hRest
    calc
      runFrames machine (count + 1) = runFrames (machine.after first) count := by rw [runFrames, hReached]
      _ = (machine.after first).after rest := ih hValid hRest
      _ = machine.after steps := by rw [← Machine.after_add, hSteps.unique hWhole]

/-- Without a limit on the lines, a traced run makes the least number of steps that reach its goal. -/
theorem traceWithin_of_isLeast {goal : Goal} {printer : Printer} (hUnlimited : printer.limit = none)
    (h : IsLeast {n | goal.isReached (machine.after n) = true} steps) {limit : Nat}
    (hLimit : steps ≤ limit) :
    traceWithin goal machine printer limit = (machine.after steps, printer.recordSteps machine steps) := by
  -- The least number of steps goes down by one with each step, and the limit with it.
  induction steps generalizing machine printer limit with
  | zero =>
    have hReached : goal.isReached machine = true := h.1
    cases limit with
    | zero => rfl
    | succ limit =>
      rw [traceWithin, hReached, Bool.true_or, if_pos rfl]
      rfl
  | succ steps ih =>
    have hFar : goal.isReached machine = false :=
      Bool.eq_false_iff.mpr (not_of_lt_isLeast h (Nat.succ_pos steps))
    cases limit with
    | zero => cases hLimit
    | succ limit =>
      have hLeast := isLeast_of_isLeast_succ h
      simp only [← Machine.after_step] at hLeast
      have hNext : (printer.record machine.step.2).limit = none :=
        (printer.record_limit machine.step.2).trans hUnlimited
      have hRest := ih hNext hLeast (Nat.le_of_succ_le_succ hLimit)
      rw [traceWithin, hFar, Printer.isFull_of_unlimited hUnlimited, Bool.or_false, if_neg Bool.false_ne_true, hRest,
        Machine.after_step, Printer.recordSteps_step]

end Steps

/-! ## The start -/

/-- A machine that has not made a step: nothing is under way, and no time has passed. -/
structure Booted (machine : Machine) : Prop where
  ready : machine.Ready
  cycles : machine.cycles = 0
  beam : machine.ppu.beam = {}

/-- A machine that was built, with the program counter that the options ask for. -/
def placed (options : Options) (built : Machine) : Machine :=
  match options.startPC with
  | some pc => built.setRegisters { built.cpu.registers with pc }
  | none => built

/-- Setting the program counter has nothing to do with the record. -/
theorem placed_setTracing_false (options : Options) (built : Machine) :
    placed options (built.setTracing false) = (placed options built).setTracing false := by
  rw [placed, placed]
  cases options.startPC <;> rfl

theorem load_of_parse {image : List UInt8} {cartridge : Cartridge} (h : Cartridge.parse image = .ok cartridge) :
    Cartridge.load (.ok image) = .ok cartridge := by
  rw [Cartridge.load, h]

/-- A run starts exactly when the image is loaded and mounted, and it starts with the machine as placed. -/
theorem boot_eq_ok_iff {options : Options} {image : Except String (List UInt8)} {start : Machine} :
    boot options image = .ok start ↔ ∃ cartridge built, Cartridge.load image = .ok cartridge ∧
      cartridge.mount { trace := options.trace } = .ok built ∧ start = placed options built := by
  have hPlaced (built : Machine) : (match options.startPC with
      | some pc => return built.setRegisters { built.cpu.registers with pc }
      | none => return built : Except Failure Machine) = .ok (placed options built) := by
    rw [placed]
    cases options.startPC <;> rfl
  simp only [boot, bind_eq_ok_iff, mapError_eq_ok_iff]
  constructor
  · rintro ⟨cartridge, hLoad, built, hMount, hStart⟩
    exact ⟨cartridge, built, hLoad, hMount, Except.ok.inj (hStart.symm.trans (hPlaced built))⟩
  · rintro ⟨cartridge, built, hLoad, hMount, rfl⟩
    exact ⟨cartridge, hLoad, built, hMount, hPlaced built⟩

section Boot

variable {options : Options} {image : Except String (List UInt8)} {start : Machine}

/-- The machine at the start of a run has not made a step, and it keeps a record if a trace is asked for. -/
theorem booted_of_boot (h : boot options image = .ok start) :
    Booted start ∧ start.cpu.tracing = options.trace := by
  obtain ⟨cartridge, built, -, hMount, rfl⟩ := boot_eq_ok_iff.mp h
  obtain ⟨lower, upper, -, -, rfl⟩ := Machine.build_eq_ok_iff.mp hMount
  rw [placed]
  -- The program counter is no part of what is under way.
  cases options.startPC with
  | none => exact ⟨⟨⟨rfl, rfl, rfl, rfl, rfl, rfl⟩, rfl, rfl⟩, rfl⟩
  | some pc => exact ⟨⟨⟨rfl, rfl, rfl, rfl, rfl, rfl⟩, rfl, rfl⟩, rfl⟩

/-- What boots to be traced boots without that. -/
theorem boot_setTracing_false (h : boot { options with trace := true } image = .ok start) :
    boot { options with trace := false } image = .ok (start.setTracing false) := by
  obtain ⟨cartridge, built, hLoad, hMount, rfl⟩ := boot_eq_ok_iff.mp h
  have hPlain : cartridge.mount { trace := false } = .ok (built.setTracing false) :=
    Machine.build_setTracing false hMount
  exact boot_eq_ok_iff.mpr ⟨cartridge, _, hLoad, hPlain, (placed_setTracing_false options built).symm⟩

end Boot

/-! ## Both runs from the start -/

namespace Booted

variable {start : Machine} {steps : Nat}

theorem valid (h : Booted start) : start.ppu.beam.Valid := by
  rw [h.beam]
  exact ⟨by decide, by decide, by decide⟩

/-- Without the record the machine still has not made a step. -/
theorem setTracing_false (h : Booted start) : Booted (start.setTracing false) where
  ready :=
    { nmiLatched := h.ready.nmiLatched
      irqCount := h.ready.irqCount
      irqMasked := h.ready.irqMasked
      edge := h.ready.edge
      dma := h.ready.dma
      signals := h.ready.signals }
  cycles := h.cycles
  beam := h.beam

/-- The goal is reached at the start if and only if no step is asked for. -/
theorem isReached_iff (h : Booted start) (goal : Goal) :
    goal.isReached start = true ↔ goal = .cycles 0 ∨ goal = .frames 0 := by
  cases goal with
  | cycles budget => simp [Goal.isReached, h.cycles]
  | frames count => simp [Goal.isReached, h.beam]

/-- Some number of steps reaches the goal within the limit of the traced run, and the plain run makes the
least one. -/
theorem exists_isLeast_isReached (h : Booted start) (goal : Goal) :
    ∃ steps, IsLeast {n | goal.isReached (start.after n) = true} steps ∧ steps ≤ goal.stepLimit ∧
      goal.run start = start.after steps := by
  cases goal with
  | cycles budget =>
    obtain ⟨steps, hSteps⟩ := start.exists_isLeast_elapsed budget
    -- A booted machine starts at zero, so what it counts is what the run has used.
    have hReached (n : Nat) : (Goal.cycles budget).isReached (start.after n) = true ↔
        budget ≤ start.elapsed n := by
      simp [Goal.isReached, Machine.cycles_after, h.cycles]
    simp only [hReached]
    exact ⟨steps, hSteps, hSteps.2 (start.le_elapsed budget),
      congrArg Prod.snd (Machine.runFor_of_isLeast hSteps)⟩
  | frames count =>
    have hFrame : start.ppu.beam.frame = 0 := congrArg Beam.frame h.beam
    have hReached (n : Nat) : (Goal.frames count).isReached (start.after n) = true ↔
        start.ppu.beam.frame + count ≤ (start.after n).ppu.beam.frame := by
      simp [Goal.isReached, hFrame]
    obtain ⟨steps, hSteps, hLimit⟩ := Machine.exists_isLeast_frame_add h.valid count
    simp only [hReached]
    exact ⟨steps, hSteps, hLimit, runFrames_of_isLeast h.valid hSteps⟩

/-- The traced run and the plain run make the same number of steps. -/
theorem exists_steps (h : Booted start) (goal : Goal) :
    ∃ steps, IsLeast {n | goal.isReached (start.after n) = true} steps ∧
      goal.runTraced start = (start.after steps, ({ limit := none } : Printer).recordSteps start steps) ∧
      goal.run (start.setTracing false) = (start.setTracing false).after steps := by
  obtain ⟨steps, hSteps, hLimit, -⟩ := h.exists_isLeast_isReached goal
  obtain ⟨plainSteps, hPlainSteps, -, hPlain⟩ := h.setTracing_false.exists_isLeast_isReached goal
  -- Whether the goal is reached does not depend on the record.
  have hReached (n : Nat) : goal.isReached ((start.setTracing false).after n) =
      goal.isReached (start.after n) := by
    rw [Machine.after_setTracing_false]
    cases goal <;> rfl
  simp only [hReached] at hPlainSteps
  rw [hPlainSteps.unique hSteps] at hPlain
  exact ⟨steps, hSteps, traceWithin_of_isLeast rfl hSteps hLimit, hPlain⟩

/-- The first step of a traced run is an instruction, and is printed. -/
theorem lines_eq_empty_iff (h : Booted start) (hTracing : start.cpu.tracing = true) :
    (({ limit := none } : Printer).recordSteps start steps).lines = #[] ↔ steps = 0 := by
  cases steps with
  | zero => simp [Printer.recordSteps]
  | succ steps =>
    obtain ⟨line, hLine, -⟩ := Machine.step_lastRecord hTracing h.ready.dma h.ready.activity
    have hFirst : 0 < (({ limit := none } : Printer).record start.step.2).lines.size := by
      rw [Printer.size_record_of_new rfl hLine]
      exact Nat.succ_pos _
    have hPrinted := Printer.size_pos_recordSteps (n := steps) hFirst
    constructor
    · intro hEmpty
      rw [hEmpty] at hPrinted
      exact absurd hPrinted (Nat.lt_irrefl 0)
    · intro hNone
      exact absurd hNone (Nat.succ_ne_zero steps)

end Booted

/-- What a traced run and a plain run to one goal have in common, where the first starts at `start` and the
second at the same machine without the record. -/
structure SameRun (goal : Goal) (start : Machine) (traced : Machine × Printer) (plain : Machine) : Prop where
  /-- Both make the least number of steps that reach the goal. -/
  steps : ∃ steps, IsLeast {n | goal.isReached (start.after n) = true} steps ∧
    traced.1 = start.after steps ∧ plain = (start.setTracing false).after steps ∧
    (steps = 0 ↔ goal = .cycles 0 ∨ goal = .frames 0)
  /-- Nothing is printed if and only if no step is made. -/
  silent : traced.2.lines = #[] ↔ goal = .cycles 0 ∨ goal = .frames 0
  machine : plain = traced.1.setTracing false
  cycles : plain.cycles = traced.1.cycles
  picture : plain.ppu.picture = traced.1.ppu.picture

/-- Both runs to a goal take the same steps from such a start, up to the record. -/
theorem Booted.sameRun {start : Machine} (h : Booted start) (hTracing : start.cpu.tracing = true)
    (goal : Goal) : SameRun goal start (goal.runTraced start) (goal.run (start.setTracing false)) := by
  obtain ⟨steps, hSteps, hTraced, hPlain⟩ := h.exists_steps goal
  have hNone : steps = 0 ↔ goal = .cycles 0 ∨ goal = .frames 0 :=
    (isLeast_eq_zero_iff hSteps).trans (h.isReached_iff goal)
  have hEnd : goal.run (start.setTracing false) = (start.after steps).setTracing false :=
    hPlain.trans (start.after_setTracing_false steps)
  rw [hTraced]
  exact
    { steps := ⟨steps, hSteps, rfl, hPlain, hNone⟩
      silent := (h.lines_eq_empty_iff hTracing).trans hNone
      machine := hEnd
      cycles := by
        rw [hEnd]
        rfl
      picture := by
        rw [hEnd]
        rfl }

/-! ## The command -/

/-- A run without a trace is the plain run to its goal. -/
theorem runMachine_plain (options : Options) (machine : Machine) :
    runMachine { options with trace := false } machine =
      { result := .ok (finish options ((Goal.ofOptions options).run machine)) } := by
  have hSpan : ({ options with trace := false } : Options).span = options.span := rfl
  rw [runMachine, if_neg Bool.false_ne_true, hSpan, Goal.ofOptions]
  cases options.span <;> rfl

/-- A run with a trace is the traced run to its goal, and it fails only if nothing was traced. -/
theorem runMachine_traced (options : Options) (machine : Machine) :
    let ran := (Goal.ofOptions options).runTraced machine
    runMachine { options with trace := true, traceLimit := none } machine =
      { output := ran.2.lines
        result :=
          if ran.2.lines.isEmpty then .error Failure.nothingTraced
          else .ok (finish options ran.1) } :=
  rfl

/-- **Tracing keeps a run.** Take an image that boots, where both counters start at zero, and a number of
cycles or of frames. The traced run, if it has no limit on the lines, and the plain run both make the least
number of steps that reach the goal, and each step is the same in both. So they end in the same machine but
for the record, with the same count of cycles and the same picture. The command ends in the same way with and
without the trace, unless no step is asked for: then nothing is printed, and the traced run is an error. -/
theorem tracing_keeps_run {options : Options} {image : Except String (List UInt8)} {start : Machine}
    (hBoot : boot { options with trace := true } image = .ok start) :
    let plainStart := start.setTracing false
    (start.cycles = 0 ∧ start.ppu.beam.frame = 0) ∧
    boot { options with trace := false } image = .ok plainStart ∧
    (∀ n, (plainStart.after n).step =
      ((start.after n).step.1, (start.after n).step.2.setTracing false)) ∧
    (∀ goal : Goal, SameRun goal start (goal.runTraced start) (goal.run plainStart)) ∧
    (run { options with trace := false } image).result =
      .ok (finish options ((Goal.ofOptions options).run plainStart)) ∧
    (run { options with trace := true, traceLimit := none } image).result =
      if Goal.ofOptions options = .cycles 0 ∨ Goal.ofOptions options = .frames 0 then
        .error Failure.nothingTraced
      else (run { options with trace := false } image).result := by
  intro plainStart
  obtain ⟨hBooted, hTracing⟩ := booted_of_boot hBoot
  have hPlainBoot := boot_setTracing_false hBoot
  have hSteps (n : Nat) : (plainStart.after n).step =
      ((start.after n).step.1, (start.after n).step.2.setTracing false) := by
    rw [Machine.after_setTracing_false, Machine.step_setTracing_false]
  have hPlain : (run { options with trace := false } image).result =
      .ok (finish options ((Goal.ofOptions options).run plainStart)) := by
    simp only [run, hPlainBoot, runMachine_plain]
    rfl
  refine ⟨⟨hBooted.cycles, congrArg Beam.frame hBooted.beam⟩, hPlainBoot, hSteps,
    hBooted.sameRun hTracing, hPlain, ?_⟩
  -- A limit on the lines plays no part in booting.
  have hTracedBoot : boot { options with trace := true, traceLimit := none } image = .ok start := hBoot
  have hSame := hBooted.sameRun hTracing (Goal.ofOptions options)
  rw [hPlain, run, hTracedBoot]
  simp only [runMachine_traced, Array.isEmpty_iff, hSame.silent]
  -- The traced run is silent exactly if it makes no step, which are the goals named here.
  by_cases hNone : Goal.ofOptions options = .cycles 0 ∨ Goal.ofOptions options = .frames 0
  · rw [if_pos hNone, if_pos hNone]
  · rw [if_neg hNone, if_neg hNone, finish, finish, hSame.picture]

/-- Two frames of no-operations from the second half of the program window, with a picture of the last one. -/
theorem tracing_keeps_run_of_idle_program :
    let options : Options :=
      { rom := "idle.nes", seconds := none, frames := 2, trace := true, traceLimit := some 1
        startPC := some 0xC000, ppm := some "idle.ppm", logLevel := .info }
    let image := .ok (Image.plain 1 0 (List.replicate MainMemory.bankSize 0xEA) [])
    (∃ start, boot { options with trace := true } image = .ok start) ∧
      (run { options with trace := true, traceLimit := none } image).result =
        (run { options with trace := false } image).result := by
  intro options image
  have hProgram : (List.replicate MainMemory.bankSize (0xEA : UInt8)).length = 16384 * (1 : UInt8).toNat :=
    List.length_replicate
  have hPatterns : ([] : List UInt8).length = 8192 * (0 : UInt8).toNat := rfl
  have hLoad := load_of_parse (Cartridge.parse_plain hProgram hPatterns)
  obtain ⟨built, hBuilt⟩ := Machine.exists_build_of_replicate 0xEA { trace := true }
  have hBoot : boot { options with trace := true } image = .ok (placed options built) :=
    boot_eq_ok_iff.mpr ⟨_, built, hLoad, hBuilt, rfl⟩
  have hAsked : ¬(Goal.ofOptions options = .cycles 0 ∨ Goal.ofOptions options = .frames 0) := by decide
  have hResult := (tracing_keeps_run hBoot).2.2.2.2.2
  rw [if_neg hAsked] at hResult
  exact ⟨⟨_, hBoot⟩, hResult⟩

end CommandLine

end NesMachine
