import NesMachine.Proofs.CommandLine.TracedRun
import NesMachine.Proofs.Console.ProgramBanks

/-!
# What a traced run prints

The printer sees one thing of a step: the machine's last record, which an interrupt entry and a step of a
transfer leave as it was. It tells old records from new ones by the cycle at which the instruction started.
As every step takes time, no two instructions start at the same cycle, so that each is printed once.

* `Machine.instructionLines`: the trace lines of the instructions among some steps.
* `CommandLine.Session.call`: one call of the printer, of which a traced run is made.
* `CommandLine.Session.Synced`: the printer has seen the record that is in place.
* `CommandLine.prints_each_instruction_once`: the lines of any number of calls.
-/

namespace NesMachine

/-! ## The lines of the instructions -/

/-- While tracing, an instruction is recorded, and an interrupt entry leaves the record in place. -/
theorem Cpu.stepOn_lastRecord {σ : Type} [Bus σ] {cpu : Cpu} (hTracing : cpu.tracing = true) (bus : σ) :
    (cpu.stepOn bus).2.1.lastRecord =
      match cpu.activity with
      | .entry _ => cpu.lastRecord
      | .instruction =>
        some (cpu.record ((Exec.executeNext cpu.core).run bus).1.2 (Bus.cycles bus)) := by
  have hStep : (cpu.stepOn bus).2.1 = ((cpu.perform (Bus.cycles bus) cpu.activity).run bus).1 := by
    rw [← step_eq_perform]
    rfl
  rw [hStep]
  cases cpu.activity with
  | entry line =>
    rw [perform, enter, Script.run_bind]
    cases line <;> rfl
  | instruction =>
    rw [perform, executeNext, Script.run_bind]
    exact if_pos hTracing

namespace Machine

/-- The trace line of the instruction that the next step runs. A step of a transfer and an interrupt entry
run none. -/
def nextLine (machine : Machine) : Option TraceLine :=
  if machine.dma.isActive then
    none
  else
    match machine.cpu.activity with
    | .entry _ => none
    | .instruction =>
      some (machine.cpu.record ((Exec.executeNext machine.cpu.core).run machine.bus).1.2 machine.cycles)

def instructionLines (machine : Machine) (steps : Nat) : List TraceLine :=
  (List.range steps).filterMap fun i => (machine.after i).nextLine

/-- A further step adds the line of its instruction, if it runs one. -/
theorem instructionLines_succ (machine : Machine) (steps : Nat) :
    machine.instructionLines (steps + 1) =
      machine.instructionLines steps ++ (machine.after steps).nextLine.toList := by
  rw [instructionLines, List.range_succ, List.filterMap_append]
  cases hLine : (machine.after steps).nextLine <;> simp [instructionLines, hLine]

/-- More steps only add lines. -/
theorem instructionLines_prefix (machine : Machine) {few many : Nat} (h : few ≤ many) :
    machine.instructionLines few <+: machine.instructionLines many := by
  induction many, h using Nat.le_induction with
  | base => exact List.prefix_rfl
  | succ many _ ih =>
    rw [instructionLines_succ]
    exact ih.trans (List.prefix_append _ _)

/-- A line starts at the cycle before its step. -/
theorem cycles_of_nextLine {machine : Machine} {line : TraceLine} (h : machine.nextLine = some line) :
    line.cycles = machine.cycles := by
  rw [nextLine] at h
  split at h
  · cases h
  · split at h
    · cases h
    · cases h
      rfl

/-- While tracing, a step that runs an instruction leaves its line as the record, and any other step leaves
the record as it was. -/
theorem step_lastRecord_eq {machine : Machine} (hTracing : machine.cpu.tracing = true) :
    machine.step.2.cpu.lastRecord = machine.nextLine.or machine.cpu.lastRecord := by
  obtain ⟨nmiLatched, irqCount, hCpu⟩ := machine.step_cpu
  have hProcessor : machine.step.2.cpu.lastRecord = machine.stepProcessor.2.cpu.lastRecord := by
    rw [hCpu]
  rw [hProcessor, nextLine]
  cases hActive : machine.dma.isActive with
  | true =>
    rw [stepProcessor_of_active hActive]
    rfl
  | false =>
    rw [stepProcessor_eq_stepOn hActive]
    refine (Cpu.stepOn_lastRecord hTracing machine.bus).trans ?_
    cases machine.cpu.activity <;> rfl

end Machine

namespace CommandLine

/-! ## Calls of the printer -/

structure Session where
  machine : Machine
  printer : Printer

namespace Session

def start (machine : Machine) (limit : Option Nat) : Session :=
  { machine, printer := { limit } }

/-- One call of the printer: unless it is full, the machine makes a step and its record is shown to the
printer. The answer is whether there was a step. -/
def call (session : Session) : Bool × Session :=
  if session.printer.isFull then
    (false, session)
  else
    (true,
      { machine := session.machine.step.2
        printer := session.printer.record session.machine.step.2 })

def after (session : Session) : Nat → Session
  | 0 => session
  | n + 1 => (session.after n).call.2

variable {session : Session}

theorem call_of_isFull (h : session.printer.isFull = true) : session.call = (false, session) :=
  if_pos h

/-- As long as the printer is not full, a call is a step whose record is shown to it. -/
theorem call_of_not_isFull (h : session.printer.isFull = false) :
    session.call =
      (true,
        { machine := session.machine.step.2
          printer := session.printer.record session.machine.step.2 }) :=
  if_neg (by simp [h])

/-- The first call can be split off from a number of calls. -/
theorem after_call (session : Session) (n : Nat) : session.call.2.after n = session.after (n + 1) := by
  induction n with
  | zero => rfl
  | succ n ih => exact congrArg (fun reached : Session => reached.call.2) ih

/-- A traced run is made of calls: it looks at its goal, and then calls the printer until that is full. -/
theorem traceWithin_eq_call (goal : Goal) (session : Session) (limit : Nat) :
    traceWithin goal session.machine session.printer (limit + 1) =
      if goal.isReached session.machine then
        (session.machine, session.printer)
      else
        match session.call with
        | (true, next) => traceWithin goal next.machine next.printer limit
        | (false, same) => (same.machine, same.printer) := by
  rw [traceWithin]
  cases hReached : goal.isReached session.machine with
  | true => rfl
  | false =>
    cases hFull : session.printer.isFull with
    | true =>
      rw [call_of_isFull hFull]
      rfl
    | false =>
      rw [call_of_not_isFull hFull]
      rfl

/-- A traced run is some number of calls. -/
theorem exists_after_traceWithin (goal : Goal) (session : Session) (limit : Nat) :
    ∃ calls, traceWithin goal session.machine session.printer limit =
      ((session.after calls).machine, (session.after calls).printer) := by
  -- The loop and the repeated call test the goal and the limit in the same order.
  induction limit generalizing session with
  | zero => exact ⟨0, rfl⟩
  | succ limit ih =>
    rw [traceWithin_eq_call]
    by_cases hReached : goal.isReached session.machine = true
    · rw [if_pos hReached]
      exact ⟨0, rfl⟩
    · rw [if_neg hReached]
      cases hFull : session.printer.isFull with
      | true =>
        rw [call_of_isFull hFull]
        exact ⟨0, rfl⟩
      | false =>
        obtain ⟨calls, hCalls⟩ := ih session.call.2
        rw [after_call, call_of_not_isFull hFull] at hCalls
        rw [call_of_not_isFull hFull]
        exact ⟨calls + 1, hCalls⟩

/-! ## The record and the printer -/

/-- The machine keeps a record, and the one that is in place, if there is one, is of an earlier cycle and is
the last that the printer has seen. -/
structure Synced (session : Session) : Prop where
  tracing : session.machine.cpu.tracing = true
  last : session.printer.last = session.machine.cpu.lastRecord.map (·.cycles)
  past : ∀ line, session.machine.cpu.lastRecord = some line → line.cycles < session.machine.cycles

/-- A call that makes a step prints the line of the instruction that the step runs, if it runs one. -/
theorem Synced.call (h : session.Synced) (hFull : session.printer.isFull = false) :
    session.call.2.Synced ∧
      session.call.2.printer.lines.toList =
        session.printer.lines.toList ++ (session.machine.nextLine.map TraceLine.text).toList := by
  have hRecord := Machine.step_lastRecord_eq h.tracing
  have hTracing : session.machine.step.2.cpu.tracing = true :=
    (session.machine.call_tracing .step).trans h.tracing
  have hLater : session.machine.cycles < session.machine.step.2.cycles := by
    rw [session.machine.step_cycles]
    exact Nat.lt_add_of_pos_right session.machine.step_pos
  rw [call_of_not_isFull hFull]
  cases hLine : session.machine.nextLine with
  | none =>
    -- The record is the one from before, and the printer knows it.
    rw [hLine, Option.none_or] at hRecord
    have hSame : session.printer.record session.machine.step.2 = session.printer := by
      rw [Printer.record, hRecord]
      cases hOld : session.machine.cpu.lastRecord with
      | none => rfl
      | some line =>
        have hSeen := h.last
        rw [hOld] at hSeen
        exact if_pos hSeen
    rw [hSame]
    refine ⟨⟨hTracing, ?_, ?_⟩, (List.append_nil _).symm⟩
    · exact h.last.trans (congrArg (Option.map (·.cycles)) hRecord.symm)
    · intro line hOld
      exact Nat.lt_trans (h.past line (hRecord.symm.trans hOld)) hLater
  | some line =>
    have hStart := Machine.cycles_of_nextLine hLine
    rw [hLine, Option.some_or] at hRecord
    -- The printer has seen nothing that started as late as this.
    have hNew : ¬session.printer.last = some line.cycles := by
      intro hSeen
      rw [h.last] at hSeen
      obtain ⟨old, hOld, hCycles⟩ := Option.map_eq_some_iff.mp hSeen
      have hPast := h.past old hOld
      omega
    have hPrinted : session.printer.record session.machine.step.2 =
        { session.printer with
          lines := session.printer.lines.push line.text
          last := some line.cycles } := by
      rw [Printer.record, hRecord]
      exact if_neg hNew
    rw [hPrinted]
    refine ⟨⟨hTracing, ?_, ?_⟩, Array.toList_push ..⟩
    · exact (congrArg (Option.map (·.cycles)) hRecord).symm
    · intro other hOther
      have hSame : line = other := Option.some.inj (hRecord.symm.trans hOther)
      rw [← hSame, hStart]
      exact hLater

/-- A traced machine without a record starts in step with any printer. -/
theorem Synced.start {machine : Machine} (hTracing : machine.cpu.tracing = true)
    (hNone : machine.cpu.lastRecord = none) (limit : Option Nat) : (start machine limit).Synced where
  tracing := hTracing
  last := (congrArg (Option.map TraceLine.cycles) hNone).symm
  past := by
    intro line hSome
    cases hNone.symm.trans hSome

/-! ## Any number of calls -/

/-- What a session shows that began with `machine` and has made so many steps: the lines of the instructions
among them, and no more of them than the limit allows. -/
structure Prints (machine : Machine) (limit : Option Nat) (steps : Nat) (session : Session) : Prop where
  synced : session.Synced
  reached : session.machine = machine.after steps
  limited : session.printer.limit = limit
  lines : session.printer.lines.toList = (machine.instructionLines steps).map TraceLine.text
  fits : ∀ most, limit = some most → session.printer.lines.size ≤ most

namespace Prints

variable {machine : Machine} {limit : Option Nat} {steps : Nat}

/-- Before the first step there is nothing to print. -/
theorem start (h : (start machine limit).Synced) : Prints machine limit 0 (start machine limit) where
  synced := h
  reached := rfl
  limited := rfl
  lines := rfl
  fits := fun _ _ => Nat.zero_le _

/-- The lines are as many as the instructions. -/
theorem size_eq (h : Prints machine limit steps session) :
    session.printer.lines.size = (machine.instructionLines steps).length := by
  rw [← Array.length_toList, h.lines, List.length_map]

/-- The printer is full when as many lines are printed as the limit allows. -/
theorem isFull_iff (h : Prints machine limit steps session) :
    session.printer.isFull = true ↔ limit = some session.printer.lines.size := by
  rw [Printer.isFull, h.limited]
  cases limit with
  | none => simp
  | some most =>
    have hFits := h.fits most rfl
    simp only [decide_eq_true_eq, Option.some.injEq]
    omega

/-- A call prints one more line exactly when its step runs an instruction. -/
theorem call (h : Prints machine limit steps session) (hFull : session.printer.isFull = false) :
    Prints machine limit (steps + 1) session.call.2 := by
  obtain ⟨hSynced, hLines⟩ := h.synced.call hFull
  have hStep : session.call.2.machine = machine.after (steps + 1) := by
    rw [call_of_not_isFull hFull, h.reached]
    rfl
  have hPrinter : session.call.2.printer = session.printer.record session.machine.step.2 := by
    rw [call_of_not_isFull hFull]
  refine ⟨hSynced, hStep, ?_, ?_, ?_⟩
  · rw [hPrinter, Printer.record_limit, h.limited]
  · rw [hLines, h.lines, h.reached, Machine.instructionLines_succ, List.map_append]
    cases (machine.after steps).nextLine <;> rfl
  · intro most hLimit
    have hRoom : ¬most ≤ session.printer.lines.size := by
      simpa [Printer.isFull, h.limited, hLimit] using hFull
    -- One call prints one line at most.
    have hOne : session.call.2.printer.lines.size ≤ session.printer.lines.size + 1 := by
      rw [← Array.length_toList, hLines, List.length_append, Array.length_toList]
      cases session.machine.nextLine <;> simp
    omega

/-- What is printed within the limit are the first lines of all that the calls could have printed. -/
theorem lines_eq_take (h : Prints machine limit steps session) {calls most : Nat} (hSteps : steps ≤ calls)
    (hLimit : limit = some most) (hStopped : steps = calls ∨ session.printer.isFull = true) :
    session.printer.lines.toList = ((machine.instructionLines calls).take most).map TraceLine.text := by
  have hPrefix := machine.instructionLines_prefix hSteps
  have hFits := h.fits most hLimit
  rw [h.size_eq] at hFits
  rw [h.lines]
  rcases hStopped with rfl | hFull
  · rw [List.take_of_length_le hFits]
  · have hSize := h.isFull_iff.mp hFull
    have hMost : most = (machine.instructionLines steps).length := by
      rw [← h.size_eq]
      exact Option.some.inj (hLimit.symm.trans hSize)
    rw [hMost, ← List.prefix_iff_eq_take.mp hPrefix]

end Prints

/-- Each call makes a step until the printer is full, and no call makes one after that. -/
theorem exists_prints {machine : Machine} {limit : Option Nat} (h : (start machine limit).Synced)
    (calls : Nat) :
    ∃ steps ≤ calls, Prints machine limit steps ((start machine limit).after calls) ∧
      (steps = calls ∨ ((start machine limit).after calls).printer.isFull = true) := by
  induction calls with
  | zero => exact ⟨0, Nat.le_refl 0, .start h, .inl rfl⟩
  | succ calls ih =>
    obtain ⟨steps, hLe, hPrints, hStopped⟩ := ih
    cases hFull : ((start machine limit).after calls).printer.isFull with
    | true =>
      have hSame : (start machine limit).after (calls + 1) = (start machine limit).after calls :=
        congrArg Prod.snd (call_of_isFull hFull)
      rw [hSame]
      exact ⟨steps, Nat.le_succ_of_le hLe, hPrints, .inr hFull⟩
    | false =>
      have hAll : steps = calls := hStopped.resolve_right (by simp [hFull])
      rw [hAll] at hPrints
      exact ⟨calls + 1, Nat.le_refl _, hPrints.call hFull, .inl rfl⟩

end Session

/-- A machine that was built to be traced has no record yet, wherever it starts. -/
theorem synced_placed {program patterns : List UInt8} {config : Config} {built : Machine}
    (hBuild : Machine.build program patterns config = .ok built) (hTrace : config.trace = true)
    (options : Options) (limit : Option Nat) : (Session.start (placed options built) limit).Synced := by
  obtain ⟨lower, upper, -, -, rfl⟩ := Machine.build_eq_ok_iff.mp hBuild
  rw [placed]
  cases options.startPC with
  | none => exact .start hTrace rfl limit
  | some pc => exact .start hTrace rfl limit

/-- **Each executed instruction is printed once.** Take a machine that was built to be traced, any program
counter to start from, and any number of calls of the printer. The calls make some steps, without a limit
one each, and print the trace lines of the instructions that these steps run, in their order and nothing
else. Under a limit they print the first lines of all that so many steps run, as many as the limit allows.
A call refuses and leaves everything as it was exactly when that many are printed, and otherwise makes a
step. A traced run, whatever its goal, is such a number of calls. -/
theorem prints_each_instruction_once {program patterns : List UInt8} {config : Config} {built : Machine}
    (hBuild : Machine.build program patterns config = .ok built) (hTrace : config.trace = true)
    (options : Options) (limit : Option Nat) (calls : Nat) :
    let machine := placed options built
    let session := (Session.start machine limit).after calls
    (∃ steps ≤ calls, session.machine = machine.after steps ∧
      session.printer.lines.toList = (machine.instructionLines steps).map TraceLine.text ∧
      (limit = none → steps = calls)) ∧
    (∀ most, limit = some most → session.printer.lines.size ≤ most ∧
      session.printer.lines.toList =
        ((machine.instructionLines calls).take most).map TraceLine.text) ∧
    (session.call = (false, session) ↔ limit = some session.printer.lines.size) ∧
    (limit ≠ some session.printer.lines.size →
      session.call.1 = true ∧ session.call.2.machine = session.machine.step.2) ∧
    ∀ (goal : Goal) (bound : Nat), ∃ n, traceWithin goal machine { limit } bound =
      (((Session.start machine limit).after n).machine, ((Session.start machine limit).after n).printer) := by
  intro machine session
  have hStart : (Session.start machine limit).Synced := synced_placed hBuild hTrace options limit
  obtain ⟨steps, hLe, hPrints, hStopped⟩ := Session.exists_prints hStart calls
  refine ⟨⟨steps, hLe, hPrints.reached, hPrints.lines, ?_⟩, ?_, ?_, ?_, ?_⟩
  · intro hUnlimited
    refine hStopped.resolve_right fun hFull => ?_
    cases hUnlimited.symm.trans (hPrints.isFull_iff.mp hFull)
  · intro most hLimit
    exact ⟨hPrints.fits most hLimit, hPrints.lines_eq_take hLe hLimit hStopped⟩
  · rw [← hPrints.isFull_iff]
    constructor
    · -- A call that is made answers `true`, so a call that answers `false` was refused.
      intro hRefused
      by_contra hRoom
      have hMade := Session.call_of_not_isFull (Bool.eq_false_iff.mpr hRoom)
      cases congrArg Prod.fst (hRefused.symm.trans hMade)
    · exact Session.call_of_isFull
  · intro hRoom
    rw [ne_eq, ← hPrints.isFull_iff] at hRoom
    have hMade : session.call = _ := Session.call_of_not_isFull (Bool.eq_false_iff.mpr hRoom)
    rw [hMade]
    exact ⟨rfl, rfl⟩
  · intro goal bound
    exact Session.exists_after_traceWithin goal (Session.start machine limit) bound

/-- Five calls on a bank of no-operations, started at its copy in the upper window, with a limit of two lines. -/
theorem prints_two_lines_of_idle_program :
    let config : Config := { trace := true }
    let options : Options :=
      { rom := "idle.nes", seconds := none, frames := 1, trace := true, traceLimit := some 2
        startPC := some 0xC000, ppm := none, logLevel := .info }
    ∃ built, Machine.build (List.replicate MainMemory.bankSize 0xEA) [] config = .ok built ∧
      config.trace = true ∧
      let session := (Session.start (placed options built) (some 2)).after 5
      session.printer.lines.toList =
          ["C000  EA        A:00 X:00 Y:00 P:24 SP:FD CYC:  0",
            "C001  EA        A:00 X:00 Y:00 P:24 SP:FD CYC:  6"] ∧
        session.call = (false, session) := by
  intro config options
  have hBuild := Machine.build_setTracing true (Machine.build_replicate 0xEA)
  obtain ⟨-, hTake, hCall, -, -⟩ := prints_each_instruction_once hBuild rfl options (some 2) 5
  refine ⟨_, hBuild, rfl, ?_⟩
  intro session
  have hLines := (hTake 2 rfl).2.trans (by decide +kernel :
    _ = ["C000  EA        A:00 X:00 Y:00 P:24 SP:FD CYC:  0",
      "C001  EA        A:00 X:00 Y:00 P:24 SP:FD CYC:  6"])
  refine ⟨hLines, hCall.mpr ?_⟩
  rw [← Array.length_toList, hLines]
  rfl

end CommandLine

end NesMachine
