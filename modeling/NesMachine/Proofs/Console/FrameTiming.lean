import NesMachine.Proofs.Console.Build
import NesMachine.Proofs.Console.Steps

/-!
# Frame timing

The processor counts cycles, the picture unit counts frames, lines and dots, and the two counts never come
apart: whatever a machine runs and however often it is reset, three dots pass in every cycle, and a frame
has all of its dots but for the one that an odd frame may leave out.

* `Timeline`: a run with the dots that have been processed since the last reset.
* `Timeline.Lockstep`: the invariant of a run.
* `Timeline.cycles_and_dots_agree`: the closed form.
-/

namespace NesMachine

inductive Call
  | step
  | reset (kind : Reset)
  deriving DecidableEq, Repr

def Machine.call (machine : Machine) : Call → Machine
  | .step => machine.step.2
  | .reset kind => machine.reset kind

/-- A machine with its past since the last reset. -/
structure Timeline where
  machine : Machine
  /-- The cycle counter right after the reset. -/
  origin : Nat
  /-- The dots since then, with the state of the picture unit before each of them. -/
  dots : List Ppu

namespace Timeline

def start (machine : Machine) : Timeline :=
  { machine, origin := machine.cycles, dots := [] }

def next (timeline : Timeline) : Call → Timeline
  | .step =>
    { timeline with
      machine := timeline.machine.step.2
      dots := timeline.dots ++ timeline.machine.stepDots }
  | .reset kind => start (timeline.machine.reset kind)

def after (machine : Machine) (calls : List Call) : Timeline :=
  calls.foldl next (start machine)

/-- Keeping the past changes nothing in the machine. -/
theorem after_machine (machine : Machine) (calls : List Call) :
    (after machine calls).machine = calls.foldl Machine.call machine := by
  have hFold (timeline : Timeline) :
      (calls.foldl next timeline).machine = calls.foldl Machine.call timeline.machine := by
    induction calls generalizing timeline with
    | nil => rfl
    | cons call rest ih =>
      rw [List.foldl_cons, List.foldl_cons, ih]
      cases call <;> rfl
  exact hFold (start machine)

/-! ## The invariant -/

/-- The account of the dots agrees with the beam, and their number with the cycles. -/
structure Lockstep (config : Config) (timeline : Timeline) : Prop where
  recorded : Ppu.Recorded timeline.dots timeline.machine.ppu.beam
  elapsed : Clock.dotsFor timeline.machine.cycles =
    Clock.dotsFor timeline.origin + timeline.dots.length
  option_dots : ∀ dot ∈ timeline.dots, dot.shortOddFrames = config.shortOddFrames
  option_now : timeline.machine.ppu.shortOddFrames = config.shortOddFrames

namespace Lockstep

variable {config : Config} {timeline : Timeline}

/-- A reset puts the beam at the start of frame zero. -/
theorem reset {machine : Machine} (h : machine.ppu.shortOddFrames = config.shortOddFrames)
    (kind : Reset) : Lockstep config (start (machine.reset kind)) where
  recorded := Ppu.Recorded.start
  elapsed := rfl
  option_dots := by simp [start]
  option_now := h

/-- A step keeps the two counts together. -/
theorem step (h : Lockstep config timeline) : Lockstep config (timeline.next .step) := by
  have hSame := timeline.machine.stepProcessor_accessed
  -- The processor leaves the beam alone; then the dots pass.
  have hBefore : Ppu.Recorded timeline.dots timeline.machine.stepProcessor.2.ppu.beam := by
    rw [hSame.beam]
    exact h.recorded
  have hAfter := hBefore.ticks (Clock.dotsFor timeline.machine.step.1)
  refine ⟨?_, ?_, ?_, ?_⟩
  · have hBeam := timeline.machine.step_beam
    simpa [next, hBeam, Machine.stepDots] using hAfter
  · have hCycles := timeline.machine.step_cycles
    have hElapsed : timeline.machine.cycles * 3 = timeline.origin * 3 + timeline.dots.length :=
      h.elapsed
    have hLater : (timeline.machine.cycles + timeline.machine.step.1) * 3 =
        timeline.origin * 3 + (timeline.dots.length + timeline.machine.step.1 * 3) := by omega
    simpa [next, Machine.stepDots, hCycles, Clock.dotsFor, Clock.dotsPerCycle] using hLater
  · intro dot hMem
    rcases List.mem_append.mp hMem with hOld | hNew
    · exact h.option_dots dot hOld
    · calc
        dot.shortOddFrames = timeline.machine.stepProcessor.2.ppu.shortOddFrames :=
          Ppu.shortOddFrames_of_mem_dots hNew
        _ = timeline.machine.ppu.shortOddFrames := hSame.shortOddFrames
        _ = config.shortOddFrames := h.option_now
  · exact timeline.machine.step_shortOddFrames.trans h.option_now

/-- Every call keeps the account in step. -/
theorem next (h : Lockstep config timeline) (call : Call) :
    Lockstep config (timeline.next call) := by
  cases call with
  | step => exact h.step
  | reset kind => exact reset h.option_now kind

/-- So does every list of calls. -/
theorem foldl (h : Lockstep config timeline) (calls : List Call) :
    Lockstep config (calls.foldl Timeline.next timeline) := by
  induction calls generalizing timeline with
  | nil => exact h
  | cons call rest ih => exact ih (h.next call)

/-- It holds from the moment a machine is built. -/
theorem after {program patterns : List UInt8} {built : Machine}
    (hBuild : Machine.build program patterns config = .ok built) (calls : List Call) :
    Lockstep config (after built calls) := by
  rcases Machine.build_eq_ok_iff.mp hBuild with ⟨lower, upper, -, -, rfl⟩
  exact (reset rfl .powerOn).foldl calls

/-- Without the option no frame is short. -/
theorem shortFrames_eq_empty (h : Lockstep config timeline) (hOff : config.shortOddFrames = false) :
    Ppu.shortFrames timeline.dots = ∅ := by
  refine Finset.eq_empty_of_forall_notMem ?_
  intro frame hShort
  rcases Ppu.mem_shortFrames.mp hShort with ⟨dot, hMem, hSkips, -⟩
  have hDot : dot.shortOddFrames = false := (h.option_dots dot hMem).trans hOff
  simp [Ppu.skipsDot, hDot] at hSkips

end Lockstep

/-! ## The closed form -/

/-- **Cycles and dots agree.** After any calls, the beam is within the frame; a step raises the cycle
counter by what it returns; three dots for every cycle since the last reset, and one for each short
frame, are the dots before the beam; and every completed frame has all of its dots, or one less if it
was short. -/
theorem cycles_and_dots_agree {program patterns : List UInt8} {config : Config} {built : Machine}
    (hBuild : Machine.build program patterns config = .ok built) (calls : List Call) :
    let timeline := after built calls
    let machine := timeline.machine
    let beam := machine.ppu.beam
    let short := Ppu.shortFrames timeline.dots
    machine = calls.foldl Machine.call built ∧
    (-1 ≤ beam.scanline ∧ beam.scanline ≤ 260 ∧ beam.dot ≤ 340) ∧
    (machine.step.2.cycles = machine.cycles + machine.step.1 ∧ machine.step.1 ≤ 8) ∧
    3 * ((machine.cycles : Int) - timeline.origin) + short.card =
      beam.frame * 89342 + (beam.scanline + 1) * 341 + beam.dot ∧
    (config.shortOddFrames = false → short = ∅) ∧
    (∀ frame < beam.frame, Ppu.dotsOf frame timeline.dots =
      if frame ∈ short then 262 * 341 - 1 else 262 * 341) := by
  intro timeline machine beam short
  have h : Lockstep config timeline := .after hBuild calls
  have hValid := h.recorded.valid
  refine ⟨after_machine built calls, ?_, ?_, ?_, h.shortFrames_eq_empty, ?_⟩
  · have hDot : beam.dot < 341 := hValid.dot_lt
    exact ⟨hValid.first_le_scanline, hValid.scanline_le_last, Nat.le_of_lt_succ hDot⟩
  · exact ⟨machine.step_cycles, machine.step_le⟩
  · -- The dots that passed are counted once by the beam and once by the cycles.
    have hTotal : timeline.dots.length + short.card = beam.frame * 89342 + beam.index :=
      h.recorded.total
    have hElapsed : machine.cycles * 3 = timeline.origin * 3 + timeline.dots.length := h.elapsed
    have hIndex : (beam.index : Int) = (beam.scanline + 1) * 341 + beam.dot :=
      Beam.index_eq hValid
    omega
  · intro frame hFrame
    have hDone : Ppu.dotsOf frame timeline.dots + Ppu.missing frame timeline.dots = 262 * 341 :=
      h.recorded.completed frame hFrame
    by_cases hShort : frame ∈ short
    · have hOne : Ppu.missing frame timeline.dots = 1 := if_pos hShort
      rw [if_pos hShort]
      omega
    · have hNone : Ppu.missing frame timeline.dots = 0 := if_neg hShort
      rw [if_neg hShort]
      omega

/-- A machine whose program is a bank of `nop`s, reset between two steps. -/
theorem cycles_and_dots_agree_for_nops :
    ∃ built, Machine.build (List.replicate MainMemory.bankSize 0xEA) []
        { shortOddFrames := true } = .ok built ∧
      let timeline := after built [.step, .reset .soft, .step]
      let beam := timeline.machine.ppu.beam
      3 * ((timeline.machine.cycles : Int) - timeline.origin) +
          (Ppu.shortFrames timeline.dots).card =
        beam.frame * 89342 + (beam.scanline + 1) * 341 + beam.dot := by
  rcases Machine.exists_build_of_replicate 0xEA { shortOddFrames := true } with ⟨built, hBuild⟩
  have hAgree := cycles_and_dots_agree hBuild [.step, .reset .soft, .step]
  exact ⟨built, hBuild, hAgree.2.2.2.1⟩

end Timeline

end NesMachine
