import NesMachine.Proofs.Console.Runs

/-!
# Runs to the next frame

A run to the next frame watches a count that goes up only where the beam leaves the last line. What is left
of the frame shrinks with every step, and a step is much shorter than a frame, so the run ends with the
first step of the next frame and never passes two frames.

* `Machine.runWithin_of_isLeast`: the run is the least number of steps that leave the frame.
* `Machine.position_after`: the dots of some steps, and the dots that were dropped among them.
* `Machine.exists_runToNextFrame`: the run ends, with the step that leaves the frame.
* `Machine.frame_step_of_ne`: a step that leaves the frame ends in the first dots of the next one.
* `Machine.runToNextFrame_stops_at_first_step`: where the run ends, and how long it takes.
-/

namespace NesMachine

namespace Machine

variable {machine : Machine}

/-! ## Dots and steps -/

/-- The dots of the first steps, with the state of the picture unit before each of them. -/
def runDots (machine : Machine) : Nat → List Ppu
  | 0 => []
  | n + 1 => machine.runDots n ++ (machine.after n).stepDots

def stepDrops (machine : Machine) : Nat :=
  machine.stepDots.countP Ppu.skipsDot

/-- A step passes 24 dots at most, dropped ones among them. -/
theorem stepDrops_le (machine : Machine) : machine.stepDrops ≤ 24 := by
  calc
    machine.stepDrops ≤ machine.stepDots.length := List.countP_le_length
    _ = machine.step.1 * 3 := Ppu.length_dots _ _
    _ ≤ 8 * 3 := Nat.mul_le_mul_right 3 machine.step_le

/-- A step moves the beam on by three dots for each cycle, and past those that it drops. -/
theorem position_step (h : machine.ppu.beam.Valid) :
    machine.step.2.ppu.beam.position =
      machine.ppu.beam.position + machine.step.1 * 3 + machine.stepDrops := by
  have hBeam := machine.stepProcessor_beam
  have hValid : machine.stepProcessor.2.ppu.beam.Valid := hBeam ▸ h
  have hTicks := Ppu.position_ticks hValid (Clock.dotsFor machine.step.1)
  rw [← step_beam, hBeam] at hTicks
  exact hTicks

/-- Dots are dropped only at places meant for it, and each place is passed once. -/
theorem dropPlaces_step (h : machine.ppu.beam.Valid) :
    machine.ppu.beam.dropPlaces + machine.stepDrops ≤ machine.step.2.ppu.beam.dropPlaces := by
  have hBeam := machine.stepProcessor_beam
  have hValid : machine.stepProcessor.2.ppu.beam.Valid := hBeam ▸ h
  have hTicks := Ppu.dropPlaces_ticks hValid (Clock.dotsFor machine.step.1)
  rw [← step_beam, hBeam] at hTicks
  exact hTicks

theorem countP_runDots_succ (machine : Machine) (n : Nat) :
    (machine.runDots (n + 1)).countP Ppu.skipsDot =
      (machine.runDots n).countP Ppu.skipsDot + (machine.after n).stepDrops :=
  List.countP_append

/-- The beam moves on by three dots for each cycle, and past those that are dropped. -/
theorem position_after (h : machine.ppu.beam.Valid) (n : Nat) :
    (machine.after n).ppu.beam.position = machine.ppu.beam.position + machine.elapsed n * 3 +
      (machine.runDots n).countP Ppu.skipsDot := by
  induction n with
  | zero => simp [after, elapsed_zero, runDots]
  | succ n ih =>
    have hStep := position_step (after_valid h n)
    have hNext : machine.after (n + 1) = (machine.after n).step.2 := rfl
    rw [hNext, countP_runDots_succ, elapsed_succ]
    omega

/-- A run drops no more dots than it passes places where one can be dropped. -/
theorem dropPlaces_after (h : machine.ppu.beam.Valid) (n : Nat) :
    machine.ppu.beam.dropPlaces + (machine.runDots n).countP Ppu.skipsDot ≤
      (machine.after n).ppu.beam.dropPlaces := by
  induction n with
  | zero => exact Nat.le_refl _
  | succ n ih =>
    have hStep := dropPlaces_step (after_valid h n)
    have hNext : machine.after (n + 1) = (machine.after n).step.2 := rfl
    rw [hNext, countP_runDots_succ]
    omega

/-! ## The last step of a frame -/

/-- A step that leaves the frame ends in the next one, and not far from its start. -/
theorem frame_step_of_ne (h : machine.ppu.beam.Valid)
    (hLeft : machine.step.2.ppu.beam.frame ≠ machine.ppu.beam.frame) :
    machine.step.2.ppu.beam.frame = machine.ppu.beam.frame + 1 ∧
      machine.step.2.ppu.beam.index < 24 := by
  have hPosition := position_step h
  have hPlaces := dropPlaces_step h
  have hForward := machine.notBefore_step.frame_le
  have hBefore := Beam.index_lt h
  have hAfter := Beam.index_lt (step_valid h)
  have hStep := machine.step_le
  have hDrops := machine.stepDrops_le
  have hFrame : Clock.dotsPerFrame = 89342 := rfl
  simp only [Beam.position, hFrame] at hPosition hBefore hAfter
  have hNext : machine.step.2.ppu.beam.frame = machine.ppu.beam.frame + 1 := by omega
  -- At the end of a frame the place where a dot may be dropped is long past, and the next one is far.
  have hNone : machine.stepDrops = 0 := by
    have hPast : 339 < machine.ppu.beam.index := by omega
    have hAhead : ¬339 < machine.step.2.ppu.beam.index := by omega
    simp only [Beam.dropPlaces, if_pos hPast, if_neg hAhead, hNext] at hPlaces
    omega
  exact ⟨hNext, by omega⟩

/-- In terms of lines and dots, that is the start of the line before the picture. -/
theorem firstLine_of_index_lt {beam : Beam} (h : beam.Valid) (hIndex : beam.index < 24) :
    beam.scanline = -1 ∧ beam.dot < 24 := by
  have hLine := Beam.index_eq h
  have hFirst : -1 ≤ beam.scanline := h.first_le_scanline
  omega

/-! ## The steps of a run -/

section Frame

variable {frame steps : Nat}

/-- A run within a frame makes the least number of steps that leave it, if it may make so many. -/
theorem runWithin_of_isLeast
    (h : IsLeast {n | (machine.after n).ppu.beam.frame ≠ frame} steps) {limit : Nat}
    (hLimit : steps ≤ limit) (spent : Nat) :
    machine.runWithin frame spent limit = (spent + machine.elapsed steps, machine.after steps) := by
  induction steps generalizing machine limit spent with
  | zero => exact runWithin_of_ne h.1 spent limit
  | succ steps ih =>
    have hHere : machine.ppu.beam.frame = frame :=
      not_not.mp (not_of_lt_isLeast h (Nat.succ_pos steps))
    cases limit with
    | zero => cases hLimit
    | succ limit =>
      have hLeast := isLeast_of_isLeast_succ h
      simp only [← after_step] at hLeast
      rw [runWithin_of_eq hHere, ih hLeast (Nat.le_of_succ_le_succ hLimit), after_step, elapsed_step,
        Nat.add_assoc]

/-- As many steps as some frames have dots pass as many frames. -/
theorem frame_add_le_after (h : machine.ppu.beam.Valid) {count n : Nat}
    (hLong : count * Clock.dotsPerFrame ≤ n) :
    machine.ppu.beam.frame + count ≤ (machine.after n).ppu.beam.frame := by
  have hPosition := position_after h n
  have hElapsed := machine.le_elapsed n
  have hIndex := Beam.index_lt (after_valid h n)
  have hPerFrame : Clock.dotsPerFrame = 89342 := rfl
  simp only [Beam.position, hPerFrame] at hPosition hIndex hLong
  omega

/-- A given number of frames is completed after some least number of steps, and a step for each dot is
enough. -/
theorem exists_isLeast_frame_add (h : machine.ppu.beam.Valid) (count : Nat) :
    ∃ steps, IsLeast {n | machine.ppu.beam.frame + count ≤ (machine.after n).ppu.beam.frame} steps ∧
      steps ≤ count * Clock.dotsPerFrame := by
  have hPassed := frame_add_le_after h (Nat.le_refl (count * Clock.dotsPerFrame))
  have hLeast := Nat.isLeast_find
    (p := fun n => machine.ppu.beam.frame + count ≤ (machine.after n).ppu.beam.frame) ⟨_, hPassed⟩
  exact ⟨_, hLeast, hLeast.2 hPassed⟩

/-- The step that leaves the frame is within the limit of a run. -/
theorem exists_isLeast_frame_ne (h : machine.ppu.beam.Valid) {limit : Nat}
    (hLong : Clock.dotsPerFrame ≤ limit) :
    ∃ steps, IsLeast {n | (machine.after n).ppu.beam.frame ≠ machine.ppu.beam.frame} steps ∧
      steps ≤ limit := by
  have hLeaves : (machine.after limit).ppu.beam.frame ≠ machine.ppu.beam.frame := by
    have hLater : machine.ppu.beam.frame + 1 ≤ (machine.after limit).ppu.beam.frame :=
      frame_add_le_after h (Nat.one_mul _ ▸ hLong)
    exact Nat.ne_of_gt hLater
  have hLeast := Nat.isLeast_find (p := fun n => (machine.after n).ppu.beam.frame ≠ machine.ppu.beam.frame)
    ⟨limit, hLeaves⟩
  exact ⟨_, hLeast, hLeast.2 hLeaves⟩

/-- The bound on the steps of a run to the next frame is never reached. -/
theorem exists_runToNextFrame (h : machine.ppu.beam.Valid) :
    ∃ steps, IsLeast {n | (machine.after n).ppu.beam.frame ≠ machine.ppu.beam.frame} steps ∧
      machine.runToNextFrame = (machine.elapsed steps, machine.after steps) := by
  obtain ⟨steps, hSteps, hLimit⟩ := exists_isLeast_frame_ne h (Nat.le_refl Clock.dotsPerFrame)
  have hRun := runWithin_of_isLeast hSteps hLimit 0
  rw [Nat.zero_add] at hRun
  exact ⟨steps, hSteps, hRun⟩

/-- Running to the next frame never comes back within the same frame. -/
theorem frame_runToNextFrame_ne (h : machine.ppu.beam.Valid) :
    machine.runToNextFrame.2.ppu.beam.frame ≠ machine.ppu.beam.frame := by
  obtain ⟨steps, hSteps, hRun⟩ := exists_runToNextFrame h
  rw [hRun]
  exact hSteps.1

/-- The run ends in the next frame, close to its start. -/
theorem frame_after_of_isLeast (h : machine.ppu.beam.Valid)
    (hSteps : IsLeast {n | (machine.after n).ppu.beam.frame ≠ machine.ppu.beam.frame} steps) :
    (machine.after steps).ppu.beam.frame = machine.ppu.beam.frame + 1 ∧
      (machine.after steps).ppu.beam.index < 24 := by
  cases steps with
  | zero => exact absurd rfl hSteps.1
  | succ steps =>
    -- The step before the last one is still in the frame.
    have hHere : (machine.after steps).ppu.beam.frame = machine.ppu.beam.frame :=
      not_not.mp (not_of_lt_isLeast hSteps (Nat.lt_succ_self steps))
    have hLeft : (machine.after steps).step.2.ppu.beam.frame ≠ (machine.after steps).ppu.beam.frame := by
      rw [hHere]
      exact hSteps.1
    have hLast := frame_step_of_ne (after_valid h steps) hLeft
    rw [hHere] at hLast
    exact hLast

end Frame

/-- **A run to the next frame stops at its first step.** From every position within a frame the run ends,
after the least number of steps that change the count of frames. Then the count is one higher and the beam
is within the first 24 dots of the line before the picture; and three dots for each cycle that the run
returns lead from the one position to the other, where the frame has one dot less if it dropped one. -/
theorem runToNextFrame_stops_at_first_step (h : machine.ppu.beam.Valid) :
    let start := machine.ppu.beam
    let run := machine.runToNextFrame
    let reached := run.2.ppu.beam
    ∃ steps, IsLeast {n | (machine.after n).ppu.beam.frame ≠ start.frame} steps ∧
      run = (machine.elapsed steps, machine.after steps) ∧
      reached.frame = start.frame + 1 ∧ reached.scanline = -1 ∧ reached.dot < 24 ∧
      (start.scanline + 1) * 341 + start.dot + 3 * (run.1 : Int) =
        (if (machine.runDots steps).any Ppu.skipsDot then 89341 else 89342) +
          ((reached.scanline + 1) * 341 + reached.dot) := by
  intro start run reached
  obtain ⟨steps, hSteps, hRun⟩ := exists_runToNextFrame h
  have hBeam : reached = (machine.after steps).ppu.beam :=
    congrArg (fun ran : Nat × Machine => ran.2.ppu.beam) hRun
  have hValid : reached.Valid := hBeam ▸ after_valid h steps
  obtain ⟨hFrame, hIndex⟩ := frame_after_of_isLeast h hSteps
  rw [← hBeam] at hFrame hIndex
  obtain ⟨hLine, hDot⟩ := firstLine_of_index_lt hValid hIndex
  refine ⟨steps, hSteps, hRun, hFrame, hLine, hDot, ?_⟩
  have hPosition := position_after h steps
  have hPlaces := dropPlaces_after h steps
  have hCycles : run.1 = machine.elapsed steps := congrArg Prod.fst hRun
  have hPerFrame : Clock.dotsPerFrame = 89342 := rfl
  have hAhead : ¬339 < reached.index := by omega
  rw [← hBeam] at hPosition hPlaces
  simp only [Beam.position, hFrame, hPerFrame] at hPosition
  simp only [Beam.dropPlaces, hFrame, if_neg hAhead] at hPlaces
  rw [← Beam.index_eq h, ← Beam.index_eq hValid, hCycles]
  -- At most one dot was dropped, in the frame that the run has left.
  by_cases hDropped : (machine.runDots steps).any Ppu.skipsDot = true
  · have hOne : 0 < (machine.runDots steps).countP Ppu.skipsDot := by
      rw [List.countP_pos_iff]
      exact List.any_eq_true.mp hDropped
    rw [if_pos hDropped]
    omega
  · have hNone : (machine.runDots steps).countP Ppu.skipsDot = 0 := by
      rw [List.countP_eq_zero]
      simpa using hDropped
    rw [if_neg hDropped]
    omega

/-- From the last dot of a frame, in the middle of a transfer: two cycles, and so five dots of the next
frame. -/
theorem runToNextFrame_from_last_dot :
    let machine : Machine :=
      { dma := SpriteTransfer.start 2
        bus :=
          { memory := { cells := Ram.zero 16 }
            ppu := { beam := { scanline := 260, dot := 340, frame := 6 } }
            cycles := 7 } }
    let reached := machine.runToNextFrame.2.ppu.beam
    machine.ppu.beam.Valid ∧ machine.runToNextFrame.1 = 2 ∧
      reached.frame = 7 ∧ reached.scanline = -1 ∧ reached.dot = 5 := by
  intro machine reached
  have hValid : machine.ppu.beam.Valid := ⟨by decide, by decide, by decide⟩
  obtain ⟨steps, -, -, hFrame, hLine, -, -⟩ := runToNextFrame_stops_at_first_step hValid
  exact ⟨hValid, by decide +kernel, hFrame, hLine, by decide +kernel⟩

end Machine

end NesMachine
