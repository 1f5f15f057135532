import Mathlib.Data.Finset.Card
import Mathlib.Data.Finset.Dedup
import NesMachine.Ppu.Basic
import NesMachine.Proofs.Ppu.Position

/-!
# The dots that a picture unit processes

`Ppu.dots` lists the states before each of the next dots, so that what happens at a dot can be counted.
`Ppu.Recorded` ties such a list, kept since the start of a frame zero, to the position of the beam; the
processor may come in between dots, because its accesses leave the beam alone.

* `Ppu.tick_beam`: how a dot moves the beam.
* `Ppu.Recorded.tick`, `Ppu.Recorded.ticks`: the passing of dots keeps the account.
-/

namespace NesMachine

namespace Ppu

/-! ## One dot -/

@[simp] theorem statusEvent_beam (ppu : Ppu) : ppu.statusEvent.beam = ppu.beam := by
  rw [statusEvent]
  split_ifs <;> rfl

@[simp] theorem statusEvent_shortOddFrames (ppu : Ppu) :
    ppu.statusEvent.shortOddFrames = ppu.shortOddFrames := by
  rw [statusEvent]
  split_ifs <;> rfl

@[simp] theorem statusEvent_mask (ppu : Ppu) :
    ppu.statusEvent.latches.mask = ppu.latches.mask := by
  rw [statusEvent]
  split_ifs <;> rfl

@[simp] theorem spriteEvent_beam (ppu : Ppu) : ppu.spriteEvent.beam = ppu.beam := by
  rw [spriteEvent]
  split_ifs <;> rfl

@[simp] theorem spriteEvent_shortOddFrames (ppu : Ppu) :
    ppu.spriteEvent.shortOddFrames = ppu.shortOddFrames := by
  rw [spriteEvent]
  split_ifs <;> rfl

@[simp] theorem spriteEvent_mask (ppu : Ppu) :
    ppu.spriteEvent.latches.mask = ppu.latches.mask := by
  rw [spriteEvent]
  split_ifs <;> rfl

@[simp] theorem spriteEvent_status (ppu : Ppu) :
    ppu.spriteEvent.latches.status = ppu.latches.status := by
  rw [spriteEvent]
  split_ifs <;> rfl

@[simp] theorem spriteEvent_nmiLatched (ppu : Ppu) :
    ppu.spriteEvent.nmiLatched = ppu.nmiLatched := by
  rw [spriteEvent]
  split_ifs <;> rfl

def skipsDot (ppu : Ppu) : Bool :=
  ppu.beam.frame % 2 == 1 && ppu.beam.scanline == Beam.preRenderLine && ppu.beam.dot == 339 &&
    ppu.shortOddFrames && ppu.latches.mask.rendering

/-- Whether the dot is skipped depends on the place of the beam, the setting and the mask. -/
theorem skipsDot_eq (ppu : Ppu) :
    ppu.skipsDot = ppu.beam.dropsDot (ppu.shortOddFrames && ppu.latches.mask.rendering) := by
  rw [Bool.eq_iff_iff, Beam.dropsDot_iff]
  simp [skipsDot]
  tauto

/-- A dot moves the beam on, and from the skipped one to the next line. -/
theorem tick_beam (ppu : Ppu) :
    ppu.tick.beam = ppu.beam.advance (ppu.shortOddFrames && ppu.latches.mask.rendering) := by
  simp [tick]

theorem tick_valid {ppu : Ppu} (h : ppu.beam.Valid) : ppu.tick.beam.Valid := by
  rw [tick_beam]
  exact Beam.advance_valid h _

@[simp] theorem tick_shortOddFrames (ppu : Ppu) : ppu.tick.shortOddFrames = ppu.shortOddFrames := by
  simp [tick]

/-! ## Several dots -/

def dots (ppu : Ppu) : Nat → List Ppu
  | 0 => []
  | n + 1 => ppu :: ppu.tick.dots n

@[simp] theorem length_dots (ppu : Ppu) (n : Nat) : (ppu.dots n).length = n := by
  induction n generalizing ppu with
  | zero => rfl
  | succ n ih => simp [dots, ih]

/-- What is skipped along a row of dots is what its first dot and the rest skip. -/
theorem countP_dots_succ (ppu : Ppu) (n : Nat) : (ppu.dots (n + 1)).countP skipsDot =
    (ppu.tick.dots n).countP skipsDot + ppu.skipsDot.toNat := by
  cases hSkips : ppu.skipsDot with
  | false => simp [dots, hSkips]
  | true => simp [dots, hSkips]

theorem ticks_valid {ppu : Ppu} (h : ppu.beam.Valid) (n : Nat) : (ppu.ticks n).beam.Valid := by
  induction n generalizing ppu with
  | zero => exact h
  | succ n ih => exact ih (tick_valid h)

/-- Every dot moves the beam on, and past the dots that are left out. -/
theorem position_ticks {ppu : Ppu} (h : ppu.beam.Valid) (n : Nat) :
    (ppu.ticks n).beam.position = ppu.beam.position + n + (ppu.dots n).countP skipsDot := by
  induction n generalizing ppu with
  | zero => simp [ticks, dots]
  | succ n ih =>
    have hTick : ppu.tick.beam.position = ppu.beam.position + 1 + ppu.skipsDot.toNat := by
      rw [tick_beam, skipsDot_eq]
      exact Beam.position_advance h _
    have hRest := ih (tick_valid h)
    rw [ticks, countP_dots_succ]
    omega

/-- A dot is left out at most once in a frame. -/
theorem dropPlaces_ticks {ppu : Ppu} (h : ppu.beam.Valid) (n : Nat) :
    ppu.beam.dropPlaces + (ppu.dots n).countP skipsDot ≤ (ppu.ticks n).beam.dropPlaces := by
  induction n generalizing ppu with
  | zero => exact Nat.le_refl _
  | succ n ih =>
    have hTick : ppu.beam.dropPlaces + ppu.skipsDot.toNat ≤ ppu.tick.beam.dropPlaces := by
      rw [tick_beam, skipsDot_eq]
      exact Beam.dropPlaces_advance h _
    have hRest := ih (tick_valid h)
    rw [ticks, countP_dots_succ]
    omega

/-- A dot ends one frame at most. -/
theorem frame_tick (ppu : Ppu) :
    ppu.beam.frame ≤ ppu.tick.beam.frame ∧ ppu.tick.beam.frame ≤ ppu.beam.frame + 1 := by
  rw [tick_beam]
  exact Beam.frame_advance _ _

/-- So many dots end so many frames at most, and never go back. -/
theorem frame_ticks (ppu : Ppu) (n : Nat) :
    ppu.beam.frame ≤ (ppu.ticks n).beam.frame ∧ (ppu.ticks n).beam.frame ≤ ppu.beam.frame + n := by
  induction n generalizing ppu with
  | zero => exact ⟨Nat.le_refl _, Nat.le_refl _⟩
  | succ n ih =>
    have hTick := ppu.frame_tick
    have hRest := ih ppu.tick
    rw [ticks]
    omega

@[simp] theorem ticks_shortOddFrames (ppu : Ppu) (n : Nat) :
    (ppu.ticks n).shortOddFrames = ppu.shortOddFrames := by
  induction n generalizing ppu with
  | zero => rfl
  | succ n ih => rw [ticks, ih, tick_shortOddFrames]

/-- The setting is the same at all dots of a row. -/
theorem shortOddFrames_of_mem_dots {ppu dot : Ppu} {n : Nat} (h : dot ∈ ppu.dots n) :
    dot.shortOddFrames = ppu.shortOddFrames := by
  induction n generalizing ppu with
  | zero => cases h
  | succ n ih =>
    rcases List.mem_cons.mp h with rfl | hLater
    · rfl
    · exact (ih hLater).trans ppu.tick_shortOddFrames

/-! ## The account -/

/-- The frames that were a dot shorter. -/
def shortFrames (dots : List Ppu) : Finset Nat :=
  ((dots.filter skipsDot).map (·.beam.frame)).toFinset

theorem mem_shortFrames {dots : List Ppu} {frame : Nat} :
    frame ∈ shortFrames dots ↔ ∃ dot ∈ dots, dot.skipsDot = true ∧ dot.beam.frame = frame := by
  simp [shortFrames, and_assoc]

/-- A skipping dot makes its frame short. -/
theorem shortFrames_append_of_skips (dots : List Ppu) {ppu : Ppu} (h : ppu.skipsDot = true) :
    shortFrames (dots ++ [ppu]) = insert ppu.beam.frame (shortFrames dots) := by
  ext frame
  rw [Finset.mem_insert, mem_shortFrames, mem_shortFrames]
  constructor
  · rintro ⟨dot, hMem, hSkips, hFrame⟩
    rcases List.mem_append.mp hMem with hOld | hNew
    · exact .inr ⟨dot, hOld, hSkips, hFrame⟩
    · rw [List.mem_singleton.mp hNew] at hFrame
      exact .inl hFrame.symm
  · rintro (rfl | ⟨dot, hMem, hSkips, hFrame⟩)
    · exact ⟨ppu, List.mem_append_right _ (List.mem_singleton.mpr rfl), h, rfl⟩
    · exact ⟨dot, List.mem_append_left _ hMem, hSkips, hFrame⟩

theorem shortFrames_append_of_keeps (dots : List Ppu) {ppu : Ppu} (h : ppu.skipsDot = false) :
    shortFrames (dots ++ [ppu]) = shortFrames dots := by
  ext frame
  simp [mem_shortFrames, h, or_and_right, exists_or]

def dotsOf (frame : Nat) (dots : List Ppu) : Nat :=
  dots.countP (·.beam.frame == frame)

theorem dotsOf_append (frame : Nat) (dots : List Ppu) (ppu : Ppu) :
    dotsOf frame (dots ++ [ppu]) = dotsOf frame dots + if ppu.beam.frame = frame then 1 else 0 := by
  simp [dotsOf, List.countP_append, List.countP_cons]

/-- One when the frame was a dot shorter, zero otherwise. -/
def missing (frame : Nat) (dots : List Ppu) : Nat :=
  if frame ∈ shortFrames dots then 1 else 0

/-- The account of the dots since the start of frame zero agrees with the position of the beam. -/
structure Recorded (dots : List Ppu) (beam : Beam) : Prop where
  valid : beam.Valid
  earlier : ∀ dot ∈ dots, dot.beam.frame < beam.frame ∨
    dot.beam.frame = beam.frame ∧ dot.beam.index < beam.index
  completed : ∀ frame < beam.frame, dotsOf frame dots + missing frame dots = Clock.dotsPerFrame
  current : dotsOf beam.frame dots + missing beam.frame dots = beam.index
  total : dots.length + (shortFrames dots).card = beam.frame * Clock.dotsPerFrame + beam.index

namespace Recorded

variable {dots : List Ppu} {ppu : Ppu}

theorem start : Recorded [] {} where
  valid := Beam.valid_default
  earlier := by simp
  completed := by
    intro frame hFrame
    cases hFrame
  current := rfl
  total := rfl

/-- Nothing is recorded yet of the frames to come. -/
theorem not_mem_later (h : Recorded dots ppu.beam) {frame : Nat} (hLater : ppu.beam.frame < frame) :
    frame ∉ shortFrames dots ∧ dotsOf frame dots = 0 := by
  have hNever : ∀ dot ∈ dots, dot.beam.frame ≠ frame := by
    intro dot hMem hFrame
    rcases h.earlier dot hMem with hLess | hSame
    · omega
    · omega
  constructor
  · intro hShort
    rcases mem_shortFrames.mp hShort with ⟨dot, hMem, -, hFrame⟩
    exact hNever dot hMem hFrame
  · simpa [dotsOf, List.countP_eq_zero] using hNever

/-- A frame is short at most once: the beam does not come back to the dot where it was shortened. -/
theorem not_mem_of_skips (h : Recorded dots ppu.beam) (hSkips : ppu.skipsDot = true) :
    ppu.beam.frame ∉ shortFrames dots := by
  intro hShort
  rcases mem_shortFrames.mp hShort with ⟨dot, hMem, hDotSkips, hFrame⟩
  rw [skipsDot_eq] at hSkips hDotSkips
  have hHere := Beam.index_of_dropsDot hSkips
  have hThere := Beam.index_of_dropsDot hDotSkips
  rcases h.earlier dot hMem with hLess | hSame
  · omega
  · omega

/-- All recorded dots stay before the beam as it moves on. -/
theorem earlier_append (h : Recorded dots ppu.beam) {beam : Beam}
    (hLater : ppu.beam.frame < beam.frame ∨
      ppu.beam.frame = beam.frame ∧ ppu.beam.index < beam.index) :
    ∀ dot ∈ dots ++ [ppu], dot.beam.frame < beam.frame ∨
      dot.beam.frame = beam.frame ∧ dot.beam.index < beam.index := by
  intro dot hMem
  rcases List.mem_append.mp hMem with hOld | hNew
  · have hBefore := h.earlier dot hOld
    omega
  · rw [List.mem_singleton.mp hNew]
    exact hLater

/-- A skipping dot moves the beam by two places: its own, and that of the dot that is missing. -/
theorem tick_of_skips (h : Recorded dots ppu.beam) (hSkips : ppu.skipsDot = true)
    (hIndex : ppu.beam.index = 339) (hNext : ppu.tick.beam.index = 341)
    (hFrame : ppu.tick.beam.frame = ppu.beam.frame) (hValid : ppu.tick.beam.Valid) :
    Recorded (dots ++ [ppu]) ppu.tick.beam := by
  have hShort := shortFrames_append_of_skips dots hSkips
  have hNew := h.not_mem_of_skips hSkips
  have hCurrent := h.current
  have hTotal := h.total
  have hMissing : missing ppu.beam.frame dots = 0 := if_neg hNew
  refine ⟨hValid, ?_, ?_, ?_, ?_⟩
  · exact h.earlier_append (.inr (by omega))
  · intro frame hLess
    have hOther : ¬ppu.beam.frame = frame := by omega
    have hDone := h.completed frame (by omega)
    rw [dotsOf_append, missing, hShort, if_neg hOther]
    simpa [missing, Ne.symm hOther] using hDone
  · rw [hFrame, dotsOf_append, missing, hShort]
    simp
    omega
  · -- One dot and one short frame more account for the two places that the beam moves.
    rw [hShort, List.length_append, Finset.card_insert_of_notMem hNew, hFrame]
    simp
    omega

/-- When the beam moves on within its frame, the account grows by one dot. -/
theorem tick_of_keeps (h : Recorded dots ppu.beam) (hKeeps : ppu.skipsDot = false)
    (hNext : ppu.tick.beam.index = ppu.beam.index + 1)
    (hFrame : ppu.tick.beam.frame = ppu.beam.frame) (hValid : ppu.tick.beam.Valid) :
    Recorded (dots ++ [ppu]) ppu.tick.beam := by
  have hShort := shortFrames_append_of_keeps dots hKeeps
  have hCurrent := h.current
  have hTotal := h.total
  refine ⟨hValid, ?_, ?_, ?_, ?_⟩
  · exact h.earlier_append (.inr (by omega))
  · intro frame hLess
    have hOther : ¬ppu.beam.frame = frame := by omega
    have hDone := h.completed frame (by omega)
    rw [dotsOf_append, missing, hShort, if_neg hOther]
    exact hDone
  · -- The current frame has one dot more, and the index has moved on by one.
    rw [hFrame, dotsOf_append, missing, hShort, if_pos rfl]
    simp only [missing] at hCurrent
    omega
  · rw [hShort, List.length_append, hFrame]
    simp
    omega

/-- When the beam comes to a new frame, the account of the old one is complete. -/
theorem tick_of_wrap (h : Recorded dots ppu.beam) (hKeeps : ppu.skipsDot = false)
    (hLast : ppu.beam.index + 1 = Clock.dotsPerFrame) (hNext : ppu.tick.beam.index = 0)
    (hFrame : ppu.tick.beam.frame = ppu.beam.frame + 1) (hValid : ppu.tick.beam.Valid) :
    Recorded (dots ++ [ppu]) ppu.tick.beam := by
  have hShort := shortFrames_append_of_keeps dots hKeeps
  have hCurrent := h.current
  have hTotal := h.total
  refine ⟨hValid, ?_, ?_, ?_, ?_⟩
  · exact h.earlier_append (.inl (by omega))
  · intro frame hLess
    rw [dotsOf_append, missing, hShort]
    by_cases hHere : ppu.beam.frame = frame
    · -- The frame that has just been completed.
      rw [if_pos hHere, ← hHere]
      simp only [missing] at hCurrent
      omega
    · rw [if_neg hHere]
      exact h.completed frame (by omega)
  · -- The next frame has no dots yet, and none of them was left out.
    have hAhead : ppu.beam.frame < ppu.tick.beam.frame := by omega
    have hLater := h.not_mem_later hAhead
    have hOther : ¬ppu.beam.frame = ppu.tick.beam.frame := by omega
    rw [dotsOf_append, missing, hShort, if_neg hLater.1, if_neg hOther, hLater.2, hNext]
  · rw [hShort, List.length_append, hFrame, hNext, Nat.succ_mul]
    simp
    omega

/-- The passing of a dot keeps the account. -/
theorem tick (h : Recorded dots ppu.beam) : Recorded (dots ++ [ppu]) ppu.tick.beam := by
  have hValid := tick_valid h.valid
  have hCases := Beam.advance_cases h.valid (ppu.shortOddFrames && ppu.latches.mask.rendering)
  rw [← skipsDot_eq, ← tick_beam] at hCases
  rcases hCases with ⟨hSkips, hIndex, hNext, hFrame⟩ | ⟨hKeeps, -, hNext, hFrame⟩ |
    ⟨hKeeps, hLast, hNext, hFrame⟩
  · exact h.tick_of_skips hSkips hIndex hNext hFrame hValid
  · exact h.tick_of_keeps hKeeps hNext hFrame hValid
  · exact h.tick_of_wrap hKeeps hLast hNext hFrame hValid

/-- So does the passing of any number of dots. -/
theorem ticks (h : Recorded dots ppu.beam) (n : Nat) :
    Recorded (dots ++ ppu.dots n) (ppu.ticks n).beam := by
  induction n generalizing dots ppu with
  | zero => simpa [Ppu.dots, Ppu.ticks] using h
  | succ n ih => simpa [Ppu.dots, Ppu.ticks] using ih h.tick

end Recorded

end Ppu

end NesMachine
