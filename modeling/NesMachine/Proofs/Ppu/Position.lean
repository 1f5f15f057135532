import Mathlib.Tactic.Ring
import NesMachine.Ppu.Beam

/-!
# Positions in a frame

The beam counts lines, dots and frames. `Beam.index` is the one number behind lines and dots: how many
dots of the frame lie before the current one.

* `Beam.Valid`: the ranges of lines and dots.
* `Beam.advance_cases`: all that the passing of a dot can do to the position.
* `Beam.position_advance`: it moves the beam on.
* `Beam.dropPlaces_advance`: it drops a dot at most once in a frame.
-/

namespace NesMachine

namespace Beam

/-- The beam is on a line of the frame and on a dot of the line. -/
structure Valid (beam : Beam) : Prop where
  first_le_scanline : preRenderLine ≤ beam.scanline
  scanline_le_last : beam.scanline ≤ lastLine
  dot_lt : beam.dot < Clock.dotsPerScanline

/-- The dots of the frame that lie before the current one. -/
def index (beam : Beam) : Nat :=
  (beam.scanline - preRenderLine).toNat * Clock.dotsPerScanline + beam.dot

/-- The dots of all frames that lie before the current one, where every frame counts as a full one. -/
def position (beam : Beam) : Nat :=
  beam.frame * Clock.dotsPerFrame + beam.index

theorem valid_default : ({} : Beam).Valid :=
  ⟨by decide, by decide, by decide⟩

/-- A position in the frame is less than its number of dots. -/
theorem index_lt {beam : Beam} (h : beam.Valid) : beam.index < Clock.dotsPerFrame := by
  have hFirst := h.first_le_scanline
  have hLast := h.scanline_le_last
  have hDot := h.dot_lt
  simp only [preRenderLine, lastLine, Clock.scanlinesPerFrame, Clock.dotsPerScanline] at hFirst hLast hDot
  simp only [index, preRenderLine, Clock.dotsPerFrame, Clock.scanlinesPerFrame, Clock.dotsPerScanline]
  omega

/-- The lines before the current one count in full. -/
theorem index_eq {beam : Beam} (h : beam.Valid) :
    (beam.index : Int) = (beam.scanline + 1) * 341 + beam.dot := by
  have hFirst : -1 ≤ beam.scanline := h.first_le_scanline
  simp only [index, preRenderLine, Clock.dotsPerScanline]
  omega

/-- The index tells the line and the dot. -/
theorem index_eq_iff {beam : Beam} (h : beam.Valid) {line dot : Nat}
    (hDot : dot < Clock.dotsPerScanline) :
    beam.index = line * Clock.dotsPerScanline + dot ↔
      beam.scanline = preRenderLine + line ∧ beam.dot = dot := by
  have hFirst := h.first_le_scanline
  have hInLine := h.dot_lt
  simp only [preRenderLine, Clock.dotsPerScanline] at hFirst hInLine hDot
  simp only [index, preRenderLine, Clock.dotsPerScanline]
  omega

/-- A dot is dropped at the end of the line before the picture, in odd frames. -/
theorem dropsDot_iff {beam : Beam} {mayDrop : Bool} : beam.dropsDot mayDrop = true ↔
    mayDrop = true ∧ beam.scanline = preRenderLine ∧ beam.dot = 339 ∧ beam.frame % 2 = 1 := by
  simp [dropsDot, Clock.dotsPerScanline]
  tauto

/-- The only line that drops a dot is the one before the picture. -/
theorem scanline_of_dropsDot {beam : Beam} {mayDrop : Bool} (h : beam.dropsDot mayDrop = true) :
    beam.scanline = preRenderLine :=
  (dropsDot_iff.mp h).2.1

/-- The only place where a dot is dropped is the last but one of that line. -/
theorem index_of_dropsDot {beam : Beam} {mayDrop : Bool} (h : beam.dropsDot mayDrop = true) :
    beam.index = 339 := by
  rcases dropsDot_iff.mp h with ⟨-, hLine, hDot, -⟩
  simp [index, hLine, hDot]

theorem preRenderLine_le_lastLine : preRenderLine ≤ lastLine := by
  decide

theorem nextLine_of_lt {beam : Beam} (h : beam.scanline < lastLine) :
    beam.nextLine = { beam with scanline := beam.scanline + 1, dot := 0 } :=
  if_pos h

theorem nextLine_of_last {beam : Beam} (h : ¬beam.scanline < lastLine) :
    beam.nextLine = { scanline := preRenderLine, dot := 0, frame := beam.frame + 1 } :=
  if_neg h

/-- The next line of a frame is on the frame. -/
theorem nextLine_valid {beam : Beam} (h : beam.Valid) : beam.nextLine.Valid := by
  by_cases hLine : beam.scanline < lastLine
  · rw [nextLine_of_lt hLine]
    exact ⟨Int.le_add_one h.first_le_scanline, hLine, Nat.succ_pos 340⟩
  · rw [nextLine_of_last hLine]
    exact ⟨Int.le_refl _, preRenderLine_le_lastLine, Nat.succ_pos 340⟩

theorem advance_of_stay {beam : Beam} {mayDrop : Bool}
    (hDot : beam.dot + 1 < Clock.dotsPerScanline) (hDrop : beam.dropsDot mayDrop = false) :
    beam.advance mayDrop = { beam with dot := beam.dot + 1 } :=
  if_pos (by simp [hDot, hDrop])

theorem advance_of_end {beam : Beam} {mayDrop : Bool}
    (h : ¬beam.dot + 1 < Clock.dotsPerScanline ∨ beam.dropsDot mayDrop = true) :
    beam.advance mayDrop = beam.nextLine := by
  refine if_neg ?_
  rcases h with hDot | hDrop
  · simp [hDot]
  · simp [hDrop]

/-- The beam stays within the frame as it moves on. -/
theorem advance_valid {beam : Beam} (h : beam.Valid) (mayDrop : Bool) :
    (beam.advance mayDrop).Valid := by
  by_cases hDot : beam.dot + 1 < Clock.dotsPerScanline
  · by_cases hDrop : beam.dropsDot mayDrop = true
    · rw [advance_of_end (.inr hDrop)]
      exact nextLine_valid h
    · rw [advance_of_stay hDot (by simpa using hDrop)]
      exact ⟨h.first_le_scanline, h.scanline_le_last, hDot⟩
  · rw [advance_of_end (.inl hDot)]
    exact nextLine_valid h

/-- The passing of a dot moves the beam on by one dot, by two if one is dropped, or to the next
frame. -/
theorem advance_cases {beam : Beam} (h : beam.Valid) (mayDrop : Bool) :
    (beam.dropsDot mayDrop = true ∧ beam.index = 339 ∧
      (beam.advance mayDrop).index = 341 ∧ (beam.advance mayDrop).frame = beam.frame) ∨
    (beam.dropsDot mayDrop = false ∧ beam.index + 1 < Clock.dotsPerFrame ∧
      (beam.advance mayDrop).index = beam.index + 1 ∧
      (beam.advance mayDrop).frame = beam.frame) ∨
    (beam.dropsDot mayDrop = false ∧ beam.index + 1 = Clock.dotsPerFrame ∧
      (beam.advance mayDrop).index = 0 ∧ (beam.advance mayDrop).frame = beam.frame + 1) := by
  by_cases hDrop : beam.dropsDot mayDrop = true
  · -- A dropped dot ends the first line early, and that line is not the last.
    have hIndex := index_of_dropsDot hDrop
    have hLine := scanline_of_dropsDot hDrop
    have hNext : beam.scanline < lastLine := by
      rw [hLine]
      decide
    refine .inl ⟨hDrop, hIndex, ?_, ?_⟩
    · rw [advance_of_end (.inr hDrop), nextLine_of_lt hNext]
      simp [index, hLine, Clock.dotsPerScanline]
    · rw [advance_of_end (.inr hDrop), nextLine_of_lt hNext]
  · have hKeep : beam.dropsDot mayDrop = false := by simpa using hDrop
    have hFirst : -1 ≤ beam.scanline := h.first_le_scanline
    by_cases hDot : beam.dot + 1 < Clock.dotsPerScanline
    · have hIndex : (beam.advance mayDrop).index = beam.index + 1 := by
        rw [advance_of_stay hDot hKeep]
        exact (Nat.add_assoc _ _ _).symm
      have hLt := index_lt (advance_valid h mayDrop)
      rw [hIndex] at hLt
      exact .inr (.inl ⟨hKeep, hLt, hIndex, by rw [advance_of_stay hDot hKeep]⟩)
    · -- The last dot of a line leads to the next line, or to the next frame.
      have hLastDot : beam.dot = 340 := by
        have hIn := h.dot_lt
        simp only [Clock.dotsPerScanline] at hIn hDot
        omega
      by_cases hLine : beam.scanline < lastLine
      · have hIndex : (beam.advance mayDrop).index = beam.index + 1 := by
          rw [advance_of_end (.inl hDot), nextLine_of_lt hLine]
          simp only [index, preRenderLine, Clock.dotsPerScanline, hLastDot]
          omega
        have hLt := index_lt (advance_valid h mayDrop)
        rw [hIndex] at hLt
        refine .inr (.inl ⟨hKeep, hLt, hIndex, ?_⟩)
        rw [advance_of_end (.inl hDot), nextLine_of_lt hLine]
      · have hLast : beam.scanline = lastLine := Int.le_antisymm h.scanline_le_last (Int.not_lt.mp hLine)
        refine .inr (.inr ⟨hKeep, ?_, ?_, ?_⟩)
        · simp [index, hLast, hLastDot, lastLine, preRenderLine, Clock.scanlinesPerFrame,
            Clock.dotsPerScanline, Clock.dotsPerFrame]
        · rw [advance_of_end (.inl hDot), nextLine_of_last hLine]
          simp [index]
        · rw [advance_of_end (.inl hDot), nextLine_of_last hLine]

/-- The passing of a dot moves the beam on by its place, and past that of a dropped dot. -/
theorem position_advance {beam : Beam} (h : beam.Valid) (mayDrop : Bool) :
    (beam.advance mayDrop).position = beam.position + 1 + (beam.dropsDot mayDrop).toNat := by
  rw [position, position]
  rcases advance_cases h mayDrop with ⟨hDrop, hIndex, hNext, hFrame⟩ | ⟨hKeep, -, hNext, hFrame⟩ |
    ⟨hKeep, hLast, hNext, hFrame⟩
  · simp [hDrop, hIndex, hNext, hFrame]
  · simp [hKeep, hNext, hFrame]
    omega
  · simp [hKeep, hNext, hFrame, Nat.succ_mul]
    omega

/-- The frames in which the beam is past the place where a dot may be dropped. -/
def dropPlaces (beam : Beam) : Nat :=
  beam.frame + if 339 < beam.index then 1 else 0

/-- Each frame has one such place, and the beam leaves it behind when the dot is dropped. -/
theorem dropPlaces_advance {beam : Beam} (h : beam.Valid) (mayDrop : Bool) :
    beam.dropPlaces + (beam.dropsDot mayDrop).toNat ≤ (beam.advance mayDrop).dropPlaces := by
  rw [dropPlaces, dropPlaces]
  rcases advance_cases h mayDrop with ⟨hDrop, hIndex, hNext, hFrame⟩ | ⟨hKeep, -, hNext, hFrame⟩ |
    ⟨hKeep, hLast, hNext, hFrame⟩
  · simp [hDrop, hIndex, hNext, hFrame]
  · simp [hKeep, hNext, hFrame]
    split_ifs <;> omega
  · have hPlace : (if 339 < beam.index then 1 else 0) ≤ 1 := by
      split_ifs <;> omega
    simpa [hKeep, hNext, hFrame] using hPlace

/-- The count of frames grows by one at most. -/
theorem frame_advance (beam : Beam) (mayDrop : Bool) :
    beam.frame ≤ (beam.advance mayDrop).frame ∧ (beam.advance mayDrop).frame ≤ beam.frame + 1 := by
  rw [advance]
  split
  · exact ⟨Nat.le_refl _, Nat.le_succ _⟩
  · rw [nextLine]
    split
    · exact ⟨Nat.le_refl _, Nat.le_succ _⟩
    · exact ⟨Nat.le_succ _, Nat.le_refl _⟩

end Beam

end NesMachine
