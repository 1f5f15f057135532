import NesMachine.Proofs.Ppu.Dots

/-!
# The vertical blank and its edges

An NMI edge comes from the dot that starts the vertical blank, or from a write that enables the NMI while
the vertical blank flag is set. The flag ties the second to the position of the beam: while it is set,
the next start is almost a frame away.

* `Beam.lead`: a lower bound on the dots before the next start, whatever is dropped on the way.
* `Beam.InVblank`, `Beam.inVblank_advance_iff`: where the vertical blank flag can be set, dot by dot.
* `Ppu.tick_vblank_iff`: what a dot does to the flag.
* `Ppu.FlagInWindow`: the flag is only set from the start of the vertical blank to the line before the picture.
* `Ppu.dotEdges_eq_zero`, `Ppu.dotEdges_le_one`: how many edges a number of dots can make.
-/

namespace NesMachine

namespace Beam

/-! ## The way to the vertical blank -/

/-- The index of the dot that starts the vertical blank. -/
def vblankIndex : Nat := 242 * Clock.dotsPerScanline + 1

theorem index_eq_vblankIndex_iff {beam : Beam} (h : beam.Valid) :
    beam.index = vblankIndex ↔ beam.scanline = vblankLine ∧ beam.dot = 1 :=
  index_eq_iff h (by decide)

theorem index_eq_one_iff {beam : Beam} (h : beam.Valid) :
    beam.index = 1 ↔ beam.scanline = preRenderLine ∧ beam.dot = 1 := by
  have hOne : beam.index = 0 * Clock.dotsPerScanline + 1 ↔
      beam.scanline = preRenderLine + (0 : Nat) ∧ beam.dot = 1 := index_eq_iff h (by decide)
  simpa using hOne

/-- As many dots at least pass before the vertical blank starts. A dot that may be dropped on the way is
not counted. -/
def lead (beam : Beam) : Nat :=
  if beam.index ≤ 339 then vblankIndex - 1 - beam.index
  else if beam.index ≤ vblankIndex then vblankIndex - beam.index
  else vblankIndex + Clock.dotsPerFrame - 1 - beam.index

-- The three stretches of a frame, in numbers.
theorem lead_cases {beam : Beam} (h : beam.Valid) :
    (beam.index ≤ 339 ∧ beam.lead + beam.index = 82522) ∨
    (339 < beam.index ∧ beam.index ≤ 82523 ∧ beam.lead + beam.index = 82523) ∨
    (82523 < beam.index ∧ beam.lead + beam.index = 171864) := by
  have hLt : beam.index < 89342 := index_lt h
  have hStart : vblankIndex = 82523 := rfl
  have hFrame : Clock.dotsPerFrame = 89342 := rfl
  rw [lead, hStart, hFrame]
  by_cases hTop : beam.index ≤ 339
  · rw [if_pos hTop]
    omega
  · rw [if_neg hTop]
    by_cases hPast : beam.index ≤ 82523
    · rw [if_pos hPast]
      omega
    · rw [if_neg hPast]
      omega

/-- No dot is left exactly at the start of the vertical blank. -/
theorem lead_eq_zero_iff {beam : Beam} (h : beam.Valid) :
    beam.lead = 0 ↔ beam.index = vblankIndex := by
  have hLt : beam.index < 89342 := index_lt h
  have hStart : vblankIndex = 82523 := rfl
  have hLead := lead_cases h
  omega

/-- One dot brings the vertical blank closer by one dot at most. -/
theorem lead_le_advance {beam : Beam} (h : beam.Valid) (mayDrop : Bool) :
    beam.lead ≤ (beam.advance mayDrop).lead + 1 := by
  -- The stretch before the dot and the one after it; they differ where the lead jumps up.
  have hLead := lead_cases h
  have hNext := lead_cases (advance_valid h mayDrop)
  have hFrame : Clock.dotsPerFrame = 89342 := rfl
  have hCases := advance_cases h mayDrop
  omega

/-- The dots from one start to the next, short of the first and of the one that may be dropped. -/
def fullLead : Nat := Clock.dotsPerFrame - 2

/-- After the start, almost a whole frame passes before the next one. -/
theorem lead_advance_of_vblank {beam : Beam} (h : beam.Valid) (hStart : beam.index = vblankIndex)
    (mayDrop : Bool) : (beam.advance mayDrop).lead = fullLead := by
  have hNext := lead_cases (advance_valid h mayDrop)
  have hFrame : Clock.dotsPerFrame = 89342 := rfl
  have hFull : fullLead = 89340 := rfl
  have hIndex : beam.index = 82523 := hStart
  have hCases := advance_cases h mayDrop
  omega

/-- Where the vertical blank flag can be set: after the vertical blank has started, until the second dot
of the line before the picture. -/
def InVblank (beam : Beam) : Prop :=
  beam.index ≤ 1 ∨ vblankIndex < beam.index

/-- The window in lines and dots. -/
theorem inVblank_iff {beam : Beam} (h : beam.Valid) : beam.InVblank ↔
    beam.scanline = 241 ∧ 2 ≤ beam.dot ∨ 242 ≤ beam.scanline ∧ beam.scanline ≤ 260 ∨
      beam.scanline = -1 ∧ beam.dot ≤ 1 := by
  have hIndex := index_eq h
  have hFirst : -1 ≤ beam.scanline := h.first_le_scanline
  have hLast : beam.scanline ≤ 260 := h.scanline_le_last
  have hDot : beam.dot < 341 := h.dot_lt
  have hStart : vblankIndex = 82523 := rfl
  rw [InVblank, hStart]
  omega

/-- The beam comes into the window at the dot that starts the vertical blank, and leaves it at the second dot
of the line before the picture. -/
theorem inVblank_advance_iff {beam : Beam} (h : beam.Valid) (mayDrop : Bool) :
    (beam.advance mayDrop).InVblank ↔ beam.InVblank ∧ beam.index ≠ 1 ∨ beam.index = vblankIndex := by
  have hStart : vblankIndex = 82523 := rfl
  have hFrame : Clock.dotsPerFrame = 89342 := rfl
  have hCases := advance_cases h mayDrop
  rw [InVblank, InVblank]
  omega

/-- Within the vertical blank the next start is far off. -/
theorem le_lead_of_inVblank {beam : Beam} (h : beam.Valid) (hBlank : beam.InVblank) :
    vblankIndex - 2 ≤ beam.lead := by
  have hLt : beam.index < 89342 := index_lt h
  have hStart : vblankIndex = 82523 := rfl
  have hLead := lead_cases h
  have hIn : beam.index ≤ 1 ∨ vblankIndex < beam.index := hBlank
  omega

end Beam

namespace Ppu

/-! ## Edges at dots -/

/-- The current dot makes an NMI edge. -/
def raisesNmi (ppu : Ppu) : Bool :=
  ppu.beam.scanline == Beam.vblankLine && ppu.beam.dot == 1 && ppu.latches.control.nmiEnabled

def dotEdges (dots : List Ppu) : Nat :=
  dots.countP raisesNmi

/-- The status latches an edge exactly when the dot raises one. -/
theorem statusEvent_nmiLatched (ppu : Ppu) :
    ppu.statusEvent.nmiLatched = (ppu.nmiLatched || ppu.raisesNmi) := by
  by_cases hDot : ppu.beam.dot = 1
  · by_cases hFirst : ppu.beam.scanline = Beam.preRenderLine
    · have hOther : Beam.preRenderLine ≠ Beam.vblankLine := by decide
      simp [statusEvent, raisesNmi, hDot, hFirst, hOther]
    · by_cases hStart : ppu.beam.scanline = Beam.vblankLine
      · have hOther : Beam.vblankLine ≠ Beam.preRenderLine := by decide
        simp [statusEvent, raisesNmi, hDot, hStart, hOther]
      · simp [statusEvent, raisesNmi, hDot, hFirst, hStart]
  · simp [statusEvent, raisesNmi, hDot]

/-- A dot adds its edge to the latch. -/
theorem tick_nmiLatched (ppu : Ppu) : ppu.tick.nmiLatched = (ppu.nmiLatched || ppu.raisesNmi) := by
  have hStatus := statusEvent_nmiLatched { ppu with openBus := ppu.openBus.tick }
  rw [tick, spriteEvent_nmiLatched]
  exact hStatus

/-- The status changes at two dots of a frame. -/
theorem tick_status (ppu : Ppu) : ppu.tick.latches.status =
    if ppu.beam.dot = 1 ∧ ppu.beam.scanline = Beam.preRenderLine then {}
    else if ppu.beam.dot = 1 ∧ ppu.beam.scanline = Beam.vblankLine then
      { ppu.latches.status with vblank := true }
    else ppu.latches.status := by
  by_cases hDot : ppu.beam.dot = 1
  · by_cases hFirst : ppu.beam.scanline = Beam.preRenderLine
    · simp [tick, statusEvent, hDot, hFirst]
    · by_cases hStart : ppu.beam.scanline = Beam.vblankLine
      · have hOther : Beam.vblankLine ≠ Beam.preRenderLine := by decide
        simp [tick, statusEvent, hDot, hStart, hOther]
      · simp [tick, statusEvent, hDot, hFirst, hStart]
  · simp [tick, statusEvent, hDot]

/-- The flag is set at the start of the vertical blank and cleared on the line before the picture. -/
theorem tick_vblank_iff {ppu : Ppu} (hValid : ppu.beam.Valid) : ppu.tick.latches.status.vblank = true ↔
    ppu.latches.status.vblank = true ∧ ppu.beam.index ≠ 1 ∨ ppu.beam.index = Beam.vblankIndex := by
  have hFirst := Beam.index_eq_one_iff hValid
  have hStart := Beam.index_eq_vblankIndex_iff hValid
  rw [tick_status]
  by_cases hCleared : ppu.beam.dot = 1 ∧ ppu.beam.scanline = Beam.preRenderLine
  · have hIndex : ppu.beam.index = 1 := hFirst.mpr hCleared.symm
    have hFar : Beam.vblankIndex ≠ 1 := by decide
    simp [hCleared, hIndex, hFar.symm]
  · have hIndex : ppu.beam.index ≠ 1 := fun h => hCleared (hFirst.mp h).symm
    by_cases hSet : ppu.beam.dot = 1 ∧ ppu.beam.scanline = Beam.vblankLine
    · simp [if_neg hCleared, if_pos hSet, hStart.mpr hSet.symm]
    · have hNot : ppu.beam.index ≠ Beam.vblankIndex := fun h => hSet (hStart.mp h).symm
      simp [if_neg hCleared, if_neg hSet, hIndex, hNot]

/-- The vertical blank flag is only set within its window. -/
def FlagInWindow (ppu : Ppu) : Prop :=
  ppu.latches.status.vblank = true → ppu.beam.InVblank

/-- A dot keeps the flag within its window. -/
theorem FlagInWindow.tick {ppu : Ppu} (h : ppu.FlagInWindow) (hValid : ppu.beam.Valid) :
    ppu.tick.FlagInWindow := by
  intro hFlag
  rw [tick_beam, Beam.inVblank_advance_iff hValid]
  -- A flag that was there before has not met the dot that clears it; otherwise it is set here.
  rcases (tick_vblank_iff hValid).mp hFlag with ⟨hKept, hNotCleared⟩ | hHere
  · exact .inl ⟨h hKept, hNotCleared⟩
  · exact .inr hHere

theorem FlagInWindow.ticks {ppu : Ppu} (h : ppu.FlagInWindow) (hValid : ppu.beam.Valid) (n : Nat) :
    (ppu.ticks n).FlagInWindow := by
  induction n generalizing ppu with
  | zero => exact h
  | succ n ih => exact ih (h.tick hValid) (tick_valid hValid)

/-! ## Edges among several dots -/

/-- Dots latch an edge if one of them makes it. -/
theorem ticks_nmiLatched (ppu : Ppu) (n : Nat) :
    (ppu.ticks n).nmiLatched = (ppu.nmiLatched || decide (0 < dotEdges (ppu.dots n))) := by
  induction n generalizing ppu with
  | zero => simp [Ppu.ticks, dots, dotEdges]
  | succ n ih =>
    have hRest := ih ppu.tick
    rw [tick_nmiLatched] at hRest
    cases hHere : ppu.raisesNmi with
    | true => simp [Ppu.ticks, hRest, dots, dotEdges, hHere]
    | false => simp [Ppu.ticks, hRest, dots, dotEdges, hHere]

/-- Short of the start no dot makes an edge. -/
theorem not_raisesNmi_of_lead_pos {ppu : Ppu} (hValid : ppu.beam.Valid) (h : 0 < ppu.beam.lead) :
    ppu.raisesNmi = false := by
  have hNotZero : ¬ppu.beam.lead = 0 := Nat.pos_iff_ne_zero.mp h
  rw [Beam.lead_eq_zero_iff hValid, Beam.index_eq_vblankIndex_iff hValid] at hNotZero
  have hNot : ¬(ppu.beam.scanline = Beam.vblankLine ∧ ppu.beam.dot = 1) := hNotZero
  simp [raisesNmi]
  tauto

/-- No edge comes before the vertical blank starts. -/
theorem dotEdges_eq_zero {ppu : Ppu} (hValid : ppu.beam.Valid) {n : Nat} (h : n ≤ ppu.beam.lead) :
    dotEdges (ppu.dots n) = 0 ∧ ppu.beam.lead ≤ (ppu.ticks n).beam.lead + n := by
  induction n generalizing ppu with
  | zero => exact ⟨rfl, Nat.le_refl _⟩
  | succ n ih =>
    have hQuiet := not_raisesNmi_of_lead_pos hValid (Nat.lt_of_lt_of_le (Nat.succ_pos n) h)
    have hLead := Beam.lead_le_advance hValid (ppu.shortOddFrames && ppu.latches.mask.rendering)
    rw [← tick_beam] at hLead
    rcases ih (tick_valid hValid) (by omega) with ⟨hNone, hRest⟩
    constructor
    · simpa [dots, dotEdges, hQuiet] using hNone
    · rw [Ppu.ticks]
      omega

/-- The dots of less than a frame make one edge at most, and after it the next is far away. -/
theorem dotEdges_le_one {ppu : Ppu} (hValid : ppu.beam.Valid) {n : Nat} (h : n ≤ Beam.fullLead) :
    dotEdges (ppu.dots n) ≤ 1 ∧
      (0 < dotEdges (ppu.dots n) → Beam.fullLead ≤ (ppu.ticks n).beam.lead + n) := by
  induction n generalizing ppu with
  | zero =>
    refine ⟨Nat.zero_le _, ?_⟩
    intro hSome
    exact absurd hSome (Nat.lt_irrefl 0)
  | succ n ih =>
    cases hHere : ppu.raisesNmi with
    | true =>
      -- The edge is here, and the dots that are left do not reach the next start.
      have hStart : ppu.beam.index = Beam.vblankIndex := by
        rw [Beam.index_eq_vblankIndex_iff hValid]
        have hAll : (ppu.beam.scanline = Beam.vblankLine ∧ ppu.beam.dot = 1) ∧
            ppu.latches.control.nmiEnabled = true := by simpa [raisesNmi] using hHere
        exact hAll.1
      have hFull : ppu.tick.beam.lead = Beam.fullLead := by
        rw [tick_beam]
        exact Beam.lead_advance_of_vblank hValid hStart _
      rcases dotEdges_eq_zero (tick_valid hValid) (n := n) (by omega) with ⟨hNone, hRest⟩
      have hOne : dotEdges (ppu.dots (n + 1)) = 1 := by
        simpa [dots, dotEdges, hHere] using hNone
      refine ⟨Nat.le_of_eq hOne, ?_⟩
      intro _
      rw [Ppu.ticks]
      omega
    | false =>
      have hSame : dotEdges (ppu.dots (n + 1)) = dotEdges (ppu.tick.dots n) := by
        simp [dots, dotEdges, hHere]
      rcases ih (tick_valid hValid) (by omega) with ⟨hOne, hRest⟩
      rw [hSame]
      refine ⟨hOne, ?_⟩
      intro hSome
      have hFar := hRest hSome
      rw [Ppu.ticks]
      omega

end Ppu

end NesMachine
