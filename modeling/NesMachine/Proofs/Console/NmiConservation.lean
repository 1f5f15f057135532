import Mathlib.Algebra.BigOperators.Intervals
import NesMachine.Proofs.Console.Build
import NesMachine.Proofs.Console.Steps
import NesMachine.Proofs.Ppu.VerticalBlank
import NesMachine.Proofs.Ram

/-!
# Conservation of NMI edges

An NMI edge waits in a latch of the picture unit until the end of the step, and then in a latch of the
processor until the next entry. Both latches hold one edge. None is lost, because edges are rare: when
one is made, the next start of the vertical blank is farther away than the longest sprite transfer, and
within a step the enabling bit cannot rise twice.

* `Machine.nmiEdges`, `Machine.nmiEntries`: what a step makes and what it uses up.
* `Machine.NmiInvariant`: the latches between steps, with the distance that keeps a latched edge alone.
* `Machine.nmi_edges_are_conserved`: the count over a run.
-/

namespace NesMachine

namespace Machine

def observeAll (machine : Machine) (observers : Observers) : Machine :=
  observers.foldl (fun machine entry => (machine.observe entry.1 entry.2).2) machine

/-- The NMI edges of the next step. -/
def nmiEdges (machine : Machine) : Nat :=
  machine.accessEdges + Ppu.dotEdges machine.stepDots

def nmiEntries (machine : Machine) : Nat :=
  if !machine.dma.isActive && machine.cpu.activity = .entry .nmi then 1 else 0

/-! ## The invariant -/

/-- The state of the NMI between steps. A latched edge outlasts a transfer without company. -/
structure NmiInvariant (machine : Machine) : Prop where
  valid : machine.ppu.beam.Valid
  flag : machine.ppu.FlagInWindow
  released : machine.ppu.nmiLatched = false
  settled : machine.bus.signals = []
  distant : machine.cpu.nmiLatched = true →
    Clock.dotsFor machine.dma.remaining ≤ machine.ppu.beam.lead

/-- An entry takes the edge off the processor's latch. -/
theorem nmiEntries_add (machine : Machine) :
    machine.nmiEntries + machine.stepProcessor.2.cpu.nmiLatched.toNat =
      machine.cpu.nmiLatched.toNat := by
  cases hActive : machine.dma.isActive with
  | true =>
    rw [stepProcessor_of_active hActive]
    simp [nmiEntries, hActive]
  | false =>
    have hNext := Cpu.nmiLatched_of_makes (machine.cpu.makes_accessesOn machine.bus)
    rw [stepProcessor_of_idle hActive]
    cases hLatched : machine.cpu.nmiLatched with
    | true =>
      have hEntry := (Cpu.activity_eq_nmi_iff machine.cpu).mpr hLatched
      simp [nmiEntries, hActive, hEntry, hNext]
    | false =>
      have hOther : ¬machine.cpu.activity = .entry .nmi := by
        rw [Cpu.activity_eq_nmi_iff, hLatched]
        decide
      simp [nmiEntries, hActive, hOther, hNext]

section Step

variable {machine : Machine}

/-- The edges of a step together with the one that is still latched. -/
def waiting (machine : Machine) : Nat :=
  machine.nmiEdges + machine.stepProcessor.2.cpu.nmiLatched.toNat

/-- At most one of the given edges is on its way after the step, and no other comes up before a transfer
that is then active has ended. -/
def Alone (machine : Machine) (edges : Nat) : Prop :=
  edges ≤ 1 ∧ (0 < edges →
    Clock.dotsFor machine.step.2.dma.remaining ≤ machine.step.2.ppu.beam.lead)

/-- A step lasts at most eight cycles, which are 24 dots. -/
theorem step_dots_le (machine : Machine) : Clock.dotsFor machine.step.1 ≤ 24 :=
  Nat.mul_le_mul_right 3 machine.step_le

/-- What is left of a transfer lasts 1542 dots at most, which are less than five lines. -/
theorem remaining_dots_le (machine : Machine) :
    Clock.dotsFor machine.step.2.dma.remaining ≤ 1542 :=
  Nat.mul_le_mul_right 3 machine.step.2.dma.remaining_le

namespace NmiInvariant

/-- No processor step moves the beam, so it stays within the frame. -/
theorem stepProcessor_valid (h : machine.NmiInvariant) :
    machine.stepProcessor.2.ppu.beam.Valid := by
  rw [machine.stepProcessor_accessed.beam]
  exact h.valid

/-- The dots of a step make no edge while the vertical blank is far enough. -/
theorem quiet_of_le_lead (h : machine.NmiInvariant)
    (hFar : Clock.dotsFor machine.step.1 ≤ machine.ppu.beam.lead) :
    Ppu.dotEdges machine.stepDots = 0 ∧
      machine.ppu.beam.lead ≤ machine.step.2.ppu.beam.lead + Clock.dotsFor machine.step.1 := by
  have hBeam := machine.stepProcessor_accessed.beam
  rw [← hBeam] at hFar ⊢
  rw [step_beam]
  exact Ppu.dotEdges_eq_zero h.stepProcessor_valid hFar

/-- The dots of a step make one edge at most. -/
theorem dotEdges_alone (h : machine.NmiInvariant) :
    machine.Alone (Ppu.dotEdges machine.stepDots) := by
  -- A step and the longest transfer together are far shorter than a frame.
  have hDots := machine.step_dots_le
  have hRemaining := machine.remaining_dots_le
  have hFull : Beam.fullLead = 89340 := rfl
  have hShort : Clock.dotsFor machine.step.1 ≤ Beam.fullLead := by omega
  rcases Ppu.dotEdges_le_one h.stepProcessor_valid hShort with ⟨hOne, hFar⟩
  refine ⟨hOne, ?_⟩
  intro hSome
  have hLead := hFar hSome
  rw [step_beam]
  omega

/-- A step of a transfer lets a latched edge wait. -/
theorem waiting_of_active (h : machine.NmiInvariant) (hActive : machine.dma.isActive = true) :
    machine.Alone machine.waiting := by
  have hCpu : machine.stepProcessor.2.cpu = machine.cpu := by rw [stepProcessor_of_active hActive]
  have hSum : machine.waiting =
      Ppu.dotEdges machine.stepDots + machine.cpu.nmiLatched.toNat := by
    rw [waiting, nmiEdges, accessEdges_of_active hActive, hCpu, Nat.zero_add]
  cases hLatched : machine.cpu.nmiLatched with
  | false =>
    have hDots := h.dotEdges_alone
    simpa [hSum, hLatched] using hDots
  | true =>
    -- The invariant left room for the whole transfer, and the step uses up its share of it.
    have hDistant : machine.dma.remaining * 3 ≤ machine.ppu.beam.lead := h.distant hLatched
    have hTime := machine.dma.step_remaining machine.bus.cycles
    have hDma := step_dma_of_active hActive h.settled
    have hCycles : machine.step.1 = (machine.dma.step machine.bus.cycles).cycles :=
      congrArg Prod.fst (stepProcessor_of_active hActive)
    have hDots : Clock.dotsFor machine.step.1 = machine.step.1 * 3 := rfl
    have hNext : Clock.dotsFor machine.step.2.dma.remaining = machine.step.2.dma.remaining * 3 := rfl
    have hFar : Clock.dotsFor machine.step.1 ≤ machine.ppu.beam.lead := by omega
    rcases h.quiet_of_le_lead hFar with ⟨hNone, hLead⟩
    constructor
    · simp [hSum, hLatched, hNone]
    · intro _
      rw [hNext, hDma]
      omega

/-- A step of the processor takes the latched edge, and makes one edge at most: either by an access,
while the vertical blank flag is set, or by a dot. -/
theorem waiting_of_idle (h : machine.NmiInvariant) (hActive : machine.dma.isActive = false) :
    machine.Alone machine.waiting := by
  have hTaken : machine.stepProcessor.2.cpu.nmiLatched = false := by
    rw [stepProcessor_of_idle hActive]
    exact Cpu.nmiLatched_of_makes (machine.cpu.makes_accessesOn machine.bus)
  have hSum : machine.waiting = machine.accessEdges + Ppu.dotEdges machine.stepDots := by
    rw [waiting, nmiEdges, hTaken]
    rfl
  rcases Nat.eq_zero_or_pos machine.accessEdges with hNone | hSome
  · have hDots := h.dotEdges_alone
    simpa [hSum, hNone] using hDots
  · -- The flag puts the beam almost a frame before the next start.
    have hFlag := machine.stepProcessor_accessed.flagged hSome
    have hBlank := Beam.le_lead_of_inVblank h.valid (h.flag hFlag)
    have hStart : Beam.vblankIndex = 82523 := rfl
    have hDots := machine.step_dots_le
    have hFar : Clock.dotsFor machine.step.1 ≤ machine.ppu.beam.lead := by omega
    rcases h.quiet_of_le_lead hFar with ⟨hNone, hLead⟩
    have hOne := machine.accessEdges_le_one
    have hRemaining := machine.remaining_dots_le
    constructor
    · omega
    · intro _
      omega

/-- At most one edge is on its way after a step. -/
theorem waiting_alone (h : machine.NmiInvariant) : machine.Alone machine.waiting := by
  cases hActive : machine.dma.isActive with
  | true => exact h.waiting_of_active hActive
  | false => exact h.waiting_of_idle hActive

/-- What is on its way ends in the latch of the processor. -/
theorem step_nmiLatched_eq (h : machine.NmiInvariant) :
    machine.step.2.cpu.nmiLatched = decide (0 < machine.waiting) := by
  have hAccess := machine.stepProcessor_accessed.nmiLatched
  rw [h.released, Bool.false_or] at hAccess
  rw [step_nmiLatched, Ppu.ticks_nmiLatched, hAccess, waiting, nmiEdges, stepDots]
  cases machine.stepProcessor.2.cpu.nmiLatched with
  | true => simp
  | false => simp [Bool.decide_or]

/-- Every step keeps the invariant: an edge that it leaves latched is the only one on its way. -/
theorem step (h : machine.NmiInvariant) : machine.step.2.NmiInvariant where
  valid := by
    rw [step_beam]
    exact Ppu.ticks_valid h.stepProcessor_valid _
  flag := by
    -- The processor can only clear the flag, and leaves the beam alone; then the dots pass.
    have hBefore : machine.stepProcessor.2.ppu.FlagInWindow := by
      intro hFlag
      rw [machine.stepProcessor_accessed.beam]
      exact h.flag (machine.stepProcessor_accessed.vblank hFlag)
    have hAfter := hBefore.ticks h.stepProcessor_valid (Clock.dotsFor machine.step.1)
    rw [step_ppu]
    exact hAfter
  released := by rw [step_ppu]
  settled := machine.step_signals
  distant := by
    intro hLatched
    rw [h.step_nmiLatched_eq] at hLatched
    exact h.waiting_alone.2 (of_decide_eq_true hLatched)

/-- A step conserves the edges: those it makes are entered, or latched, or were. -/
theorem step_conserves (h : machine.NmiInvariant) :
    machine.nmiEdges + machine.cpu.nmiLatched.toNat =
      machine.nmiEntries + machine.step.2.cpu.nmiLatched.toNat := by
  have hEntries := machine.nmiEntries_add
  have hOne := h.waiting_alone.1
  have hWaiting : machine.waiting =
      machine.nmiEdges + machine.stepProcessor.2.cpu.nmiLatched.toNat := rfl
  have hLatched : machine.step.2.cpu.nmiLatched.toNat = machine.waiting := by
    rw [h.step_nmiLatched_eq]
    rcases Nat.eq_zero_or_pos machine.waiting with hNone | hSome
    · simp [hNone]
    · have hExactly : machine.waiting = 1 := by omega
      simp [hExactly]
  omega

/-! ## Runs -/

/-- A reset leaves no edge behind. -/
theorem reset (machine : Machine) (kind : Reset) :
    (machine.reset kind).NmiInvariant where
  valid := Beam.valid_default
  flag := fun _ => .inl (by decide : ({} : Beam).index ≤ 1)
  released := rfl
  settled := rfl
  distant := by
    intro hLatched
    cases hLatched

/-- Observers have no part in this before they see a byte. -/
theorem observeAll (h : machine.NmiInvariant) (observers : Observers) :
    (machine.observeAll observers).NmiInvariant := by
  induction observers generalizing machine with
  | nil => exact h
  | cons entry rest ih => exact ih ⟨h.valid, h.flag, h.released, h.settled, h.distant⟩

/-- The invariant holds throughout a run. -/
theorem after (h : machine.NmiInvariant) (n : Nat) : (machine.after n).NmiInvariant := by
  induction n with
  | zero => exact h
  | succ n ih => exact ih.step

/-- A run conserves the edges. -/
theorem after_conserves (h : machine.NmiInvariant) (n : Nat) :
    ∑ i ∈ Finset.range n, (machine.after i).nmiEdges + machine.cpu.nmiLatched.toNat =
      ∑ i ∈ Finset.range n, (machine.after i).nmiEntries +
        (machine.after n).cpu.nmiLatched.toNat := by
  induction n with
  | zero => rfl
  | succ n ih =>
    have hStep := (h.after n).step_conserves
    have hNext : machine.after (n + 1) = (machine.after n).step.2 := rfl
    rw [Finset.sum_range_succ, Finset.sum_range_succ, hNext]
    omega

end NmiInvariant

end Step

/-- Observers are put at their addresses behind the processor's back. -/
theorem observeAll_cpu (machine : Machine) (observers : Observers) :
    (machine.observeAll observers).cpu = machine.cpu := by
  induction observers generalizing machine with
  | nil => rfl
  | cons entry rest ih => exact ih (machine.observe entry.1 entry.2).2

/-- **NMI edges are conserved.** However a freshly built machine is observed and for however many steps
it runs, the NMI edges so far are the NMI entries so far and the one that the processor has latched, and
the picture unit keeps none. -/
theorem nmi_edges_are_conserved {program patterns : List UInt8} {config : Config} {built : Machine}
    (hBuild : build program patterns config = .ok built) (observers : Observers) (n : Nat) :
    let machine := built.observeAll observers
    ∑ i ∈ Finset.range n, (machine.after i).nmiEdges =
        ∑ i ∈ Finset.range n, (machine.after i).nmiEntries +
          (machine.after n).cpu.nmiLatched.toNat ∧
      (machine.after n).ppu.nmiLatched = false := by
  intro machine
  -- A built machine has just been reset, which is where the invariant starts.
  rcases build_eq_ok_iff.mp hBuild with ⟨lower, upper, -, -, rfl⟩
  have h : machine.NmiInvariant := (NmiInvariant.reset _ .powerOn).observeAll observers
  have hUnlatched : machine.cpu.nmiLatched = false :=
    congrArg Cpu.nmiLatched (observeAll_cpu _ observers)
  have hCount := h.after_conserves n
  rw [hUnlatched] at hCount
  exact ⟨hCount, (h.after n).released⟩

/-- A program of no-operations, but for `DEC $3FF8` where the vectors lead. The address is a mirror of the control
register. -/
def decrementsControl : List UInt8 :=
  (((List.replicate 0x8000 0xEA).set 0x6AEA 0xCE).set 0x6AEB 0xF8).set 0x6AEC 0x3F

theorem build_decrementsControl : build decrementsControl [] {} = .ok (switchedOn
    ((((Ram.zero 15).split (Ram.fill 0xEA 15)).set 0xEAEA 0xCE |>.set 0xEAEB 0xF8).set 0xEAEC 0x3F)) := by
  have hLength : decrementsControl.length = 2 * MainMemory.bankSize := by
    simp only [decrementsControl, List.length_set, List.length_replicate]
    rfl
  have hNotOne : decrementsControl.length ≠ MainMemory.bankSize := by
    rw [hLength]
    decide
  have hFilled : (Ram.zero 16).setBytes 0x8000 (List.replicate 0x8000 0xEA) =
      .split (Ram.zero 15) (Ram.fill 0xEA 15) := Ram.setBytes_replicate (Ram.zero 15) (Ram.zero 15) 0xEA
  have hSet (bytes : List UInt8) (value : UInt8) (i : Nat) (hBytes : bytes.length = 0x8000)
      (hPlace : i < 0x8000) : (Ram.zero 16).setBytes 0x8000 (bytes.set i value) =
        ((Ram.zero 16).setBytes 0x8000 bytes).set (0x8000 + i) value := by
    have hFits : 0x8000 + bytes.length ≤ 2 ^ 16 := by omega
    exact Ram.setBytes_set _ _ _ _ hFits (by omega)
  refine build_eq_switchedOn ((if_neg hNotOne).trans (if_pos hLength)) ?_
  rw [List.take_append_drop, decrementsControl, hSet, hSet, hSet, hFilled] <;>
    simp only [List.length_set, List.length_replicate, Nat.reduceLT]

/-- Of the two writes of `DEC $3FF8` the second enables the NMI, while the flag of power-on still stands. The edge
is entered in the next step, and a push of the entry starts a transfer. -/
theorem nmi_edge_of_decremented_control :
    ∃ built, build decrementsControl [] {} = .ok built ∧
      let machine := built.observeAll [(0x01FD, Observer.spriteTransfer)]
      machine.nmiEdges = 1 ∧ (machine.after 1).cpu.nmiLatched = true ∧
        (machine.after 1).nmiEntries = 1 ∧ (machine.after 2).dma.isActive = true ∧
        ∑ i ∈ Finset.range 2, (machine.after i).nmiEdges =
          ∑ i ∈ Finset.range 2, (machine.after i).nmiEntries +
            (machine.after 2).cpu.nmiLatched.toNat := by
  have hConserved := nmi_edges_are_conserved build_decrementsControl [(0x01FD, Observer.spriteTransfer)] 2
  exact ⟨_, build_decrementsControl, by decide +kernel, by decide +kernel, by decide +kernel,
    by decide +kernel, hConserved.1⟩

end Machine

end NesMachine
