import NesMachine.Console.Machine
import NesMachine.Proofs.Console.Accesses
import NesMachine.Proofs.Ppu.Dots

/-!
# The steps of the machine

A step lets the processor or the transfer engine act, takes up the signals, and then lets the picture
unit process the dots of that time. This module says what each of the three parts does to the cycle
counter, the beam and the latches, so that the modules after it need not open `Machine.step`.

* `Machine.stepProcessor_cycles`, `Machine.stepProcessor_accessed`: the processor's or the engine's part.
* `Machine.catchUp_nmiLatched`: the picture unit's part.
* `Machine.stepDots`: the dots of a step.
* `Machine.step_ppu`, `Machine.step_cycles`: the step as a whole.
* `Machine.step_of_active`: a step of a transfer.
-/

namespace NesMachine

/-! ## The transfer engine -/

namespace SpriteTransfer

/-- The cycles that a transfer still takes at most. -/
def remaining (dma : SpriteTransfer) : Nat :=
  match dma.state with
  | .idle => 0
  | .aligning => 514
  | .copying offset => 2 * (0x100 - offset.toNat)

/-- No transfer takes more than 514 cycles. -/
theorem remaining_le (dma : SpriteTransfer) : dma.remaining ≤ 514 := by
  rw [remaining]
  split
  · decide
  · decide
  · omega

/-- Each step of a transfer uses up its time. -/
theorem step_remaining (dma : SpriteTransfer) (now : Nat) :
    (dma.step now).cycles + (dma.step now).next.remaining ≤ dma.remaining := by
  rcases dma with ⟨state, page⟩
  cases state with
  | idle => exact Nat.le_refl _
  | aligning =>
    -- One cycle or two, and then 256 copies of two.
    have hParity : now % 2 < 2 := Nat.mod_lt _ (by decide)
    have hRest : 1 + now % 2 + 512 ≤ 514 := by omega
    exact hRest
  | copying offset =>
    have hOffset := offset.toNat_lt
    by_cases hLast : offset = 0xFF
    · simp [step, remaining, hLast]
    · -- Before the last byte the offset does not wrap.
      have hNe : offset.toNat ≠ 255 := fun h => hLast (UInt8.toNat_inj.mp h)
      have hNext : (offset + 1).toNat = offset.toNat + 1 := by
        rw [UInt8.toNat_add]
        simp
        omega
      simp [step, remaining, hLast, hNext]
      omega

/-- No step of a transfer takes more than two cycles. -/
theorem step_cycles_le (dma : SpriteTransfer) (now : Nat) : (dma.step now).cycles ≤ 2 := by
  rcases dma with ⟨state, page⟩
  cases state with
  | idle => exact Nat.zero_le _
  | aligning =>
    have hParity : 1 + now % 2 ≤ 2 := by omega
    exact hParity
  | copying offset => exact Nat.le_refl _

end SpriteTransfer

namespace SystemBus

def copied (bus : SystemBus) : Option SpriteTransfer.Copy → SystemBus
  | some copy => bus.copySprite copy
  | none => bus

/-- Copying a byte makes no NMI edge. -/
theorem copied_accessed (bus : SystemBus) (copy : Option SpriteTransfer.Copy) :
    Ppu.Accessed 0 bus.ppu (bus.copied copy).ppu := by
  cases copy with
  | none => exact .refl _
  | some copy => exact bus.copySprite_accessed copy

theorem copied_control (bus : SystemBus) (copy : Option SpriteTransfer.Copy) :
    (bus.copied copy).ppu.latches.control = bus.ppu.latches.control := by
  cases copy with
  | none => rfl
  | some copy => exact bus.memory.read_control copy.source bus.ppu

/-- A copy takes no time on the bus; the engine accounts for it. -/
theorem copied_cycles (bus : SystemBus) (copy : Option SpriteTransfer.Copy) :
    (bus.copied copy).cycles = bus.cycles := by
  cases copy with
  | none => rfl
  | some copy => rfl

/-- A copy changes no byte of main memory. -/
theorem copied_memory (bus : SystemBus) (copy : Option SpriteTransfer.Copy) :
    (bus.copied copy).memory = bus.memory := by
  cases copy with
  | none => rfl
  | some copy => rfl

theorem copied_signals (bus : SystemBus) (copy : Option SpriteTransfer.Copy) :
    (bus.copied copy).signals = bus.signals := by
  cases copy with
  | none => rfl
  | some copy => rfl

end SystemBus

namespace Machine

/-! ## The processor's part -/

section Processor

variable {machine : Machine}

/-- While a transfer is active, the engine makes the step and the processor waits. -/
theorem stepProcessor_of_active (h : machine.dma.isActive = true) :
    machine.stepProcessor =
      ((machine.dma.step machine.bus.cycles).cycles,
        { machine with
          dma := (machine.dma.step machine.bus.cycles).next
          bus :=
            { machine.bus.copied (machine.dma.step machine.bus.cycles).copy with
              cycles := (machine.bus.copied (machine.dma.step machine.bus.cycles).copy).cycles +
                (machine.dma.step machine.bus.cycles).cycles } }) := by
  rw [stepProcessor, if_pos h]
  cases hCopy : (machine.dma.step machine.bus.cycles).copy <;> simp [hCopy, SystemBus.copied]

/-- Otherwise the processor makes the step on the system bus. -/
theorem stepProcessor_eq_stepOn (h : machine.dma.isActive = false) :
    machine.stepProcessor =
      ((machine.cpu.stepOn machine.bus).1,
        { machine with
          cpu := (machine.cpu.stepOn machine.bus).2.1
          bus := (machine.cpu.stepOn machine.bus).2.2 }) := by
  rw [stepProcessor, if_neg (by simp [h])]

/-- The processor's step is its accesses, and it takes a cycle for each of them. -/
theorem stepProcessor_of_idle (h : machine.dma.isActive = false) :
    machine.stepProcessor =
      ((machine.cpu.accessesOn machine.bus).length,
        { machine with
          cpu := (machine.cpu.stepOn machine.bus).2.1
          bus := (machine.cpu.accessesOn machine.bus).foldl Bus.after machine.bus }) := by
  rw [stepProcessor_eq_stepOn h, ← Cpu.stepOn_cycles, ← Cpu.stepOn_bus]

end Processor

/-- The NMI edges that accesses make in the next step. A transfer makes none. -/
def accessEdges (machine : Machine) : Nat :=
  if machine.dma.isActive then
    (Ppu.enablesNmi machine.ppu machine.stepProcessor.2.ppu).toNat
  else
    machine.bus.accessEdges (machine.cpu.accessesOn machine.bus)

variable (machine : Machine)

/-- The cycles of a step are those that pass on the bus. -/
theorem stepProcessor_cycles :
    machine.stepProcessor.2.cycles = machine.cycles + machine.stepProcessor.1 := by
  cases hActive : machine.dma.isActive with
  | true =>
    rw [stepProcessor_of_active hActive, cycles, SystemBus.copied_cycles]
    rfl
  | false =>
    rw [stepProcessor_of_idle hActive]
    exact cycles_foldl_after machine.bus _

/-- No step takes more than eight cycles. -/
theorem stepProcessor_le : machine.stepProcessor.1 ≤ 8 := by
  cases hActive : machine.dma.isActive with
  | true =>
    rw [stepProcessor_of_active hActive]
    exact Nat.le_trans (SpriteTransfer.step_cycles_le _ _) (by decide)
  | false =>
    rw [stepProcessor_of_idle hActive]
    exact (Cpu.step_effort (machine.cpu.makes_accessesOn machine.bus)).1

theorem accessEdges_of_active {machine : Machine} (h : machine.dma.isActive = true) :
    machine.accessEdges = 0 := by
  have hControl : machine.stepProcessor.2.ppu.latches.control = machine.ppu.latches.control := by
    rw [stepProcessor_of_active h]
    exact machine.bus.copied_control _
  rw [accessEdges, if_pos h, Ppu.enablesNmi_of_control_eq hControl]
  rfl

/-- The processor's or the engine's part keeps the timing. -/
theorem stepProcessor_accessed :
    Ppu.Accessed machine.accessEdges machine.ppu machine.stepProcessor.2.ppu := by
  cases hActive : machine.dma.isActive with
  | true =>
    rw [accessEdges_of_active hActive, stepProcessor_of_active hActive]
    exact machine.bus.copied_accessed _
  | false =>
    rw [accessEdges, if_neg (by simp [hActive]), stepProcessor_of_idle hActive]
    exact machine.bus.foldl_accessed _

/-- It makes one edge at most. -/
theorem accessEdges_le_one : machine.accessEdges ≤ 1 := by
  cases hActive : machine.dma.isActive with
  | true =>
    rw [accessEdges_of_active hActive]
    exact Nat.zero_le 1
  | false =>
    rw [accessEdges, if_neg (by simp [hActive])]
    exact SystemBus.accessEdges_le_one
      (Cpu.step_effort (machine.cpu.makes_accessesOn machine.bus)).2

/-! ## The signals -/

/-- Signals act on the processor and on the engine, never on the bus. -/
theorem foldl_apply_bus (signals : List Signal) : (signals.foldl apply machine).bus = machine.bus := by
  induction signals generalizing machine with
  | nil => rfl
  | cons signal rest ih =>
    refine (ih (machine.apply signal)).trans ?_
    cases signal <;> rfl

/-- Signals change nothing of the processor but the count of its requests. -/
theorem foldl_apply_cpu (signals : List Signal) : (signals.foldl apply machine).cpu =
    { machine.cpu with irqCount := (signals.foldl apply machine).cpu.irqCount } := by
  induction signals generalizing machine with
  | nil => rfl
  | cons signal rest ih =>
    refine (ih (machine.apply signal)).trans ?_
    cases signal <;> rfl

theorem foldl_apply_nmiLatched (signals : List Signal) :
    (signals.foldl apply machine).cpu.nmiLatched = machine.cpu.nmiLatched := by
  rw [foldl_apply_cpu]

/-- Acting on the signals empties the queue and leaves the rest of the bus alone. -/
theorem applySignals_bus : machine.applySignals.bus = { machine.bus with signals := [] } :=
  foldl_apply_bus _ _

theorem applySignals_ppu : machine.applySignals.ppu = machine.ppu := by
  rw [ppu, applySignals_bus]
  rfl

theorem applySignals_cycles : machine.applySignals.cycles = machine.cycles := by
  rw [cycles, applySignals_bus]
  rfl

theorem applySignals_nmiLatched : machine.applySignals.cpu.nmiLatched = machine.cpu.nmiLatched :=
  foldl_apply_nmiLatched _ _

/-- Without a signal that waits there is nothing to act on. -/
theorem applySignals_of_nil {machine : Machine} (h : machine.bus.signals = []) :
    machine.applySignals = machine := by
  rcases machine with ⟨cpu, dma, ⟨memory, ppu, cycles, signals⟩, config⟩
  have hSignals : signals = [] := h
  rw [hSignals]
  rfl

/-! ## The dots -/

/-- Catching up passes three dots for each cycle and takes the edge out of the picture unit. -/
theorem catchUp_ppu (cycles : Nat) : (machine.catchUp cycles).ppu =
    { machine.ppu.ticks (Clock.dotsFor cycles) with nmiLatched := false } :=
  rfl

/-- The processor takes over an edge of the picture unit and keeps one that it has. -/
theorem catchUp_nmiLatched (cycles : Nat) : (machine.catchUp cycles).cpu.nmiLatched =
    (machine.cpu.nmiLatched || (machine.ppu.ticks (Clock.dotsFor cycles)).nmiLatched) := by
  have hCpu : (machine.catchUp cycles).cpu =
      if (machine.ppu.ticks (Clock.dotsFor cycles)).nmiLatched then machine.cpu.latchNmi
      else machine.cpu := rfl
  cases hEdge : (machine.ppu.ticks (Clock.dotsFor cycles)).nmiLatched with
  | true => simp [hCpu, hEdge, Cpu.latchNmi]
  | false => simp [hCpu, hEdge]

/-- The dots change nothing of the processor but its latch, which takes the edge over. -/
theorem catchUp_cpu (cycles : Nat) : (machine.catchUp cycles).cpu =
    { machine.cpu with nmiLatched := (machine.catchUp cycles).cpu.nmiLatched } := by
  have hCpu : (machine.catchUp cycles).cpu =
      if (machine.ppu.ticks (Clock.dotsFor cycles)).nmiLatched then machine.cpu.latchNmi
      else machine.cpu := rfl
  rw [hCpu]
  split <;> rfl

/-! ## The step as a whole -/

/-- The dots of the next step, with the state of the picture unit before each of them. -/
def stepDots (machine : Machine) : List Ppu :=
  machine.stepProcessor.2.ppu.dots (Clock.dotsFor machine.step.1)

/-- A step is that of the processor or the engine, then the signals, then the picture unit. -/
theorem step_eq : machine.step =
    (machine.stepProcessor.1, machine.stepProcessor.2.applySignals.catchUp machine.stepProcessor.1) :=
  rfl

theorem step_ppu : machine.step.2.ppu =
    { machine.stepProcessor.2.ppu.ticks (Clock.dotsFor machine.step.1) with nmiLatched := false } := by
  simp only [step_eq, catchUp_ppu, applySignals_ppu]

theorem step_beam : machine.step.2.ppu.beam =
    (machine.stepProcessor.2.ppu.ticks (Clock.dotsFor machine.step.1)).beam := by
  rw [step_ppu]

theorem step_shortOddFrames : machine.step.2.ppu.shortOddFrames = machine.ppu.shortOddFrames := by
  rw [step_ppu]
  exact (Ppu.ticks_shortOddFrames _ _).trans machine.stepProcessor_accessed.shortOddFrames

theorem step_cycles : machine.step.2.cycles = machine.cycles + machine.step.1 :=
  machine.stepProcessor.2.applySignals_cycles.trans machine.stepProcessor_cycles

/-- No step takes more than eight cycles. -/
theorem step_le : machine.step.1 ≤ 8 :=
  machine.stepProcessor_le

theorem step_memory : machine.step.2.bus.memory = machine.stepProcessor.2.bus.memory := by
  have hSignals := machine.stepProcessor.2.applySignals_bus
  calc
    machine.step.2.bus.memory = machine.stepProcessor.2.applySignals.bus.memory := rfl
    _ = machine.stepProcessor.2.bus.memory := by rw [hSignals]

/-- No signal waits at the end of a step. -/
theorem step_signals : machine.step.2.bus.signals = [] :=
  congrArg SystemBus.signals machine.stepProcessor.2.applySignals_bus

/-- After the processor's part, only its interrupt lines change. -/
theorem step_cpu : ∃ nmiLatched irqCount,
    machine.step.2.cpu = { machine.stepProcessor.2.cpu with nmiLatched, irqCount } := by
  have hSignals : machine.stepProcessor.2.applySignals.cpu =
      { machine.stepProcessor.2.cpu with
        irqCount := machine.stepProcessor.2.applySignals.cpu.irqCount } := foldl_apply_cpu _ _
  have hDots := machine.stepProcessor.2.applySignals.catchUp_cpu machine.stepProcessor.1
  rw [hSignals] at hDots
  exact ⟨_, _, hDots⟩

theorem step_nmiLatched : machine.step.2.cpu.nmiLatched =
    (machine.stepProcessor.2.cpu.nmiLatched ||
      (machine.stepProcessor.2.ppu.ticks (Clock.dotsFor machine.step.1)).nmiLatched) := by
  simp only [step_eq, catchUp_nmiLatched, applySignals_ppu, applySignals_nmiLatched]

/-! ## A step of a transfer -/

section Transfer

variable {machine : Machine}

theorem step_cycles_of_active (hActive : machine.dma.isActive = true) :
    machine.step.1 = (machine.dma.step machine.cycles).cycles :=
  congrArg Prod.fst (stepProcessor_of_active hActive)

/-- A transfer raises no signal, so that nothing comes between the engine and the dots. -/
theorem step_of_active (hActive : machine.dma.isActive = true)
    (hSignals : machine.bus.signals = []) :
    machine.step.2 = machine.stepProcessor.2.catchUp machine.step.1 := by
  have hNone : machine.stepProcessor.2.bus.signals = [] := by
    rw [stepProcessor_of_active hActive]
    exact (machine.bus.copied_signals _).trans hSignals
  rw [step_eq, applySignals_of_nil hNone]

/-- Without signals the engine goes on with its own next state. -/
theorem step_dma_of_active (hActive : machine.dma.isActive = true)
    (hSignals : machine.bus.signals = []) :
    machine.step.2.dma = (machine.dma.step machine.bus.cycles).next := by
  have hCatchUp : machine.step.2.dma = machine.stepProcessor.2.dma := by
    rw [step_of_active hActive hSignals]
    rfl
  rw [hCatchUp, stepProcessor_of_active hActive]

end Transfer

/-! ## Several steps -/

def after (machine : Machine) : Nat → Machine
  | 0 => machine
  | n + 1 => (machine.after n).step.2

end Machine

end NesMachine
