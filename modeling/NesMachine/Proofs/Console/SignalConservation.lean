import NesMachine.Proofs.Console.NmiConservation

/-!
# Conservation of the observers' signals

An observer answers a write with a signal. The signal waits on the bus until the instruction has ended;
then a request goes into the processor's count, where it stays until an IRQ entry takes it, and a start
goes to the transfer engine, where the last one counts. No hop drops or repeats a signal, as long as the
count does not run full.

* `SystemBus.raised`: the answers of the observers to a list of accesses.
* `Machine.raisedSignals`, `Machine.irqEntries`: what a step raises, and what it takes up.
* `Machine.step_conserves_irq`, `Machine.step_dma_of_start`: one step.
* `Machine.signals_are_conserved`: a run.
-/

namespace NesMachine

namespace SpriteTransfer

/-- Only a signal can leave the engine aligning; no step of its own does. -/
theorem step_state_ne (dma : SpriteTransfer) (now : Nat) :
    (dma.step now).next.state ≠ .aligning := by
  rcases dma with ⟨state, page⟩
  cases state with
  | idle => exact nofun
  | aligning => exact nofun
  | copying offset =>
    by_cases hLast : offset = 0xFF
    · simp [step, hLast]
    · simp [step, hLast]

theorem step_of_idle {dma : SpriteTransfer} (hIdle : dma.isActive = false) (now : Nat) :
    (dma.step now).next = dma := by
  have hState : dma.state = .idle := by simpa [isActive] using hIdle
  simp [step, hState]

end SpriteTransfer

namespace SystemBus

/-! ## The signals of accesses -/

/-- What the observers answer to an access. They are shown the writes. -/
def answer (bus : SystemBus) : Access → Option Signal
  | .read _ => none
  | .write address value => (bus.memory.observers.notify address value).1

def raised : SystemBus → List Access → List Signal
  | _, [] => []
  | bus, access :: rest => (bus.answer access).toList ++ raised (Bus.after bus access) rest

/-- An access adds its answer behind the signals that wait. -/
theorem after_signals (bus : SystemBus) (access : Access) :
    (Bus.after bus access).signals = bus.signals ++ (bus.answer access).toList := by
  cases access with
  | read address => exact (List.append_nil bus.signals).symm
  | write address value => rfl

/-- Along a row of accesses the answers queue up in order. -/
theorem foldl_signals (bus : SystemBus) (accesses : List Access) :
    (accesses.foldl Bus.after bus).signals = bus.signals ++ bus.raised accesses := by
  induction accesses generalizing bus with
  | nil => exact (List.append_nil bus.signals).symm
  | cons access rest ih =>
    calc
      (rest.foldl Bus.after (Bus.after bus access)).signals
          = (Bus.after bus access).signals ++ (Bus.after bus access).raised rest := ih _
      _ = bus.signals ++ ((bus.answer access).toList ++ (Bus.after bus access).raised rest) := by
            rw [after_signals, List.append_assoc]

/-- There is at most one answer to each access. -/
theorem length_raised_le (bus : SystemBus) (accesses : List Access) :
    (bus.raised accesses).length ≤ accesses.length := by
  induction accesses generalizing bus with
  | nil => exact Nat.le_refl 0
  | cons access rest ih =>
    have hRest := ih (Bus.after bus access)
    have hHere : (bus.answer access).toList.length ≤ 1 := by
      cases bus.answer access with
      | none => exact Nat.zero_le 1
      | some signal => exact Nat.le_refl 1
    rw [raised, List.length_append, List.length_cons]
    omega

end SystemBus

namespace Machine

/-! ## Acting on signals -/

section Signals

variable (machine : Machine)

/-- Requests add up until the count is full, and the rest is lost. -/
theorem foldl_apply_irqCount (signals : List Signal)
    (hFits : machine.cpu.irqCount ≤ Cpu.irqCountMax) :
    (signals.foldl apply machine).cpu.irqCount =
      min (machine.cpu.irqCount + signals.count .raiseIrq) Cpu.irqCountMax := by
  induction signals generalizing machine with
  | nil => exact (Nat.min_eq_left hFits).symm
  | cons signal rest ih =>
    cases signal with
    | startTransfer page =>
      -- A start leaves the processor alone.
      have hRest := ih (machine.apply (.startTransfer page)) hFits
      have hCount : (Signal.startTransfer page :: rest).count .raiseIrq = rest.count .raiseIrq :=
        List.count_cons_of_ne (by simp)
      rw [hCount]
      exact hRest
    | raiseIrq =>
      have hHere : (machine.apply .raiseIrq).cpu.irqCount =
          min (machine.cpu.irqCount + 1) Cpu.irqCountMax := rfl
      have hRest := ih (machine.apply .raiseIrq) (hHere ▸ Nat.min_le_right _ _)
      -- The count may be full already, so the two minima become one.
      rw [List.foldl_cons, hRest, hHere, List.count_cons_self]
      omega

/-- Without a start among the signals the engine is left alone. -/
theorem foldl_apply_dma_of_not_mem {signals : List Signal}
    (hNone : ∀ page, Signal.startTransfer page ∉ signals) :
    (signals.foldl apply machine).dma = machine.dma := by
  induction signals generalizing machine with
  | nil => rfl
  | cons signal rest ih =>
    have hRest (page : UInt8) : Signal.startTransfer page ∉ rest :=
      fun hMem => hNone page (List.mem_cons_of_mem _ hMem)
    cases signal with
    | startTransfer page => exact absurd List.mem_cons_self (hNone page)
    | raiseIrq => exact ih (machine.apply .raiseIrq) hRest

/-- Of several starts the last one counts. -/
theorem foldl_apply_dma_of_last (earlier : List Signal) (page : UInt8) {later : List Signal}
    (hLast : ∀ other, Signal.startTransfer other ∉ later) :
    ((earlier ++ .startTransfer page :: later).foldl apply machine).dma =
      SpriteTransfer.start page := by
  rw [List.foldl_append, List.foldl_cons]
  exact foldl_apply_dma_of_not_mem _ hLast

/-- Among several starts one is the last. -/
theorem exists_last_start {signals : List Signal}
    (hSome : ∃ page, Signal.startTransfer page ∈ signals) :
    ∃ page earlier later, signals = earlier ++ .startTransfer page :: later ∧
      ∀ other, Signal.startTransfer other ∉ later := by
  induction signals with
  | nil =>
    rcases hSome with ⟨page, hMem⟩
    cases hMem
  | cons signal rest ih =>
    by_cases hLater : ∃ page, Signal.startTransfer page ∈ rest
    · rcases ih hLater with ⟨page, earlier, later, rfl, hLast⟩
      exact ⟨page, signal :: earlier, later, rfl, hLast⟩
    · rcases hSome with ⟨page, hMem⟩
      rcases List.mem_cons.mp hMem with rfl | hRest
      · exact ⟨page, [], rest, rfl, not_exists.mp hLater⟩
      · exact absurd ⟨page, hRest⟩ hLater

end Signals

/-! ## What a step raises and takes up -/

/-- The signals that observers raise in the next step. A transfer writes nothing that they see. -/
def raisedSignals (machine : Machine) : List Signal :=
  if machine.dma.isActive then [] else machine.bus.raised (machine.cpu.accessesOn machine.bus)

/-- The requests among them. -/
def irqRequests (machine : Machine) : Nat :=
  machine.raisedSignals.count .raiseIrq

def irqEntries (machine : Machine) : Nat :=
  if !machine.dma.isActive && machine.cpu.activity = .entry .irq then 1 else 0

section Step

variable (machine : Machine)

/-- A step of the processor queues its signals behind those that wait. -/
theorem stepProcessor_signals : machine.stepProcessor.2.bus.signals =
    machine.bus.signals ++ machine.raisedSignals := by
  cases hActive : machine.dma.isActive with
  | true =>
    rw [stepProcessor_of_active hActive, raisedSignals, if_pos hActive, List.append_nil]
    exact machine.bus.copied_signals _
  | false =>
    rw [stepProcessor_of_idle hActive, raisedSignals, if_neg (by simp [hActive])]
    exact machine.bus.foldl_signals _

/-- Apart from signals, the engine moves on by its own step. -/
theorem stepProcessor_dma :
    machine.stepProcessor.2.dma = (machine.dma.step machine.cycles).next := by
  cases hActive : machine.dma.isActive with
  | true => exact congrArg (·.2.dma) (stepProcessor_of_active hActive)
  | false =>
    rw [stepProcessor_of_idle hActive]
    exact (SpriteTransfer.step_of_idle hActive _).symm

/-- A step raises at most as many requests as it makes accesses. -/
theorem irqRequests_le : machine.irqRequests ≤ 8 := by
  have hCount : machine.irqRequests ≤ machine.raisedSignals.length := List.count_le_length
  rw [raisedSignals] at hCount
  cases hActive : machine.dma.isActive with
  | true =>
    rw [if_pos hActive] at hCount
    exact Nat.le_trans hCount (Nat.zero_le 8)
  | false =>
    rw [if_neg (by simp [hActive])] at hCount
    have hRaised := machine.bus.length_raised_le (machine.cpu.accessesOn machine.bus)
    have hAccesses := (Cpu.step_effort (machine.cpu.makes_accessesOn machine.bus)).1
    omega

/-- An entry takes one request, and nothing else takes any. -/
theorem irqEntries_add :
    machine.irqEntries + machine.stepProcessor.2.cpu.irqCount = machine.cpu.irqCount := by
  cases hActive : machine.dma.isActive with
  | true =>
    rw [stepProcessor_of_active hActive]
    simp [irqEntries, hActive]
  | false =>
    have hStep := Cpu.irqCount_of_makes (machine.cpu.makes_accessesOn machine.bus)
    rw [stepProcessor_of_idle hActive]
    simpa [irqEntries, hActive] using hStep

end Step

section Settled

variable {machine : Machine} (hSettled : machine.bus.signals = [])

include hSettled

/-- With nothing left over from before, what is acted on is what the step raised. -/
theorem waiting_signals : machine.stepProcessor.2.bus.signals = machine.raisedSignals := by
  rw [stepProcessor_signals, hSettled, List.nil_append]

/-- The requests of a step join those that wait. -/
theorem step_irqCount (hFits : machine.cpu.irqCount ≤ Cpu.irqCountMax) :
    machine.step.2.cpu.irqCount =
      min (machine.stepProcessor.2.cpu.irqCount + machine.irqRequests) Cpu.irqCountMax := by
  have hTaken := machine.irqEntries_add
  have hDots := machine.stepProcessor.2.applySignals.catchUp_cpu machine.stepProcessor.1
  have hSignals : machine.stepProcessor.2.applySignals.cpu.irqCount =
      min (machine.stepProcessor.2.cpu.irqCount +
        machine.stepProcessor.2.bus.signals.count .raiseIrq) Cpu.irqCountMax :=
    foldl_apply_irqCount _ _ (by show machine.stepProcessor.2.cpu.irqCount ≤ _; omega)
  rw [waiting_signals hSettled] at hSignals
  rw [step_eq, hDots]
  exact hSignals

/-- A step conserves the requests: those it raises are entered, or wait, or did. -/
theorem step_conserves_irq (hFits : machine.cpu.irqCount ≤ Cpu.irqCountMax)
    (hNext : machine.step.2.cpu.irqCount < Cpu.irqCountMax) :
    machine.irqRequests + machine.cpu.irqCount =
      machine.irqEntries + machine.step.2.cpu.irqCount := by
  have hTaken := machine.irqEntries_add
  have hCount := step_irqCount hSettled hFits
  omega

/-- The count of requests grows by at most eight in a step. -/
theorem step_irqCount_le (hFits : machine.cpu.irqCount ≤ Cpu.irqCountMax) :
    machine.step.2.cpu.irqCount ≤ machine.cpu.irqCount + 8 := by
  have hTaken := machine.irqEntries_add
  have hCount := step_irqCount hSettled hFits
  have hRequests := machine.irqRequests_le
  omega

/-- If a step raises a start, the engine is about to copy the page of the last one. -/
theorem step_dma_of_start (hSome : ∃ page, Signal.startTransfer page ∈ machine.raisedSignals) :
    ∃ page earlier later, machine.raisedSignals = earlier ++ .startTransfer page :: later ∧
      (∀ other, Signal.startTransfer other ∉ later) ∧
      machine.step.2.dma = SpriteTransfer.start page := by
  rcases exists_last_start hSome with ⟨page, earlier, later, hRaised, hLast⟩
  refine ⟨page, earlier, later, hRaised, hLast, ?_⟩
  calc
    machine.step.2.dma = machine.stepProcessor.2.applySignals.dma := rfl
    _ = SpriteTransfer.start page := by
          rw [applySignals, waiting_signals hSettled, hRaised]
          exact foldl_apply_dma_of_last _ earlier page hLast

/-- Otherwise the engine goes on as it was. -/
theorem step_dma_of_no_start
    (hNone : ∀ page, Signal.startTransfer page ∉ machine.raisedSignals) :
    machine.step.2.dma = (machine.dma.step machine.cycles).next :=
  calc
    machine.step.2.dma = machine.stepProcessor.2.applySignals.dma := rfl
    _ = machine.stepProcessor.2.dma := by
          rw [applySignals, waiting_signals hSettled]
          exact foldl_apply_dma_of_not_mem _ hNone
    _ = (machine.dma.step machine.cycles).next := machine.stepProcessor_dma

end Settled

/-! ## Runs -/

/-- What is so between steps: no signal waits on the bus, and the requests that wait can be counted. -/
structure SignalsSettled (machine : Machine) : Prop where
  signals : machine.bus.signals = []
  irqCount_le : machine.cpu.irqCount ≤ Cpu.irqCountMax

namespace SignalsSettled

variable {machine : Machine}

theorem reset (machine : Machine) (kind : Reset) : (machine.reset kind).SignalsSettled :=
  ⟨rfl, Nat.zero_le _⟩

/-- Putting observers in place raises no signal. -/
theorem observeAll (h : machine.SignalsSettled) (observers : Observers) :
    (machine.observeAll observers).SignalsSettled := by
  induction observers generalizing machine with
  | nil => exact h
  | cons entry rest ih => exact ih ⟨h.signals, h.irqCount_le⟩

/-- A step acts on all of its signals before it ends. -/
theorem step (h : machine.SignalsSettled) : machine.step.2.SignalsSettled := by
  refine ⟨machine.step_signals, ?_⟩
  rw [step_irqCount h.signals h.irqCount_le]
  exact Nat.min_le_right _ _

theorem after (h : machine.SignalsSettled) (n : Nat) : (machine.after n).SignalsSettled := by
  induction n with
  | zero => exact h
  | succ n ih => exact ih.step

/-- The count grows by eight in a step at most, so that only a very long run can fill it. -/
theorem after_irqCount_le (h : machine.SignalsSettled) (n : Nat) :
    (machine.after n).cpu.irqCount ≤ machine.cpu.irqCount + 8 * n := by
  induction n with
  | zero => exact Nat.le_refl _
  | succ n ih =>
    have hStep := step_irqCount_le (h.after n).signals (h.after n).irqCount_le
    have hNext : machine.after (n + 1) = (machine.after n).step.2 := rfl
    rw [hNext]
    omega

/-- Requests are conserved in a run, as long as the count does not run full. -/
theorem after_conserves (h : machine.SignalsSettled) (n : Nat)
    (hPending : ∀ i ≤ n, (machine.after i).cpu.irqCount < Cpu.irqCountMax) :
    ∑ i ∈ Finset.range n, (machine.after i).irqRequests + machine.cpu.irqCount =
      ∑ i ∈ Finset.range n, (machine.after i).irqEntries + (machine.after n).cpu.irqCount := by
  induction n with
  | zero => rfl
  | succ n ih =>
    have hSettled := h.after n
    have hBefore := ih fun i hLe => hPending i (Nat.le_succ_of_le hLe)
    have hStep := step_conserves_irq hSettled.signals hSettled.irqCount_le (hPending (n + 1) le_rfl)
    have hNext : machine.after (n + 1) = (machine.after n).step.2 := rfl
    rw [Finset.sum_range_succ, Finset.sum_range_succ, hNext]
    omega

end SignalsSettled

/-- **The signals of observers are conserved.** From power-on, however the machine is observed: no step
leaves a signal on the bus. A step that raises starts leaves the engine about to copy the page of the
last one, and no other step starts a transfer. While fewer than `2 ^ 32 - 1` requests wait at once, the
requests so far are the IRQ entries so far and those that wait. -/
theorem signals_are_conserved (start : Machine) (observers : Observers) (n : Nat) :
    let machine := (start.reset .powerOn).observeAll observers
    (machine.after n).bus.signals = [] ∧
    ((∃ page, Signal.startTransfer page ∈ (machine.after n).raisedSignals) →
      ∃ page earlier later,
        (machine.after n).raisedSignals = earlier ++ .startTransfer page :: later ∧
        (∀ other, Signal.startTransfer other ∉ later) ∧
        (machine.after (n + 1)).dma = { state := .aligning, page }) ∧
    ((∀ page, Signal.startTransfer page ∉ (machine.after n).raisedSignals) →
      (machine.after (n + 1)).dma = ((machine.after n).dma.step (machine.after n).cycles).next ∧
      (machine.after (n + 1)).dma.state ≠ .aligning) ∧
    ((∀ i ≤ n, (machine.after i).cpu.irqCount < 2 ^ 32 - 1) →
      ∑ i ∈ Finset.range n, (machine.after i).irqRequests =
        ∑ i ∈ Finset.range n, (machine.after i).irqEntries + (machine.after n).cpu.irqCount) := by
  intro machine
  have h : machine.SignalsSettled := (SignalsSettled.reset start .powerOn).observeAll observers
  have hNow := h.after n
  refine ⟨hNow.signals, step_dma_of_start hNow.signals, ?_, ?_⟩
  · intro hNone
    have hDma := step_dma_of_no_start hNow.signals hNone
    refine ⟨hDma, ?_⟩
    rw [after, hDma]
    exact SpriteTransfer.step_state_ne _ _
  · intro hPending
    -- A power-on clears the count, and observing a machine leaves its processor alone.
    have hNoneYet : machine.cpu.irqCount = 0 :=
      congrArg Cpu.irqCount (observeAll_cpu (start.reset .powerOn) observers)
    have hCount := h.after_conserves n hPending
    rwa [hNoneYet] at hCount

/-- The machine over a program of `CLI` and `DEC $0200`, with the IRQ vector back to its start. -/
def decrementsWatched : Machine :=
  switchedOn
    ((Ram.zero 16).setBytes 0xFFF6 [0x58, 0xCE, 0x00, 0x02, 0xEA, 0xEA, 0xF6, 0xFF, 0xF6, 0xFF])

/-- Every second write to `$0200` requests an interrupt, and the byte that the entry pushes to `$01FD`
starts a transfer. -/
def requestThenTransfer : Observers :=
  [(0x0200, Observer.everyNth 2), (0x01FD, Observer.spriteTransfer)]

/-- The second write of `DEC $0200` makes a request, the entry of the next step answers it, and a push of the entry
starts a transfer. -/
theorem signals_of_watched_writes :
    let machine := (decrementsWatched.reset .powerOn).observeAll requestThenTransfer
    (∀ i ≤ 3, (machine.after i).cpu.irqCount < 2 ^ 32 - 1) ∧
      (machine.after 1).raisedSignals = [.raiseIrq] ∧ (machine.after 2).irqEntries = 1 ∧
      (machine.after 2).raisedSignals = [.startTransfer 0xFF] ∧
      (machine.after 3).dma = { state := .aligning, page := 0xFF } ∧
      ∑ i ∈ Finset.range 3, (machine.after i).irqRequests =
        ∑ i ∈ Finset.range 3, (machine.after i).irqEntries + (machine.after 3).cpu.irqCount := by
  have hSettled := (SignalsSettled.reset decrementsWatched .powerOn).observeAll requestThenTransfer
  have hNone := observeAll_cpu (decrementsWatched.reset .powerOn) requestThenTransfer
  obtain ⟨-, hStarted, -, -⟩ := signals_are_conserved decrementsWatched requestThenTransfer 2
  obtain ⟨-, -, -, hConserved⟩ := signals_are_conserved decrementsWatched requestThenTransfer 3
  have hStart : (((decrementsWatched.reset .powerOn).observeAll requestThenTransfer).after 2).raisedSignals =
      [.startTransfer 0xFF] := by
    decide +kernel
  intro machine
  have hPending : ∀ i ≤ 3, (machine.after i).cpu.irqCount < 2 ^ 32 - 1 := by
    intro i hLe
    have hBound : (machine.after i).cpu.irqCount ≤ machine.cpu.irqCount + 8 * i :=
      hSettled.after_irqCount_le i
    have hZero : machine.cpu.irqCount = 0 := congrArg Cpu.irqCount hNone
    omega
  have hSum := hConserved hPending
  obtain ⟨page, earlier, later, hRaised, -, hDma⟩ := hStarted ⟨0xFF, by simp [hStart]⟩
  -- The start is the only signal, so its page is the one that the engine is left with.
  have hPage : page = 0xFF := by
    have hMem : Signal.startTransfer page ∈ [Signal.startTransfer 0xFF] := by
      rw [← hStart, hRaised]
      exact List.mem_append_right earlier List.mem_cons_self
    exact Signal.startTransfer.inj (List.mem_singleton.mp hMem)
  rw [hPage] at hDma
  refine ⟨hPending, by decide +kernel, by decide +kernel, hStart, hDma, ?_⟩
  simpa only [machine] using hSum

end Machine

end NesMachine
