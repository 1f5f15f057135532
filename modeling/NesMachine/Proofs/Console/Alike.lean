import NesMachine.Proofs.Console.MainMemory
import NesMachine.Proofs.Console.Steps
import NesMachine.Proofs.Cpu.StaleBytes
import NesMachine.Proofs.Ppu.Alike

/-!
# Machines that cannot be told apart

Two machines are alike when they differ in what no step looks at: bytes of earlier instructions in the
latch, cells of storage that no address reaches, and the order in which the observers are kept. A step of
both takes the same time and leaves them alike.

* `SystemBus.alike_bisimulation`: buses that are alike answer alike.
* `Machine.Alike.step`: a step of two machines that are alike.
* `Machine.Alike.after`: any number of steps.
* `Machine.Alike.sameView`: what a host sees of them is the same.
-/

namespace NesMachine

/-! ## Main memory -/

/-- The same byte and the same observer at every address. -/
structure MainMemory.Alike (memory other : MainMemory) : Prop where
  peek : ∀ address, memory.peek address = other.peek address
  observer : ∀ address, memory.observers.lookup address = other.observers.lookup address

namespace MainMemory.Alike

variable {memory other : MainMemory} {ppu ppuOther : Ppu}

/-- Memories that are alike return the same bytes, and the devices behind them stay alike. -/
theorem read (h : memory.Alike other) (hPpu : ppu.Alike ppuOther) (address : UInt16) :
    (memory.read address ppu).1 = (other.read address ppuOther).1 ∧
      (memory.read address ppu).2.Alike (other.read address ppuOther).2 := by
  rw [read_eq, read_eq, h.peek address]
  cases other.peek address with
  | some value => exact ⟨rfl, hPpu⟩
  | none => exact hPpu.readRegister _

/-- The signal, the bytes and observers, and the picture unit after a write. -/
theorem write (h : memory.Alike other) (hPpu : ppu.Alike ppuOther) (address : UInt16) (value : UInt8) :
    (memory.write address value ppu).1 = (other.write address value ppuOther).1 ∧
      (memory.write address value ppu).2.1.Alike (other.write address value ppuOther).2.1 ∧
      (memory.write address value ppu).2.2.Alike (other.write address value ppuOther).2.2 := by
  refine ⟨?_, ⟨?_, ?_⟩, ?_⟩
  · have hSignal : (memory.observers.notify address value).1 = (other.observers.notify address value).1 := by
      rw [Observers.notify_fst, Observers.notify_fst, h.observer address]
    exact hSignal
  · intro asked
    rw [peek_write, peek_write, h.peek asked]
  · intro asked
    have hObserver : (memory.observers.notify address value).2.lookup asked =
        (other.observers.notify address value).2.lookup asked := by
      rw [Observers.lookup_notify, Observers.lookup_notify, h.observer asked]
    exact hObserver
  · rw [write_device, write_device]
    cases place address with
    | cell cell => exact hPpu
    | device folded => exact hPpu.writeRegister _ value

end MainMemory.Alike

/-! ## The bus -/

structure SystemBus.Alike (bus other : SystemBus) : Prop where
  memory : bus.memory.Alike other.memory
  ppu : bus.ppu.Alike other.ppu
  cycles : bus.cycles = other.cycles
  signals : bus.signals = other.signals

namespace SystemBus

/-- Buses that are alike answer every access alike. -/
theorem alike_bisimulation : Bus.Bisimulation Alike where
  read_fst h address := (h.memory.read h.ppu address).1
  read_snd h address :=
    { memory := h.memory
      ppu := (h.memory.read h.ppu address).2
      cycles := congrArg (· + 1) h.cycles
      signals := h.signals }
  write {bus other} h address value := by
    rcases h.memory.write h.ppu address value with ⟨hSignal, hMemory, hPpu⟩
    have hSignals : bus.signals ++ (bus.memory.write address value bus.ppu).1.toList =
        other.signals ++ (other.memory.write address value other.ppu).1.toList := by
      rw [h.signals, hSignal]
    exact { memory := hMemory, ppu := hPpu, cycles := congrArg (· + 1) h.cycles, signals := hSignals }

variable {bus other : SystemBus}

/-- Copying a byte to sprite memory keeps buses alike. -/
theorem Alike.copied (h : bus.Alike other) (copy : Option SpriteTransfer.Copy) :
    (bus.copied copy).Alike (other.copied copy) := by
  cases copy with
  | none => exact h
  | some copy =>
    rcases h.memory.read h.ppu copy.source with ⟨hValue, hPpu⟩
    -- The byte that is copied is the same, and so is what its read does to a register.
    have hCopied : Ppu.Alike ((bus.memory.read copy.source bus.ppu).2.setOam copy.offset
          (bus.memory.read copy.source bus.ppu).1)
        ((other.memory.read copy.source other.ppu).2.setOam copy.offset
          (other.memory.read copy.source other.ppu).1) := by
      rw [hValue]
      exact hPpu.setOam copy.offset _
    exact { memory := h.memory, ppu := hCopied, cycles := h.cycles, signals := h.signals }

/-- No peek can tell alike buses apart. -/
theorem Alike.peek_eq (h : bus.Alike other) (address : UInt16) : bus.peek address = other.peek address := by
  rw [peek, peek, h.memory.peek address]
  cases other.memory.peek address with
  | some value => rfl
  | none => exact h.ppu.registerValue_eq address

end SystemBus

/-! ## The processor on the bus -/

/-- A step of processors that are alike, on buses that are alike. -/
theorem Cpu.Alike.stepOn {cpu other : Cpu} (h : cpu.Alike other) {bus busOther : SystemBus}
    (hBus : bus.Alike busOther) :
    (cpu.stepOn bus).1 = (other.stepOn busOther).1 ∧
      (cpu.stepOn bus).2.1.Alike (other.stepOn busOther).2.1 ∧
      (cpu.stepOn bus).2.2.Alike (other.stepOn busOther).2.2 := by
  have hNow : Bus.cycles bus = Bus.cycles busOther := hBus.cycles
  -- Both scripts start with the same time, which goes into the record of the instruction.
  have hRun := (step_alike h (Bus.cycles bus)).run SystemBus.alike_bisimulation hBus
  rw [Cpu.stepOn, Cpu.stepOn, ← hNow]
  have hTaken : Bus.cycles ((cpu.step (Bus.cycles bus)).run bus).2 - Bus.cycles bus =
      Bus.cycles ((other.step (Bus.cycles bus)).run busOther).2 - Bus.cycles bus :=
    congrArg (· - Bus.cycles bus) hRun.2.cycles
  exact ⟨hTaken, hRun⟩

/-! ## The machine -/

namespace Machine

/-- Machines that differ in what no step looks at. -/
structure Alike (machine other : Machine) : Prop where
  cpu : machine.cpu.Alike other.cpu
  dma : machine.dma = other.dma
  bus : machine.bus.Alike other.bus

/-- What a host sees of two machines is the same: all that can be read off the processor, the whole of both
address spaces, the picture unit, and what is under way. -/
structure SameView (machine other : Machine) : Prop where
  registers : machine.cpu.registers = other.cpu.registers
  nmiLatched : machine.cpu.nmiLatched = other.cpu.nmiLatched
  irqCount : machine.cpu.irqCount = other.cpu.irqCount
  irqMasked : machine.cpu.irqMasked = other.cpu.irqMasked
  lastRecord : machine.cpu.lastRecord = other.cpu.lastRecord
  peek : ∀ address, machine.peek address = other.peek address
  oam : machine.ppu.oam = other.ppu.oam
  vram : ∀ address, Vram.read machine.ppu.vram address = Vram.read other.ppu.vram address
  latches : machine.ppu.latches = other.ppu.latches
  openBus : machine.ppu.openBus = other.ppu.openBus
  beam : machine.ppu.beam = other.ppu.beam
  edge : machine.ppu.nmiLatched = other.ppu.nmiLatched
  dma : machine.dma = other.dma
  signals : machine.bus.signals = other.bus.signals
  cycles : machine.cycles = other.cycles

namespace Alike

variable {machine other : Machine}

/-- No view of the host can tell alike machines apart. -/
theorem sameView (h : machine.Alike other) : machine.SameView other := by
  rcases h.cpu with ⟨latch, hCpu⟩
  rcases h.bus.ppu with ⟨vram, hPpu, hBytes⟩
  exact
    { registers := by simp [hCpu, Cpu.withLatch, Cpu.registers]
      nmiLatched := by simp [hCpu, Cpu.withLatch]
      irqCount := by simp [hCpu, Cpu.withLatch]
      irqMasked := by simp [hCpu, Cpu.withLatch]
      lastRecord := by simp [hCpu, Cpu.withLatch]
      peek := h.bus.peek_eq
      oam := by simp [ppu, hPpu, Ppu.withVram]
      vram := fun address => by simp [ppu, hPpu, Ppu.withVram, hBytes]
      latches := by simp [ppu, hPpu, Ppu.withVram]
      openBus := by simp [ppu, hPpu, Ppu.withVram]
      beam := by simp [ppu, hPpu, Ppu.withVram]
      edge := by simp [ppu, hPpu, Ppu.withVram]
      dma := h.dma
      signals := h.bus.signals
      cycles := h.bus.cycles }

/-- The processor's or the engine's part of a step. -/
theorem stepProcessor (h : machine.Alike other) :
    machine.stepProcessor.1 = other.stepProcessor.1 ∧
      machine.stepProcessor.2.Alike other.stepProcessor.2 := by
  -- The engines are equal, so the same part acts in both machines.
  cases hActive : machine.dma.isActive with
  | true =>
    have hActiveOther : other.dma.isActive = true := by rw [← h.dma, hActive]
    have hStep : machine.dma.step machine.bus.cycles = other.dma.step other.bus.cycles := by
      rw [h.dma, h.bus.cycles]
    have hCopied := h.bus.copied (other.dma.step other.bus.cycles).copy
    rw [stepProcessor_of_active hActive, stepProcessor_of_active hActiveOther, hStep]
    exact ⟨rfl,
      { cpu := h.cpu
        dma := rfl
        bus := { hCopied with cycles := congrArg (· + _) hCopied.cycles } }⟩
  | false =>
    have hActiveOther : other.dma.isActive = false := by rw [← h.dma, hActive]
    rcases h.cpu.stepOn h.bus with ⟨hCycles, hCpu, hBus⟩
    rw [stepProcessor_eq_stepOn hActive, stepProcessor_eq_stepOn hActiveOther]
    exact ⟨hCycles, { cpu := hCpu, dma := h.dma, bus := hBus }⟩

/-- Acting on a signal keeps machines alike. -/
theorem apply (h : machine.Alike other) (signal : Signal) :
    (machine.apply signal).Alike (other.apply signal) := by
  cases signal with
  | startTransfer page => exact { cpu := h.cpu, dma := rfl, bus := h.bus }
  | raiseIrq =>
    rcases h.cpu with ⟨latch, hCpu⟩
    have hRaised : machine.cpu.raiseIrq.Alike other.cpu.raiseIrq := ⟨latch, by rw [hCpu]; rfl⟩
    exact { cpu := hRaised, dma := h.dma, bus := h.bus }

theorem foldl_apply (h : machine.Alike other) (signals : List Signal) :
    (signals.foldl Machine.apply machine).Alike (signals.foldl Machine.apply other) := by
  induction signals generalizing machine other with
  | nil => exact h
  | cons signal rest ih => exact ih (h.apply signal)

/-- So does acting on all signals that wait, for the same ones wait. -/
theorem applySignals (h : machine.Alike other) : machine.applySignals.Alike other.applySignals := by
  -- The queues are emptied first, and then the same signals are acted on.
  have hTaken : Alike { machine with bus := { machine.bus with signals := [] } }
      { other with bus := { other.bus with signals := [] } } :=
    { h with bus := { h.bus with signals := rfl } }
  rw [Machine.applySignals, Machine.applySignals, h.bus.signals]
  exact hTaken.foldl_apply _

/-- The picture units catch up in the same way. -/
theorem catchUp (h : machine.Alike other) (cycles : Nat) :
    (machine.catchUp cycles).Alike (other.catchUp cycles) := by
  rcases (h.bus.ppu.ticks (Clock.dotsFor cycles)).releaseNmi with ⟨hEdge, hPpu⟩
  rcases h.cpu with ⟨latch, hCpu⟩
  have hLatched : Cpu.Alike
      (if (machine.bus.ppu.ticks (Clock.dotsFor cycles)).releaseNmi.1 then machine.cpu.latchNmi
        else machine.cpu)
      (if (other.bus.ppu.ticks (Clock.dotsFor cycles)).releaseNmi.1 then other.cpu.latchNmi
        else other.cpu) := by
    -- The edge is the same, so both processors latch it or neither does.
    rw [hEdge, hCpu]
    split
    · exact ⟨latch, rfl⟩
    · exact ⟨latch, rfl⟩
  exact { cpu := hLatched, dma := h.dma, bus := { h.bus with ppu := hPpu } }

/-- Machines that are alike take the same time for a step and stay alike. -/
theorem step (h : machine.Alike other) :
    machine.step.1 = other.step.1 ∧ machine.step.2.Alike other.step.2 := by
  rcases h.stepProcessor with ⟨hCycles, hNext⟩
  refine ⟨hCycles, ?_⟩
  rw [step_eq, step_eq, hCycles]
  exact hNext.applySignals.catchUp _

/-- Machines that are alike stay so for good. -/
theorem after (h : machine.Alike other) (n : Nat) : (machine.after n).Alike (other.after n) := by
  induction n with
  | zero => exact h
  | succ n ih => exact ih.step.2

end Alike

end Machine

end NesMachine
