import NesMachine.Proofs.Console.Alike
import NesMachine.Proofs.Cpu.IrqMasking

/-!
# Resets

A reset drops what is under way and lets the processor start where the reset vector points. A soft reset
keeps memory; power-on keeps no more than the cartridge, the expansion window, the observers and the
settings.

* `Machine.memory_peek_reset`: the bytes of main memory after a reset.
* `Machine.reset_ready`: nothing is under way after a reset.
* `Machine.Ready.step_eq`: what a machine does next when nothing is under way.
* `Machine.reset_starts_clean`: the first step after a reset, and what a soft reset keeps.
* `Machine.powerOn_erases_the_past`: nothing else can be seen after power-on, however long it runs.
-/

namespace NesMachine

namespace Machine

variable (machine : Machine)

/-! ## Bytes -/

/-- Power-on zeroes working memory and saved memory, and a soft reset no memory at all. -/
theorem memory_peek_reset (kind : Reset) (address : UInt16) :
    (machine.reset kind).bus.memory.peek address =
      if kind = .powerOn ∧
          (address.toNat < 0x2000 ∨ 0x6000 ≤ address.toNat ∧ address.toNat < 0x8000) then some 0
      else machine.bus.memory.peek address := by
  cases kind with
  | soft => rfl
  | powerOn =>
    have hCleared : (machine.reset .powerOn).bus.memory = machine.bus.memory.clearWork := rfl
    simpa [hCleared] using machine.bus.memory.peek_clearWork address

/-- What the machine finds at an address depends on main memory alone, outside the window of the registers. -/
theorem peek_eq_of_memory_peek {one two : Machine} {address : UInt16}
    (h : one.bus.memory.peek address = two.bus.memory.peek address)
    (hOutside : ¬(0x2000 ≤ address.toNat ∧ address.toNat < 0x4000)) :
    one.peek address = two.peek address := by
  have hRegister := MainMemory.isRegister_eq_false hOutside
  rcases two.bus.memory.read_of_not_isRegister (δ := Ppu) hRegister with ⟨value, hPeek, -⟩
  simp only [peek, SystemBus.peek, h, hPeek]

/-- No reset reaches the cartridge or the expansion window. -/
theorem peek_reset_of_kept (kind : Reset) {address : UInt16}
    (h : 0x4000 ≤ address.toNat ∧ address.toNat < 0x6000 ∨ 0x8000 ≤ address.toNat) :
    (machine.reset kind).peek address = machine.peek address := by
  have hCleared : ¬(kind = .powerOn ∧
      (address.toNat < 0x2000 ∨ 0x6000 ≤ address.toNat ∧ address.toNat < 0x8000)) := by
    rintro ⟨-, hWork⟩
    omega
  refine peek_eq_of_memory_peek ?_ (by omega)
  rw [memory_peek_reset, if_neg hCleared]

/-- Power-on leaves zeroes in working memory and in saved memory. -/
theorem peek_powerOn_of_cleared {address : UInt16}
    (h : address.toNat < 0x2000 ∨ 0x6000 ≤ address.toNat ∧ address.toNat < 0x8000) :
    (machine.reset .powerOn).peek address = 0 := by
  have hPeek := machine.memory_peek_reset .powerOn address
  rw [if_pos ⟨rfl, h⟩] at hPeek
  simp only [peek, SystemBus.peek, hPeek]

/-! ## What is under way -/

/-- Nothing is under way: no interrupt waits in the processor or in the picture unit, no transfer is
active, and no signal waits. -/
structure Ready : Prop where
  nmiLatched : machine.cpu.nmiLatched = false
  irqCount : machine.cpu.irqCount = 0
  irqMasked : machine.cpu.irqMasked = true
  edge : machine.ppu.nmiLatched = false
  dma : machine.dma.isActive = false
  signals : machine.bus.signals = []

/-- After a reset of either kind nothing is under way. -/
theorem reset_ready (kind : Reset) : (machine.reset kind).Ready where
  nmiLatched := rfl
  irqCount := rfl
  irqMasked := rfl
  edge := rfl
  dma := rfl
  signals := rfl

/-- The processor starts where the vector points, and finds there what was there before the reset. -/
theorem reset_pc (kind : Reset) : (machine.reset kind).cpu.registers.pc =
    Word.ofBytes (machine.peek 0xFFFC) (machine.peek 0xFFFD) := by
  have hVector : (machine.reset kind).cpu.registers.pc =
      Word.ofBytes ((machine.reset kind).peek 0xFFFC) ((machine.reset kind).peek 0xFFFD) := rfl
  rw [hVector, peek_reset_of_kept machine kind (.inr (by decide)),
    peek_reset_of_kept machine kind (.inr (by decide))]

def nextInstruction : Instruction × Cpu × SystemBus :=
  let run := (Exec.executeNext machine.cpu.core).run machine.bus
  (run.1.1, machine.cpu.executed machine.cycles run.1.1 run.1.2, run.2)

/-- Its opcode is the byte that a peek finds there. -/
theorem nextInstruction_fst :
    machine.nextInstruction.1 = Instruction.decode (machine.peek machine.cpu.registers.pc) := by
  have hPeek : machine.peek machine.cpu.core.pc = (Bus.read machine.bus machine.cpu.core.pc).1 :=
    (machine.peek_agrees_with_read machine.cpu.core.pc).1
  calc
    machine.nextInstruction.1
        = Instruction.decode (Bus.read machine.bus machine.cpu.core.pc).1 :=
          Exec.executeNext_run_fst machine.cpu.core machine.bus
    _ = Instruction.decode (machine.peek machine.cpu.registers.pc) := by rw [← hPeek]; rfl

variable {machine}

theorem Ready.activity (h : machine.Ready) : machine.cpu.activity = .instruction := by
  simp [Cpu.activity, h.nmiLatched, h.irqCount]

/-- While nothing is under way, a step is the instruction at the program counter. -/
theorem Ready.step_eq (h : machine.Ready) :
    machine.step.1 = machine.nextInstruction.2.2.cycles - machine.cycles ∧
      machine.step.2 = ({ machine with
        cpu := machine.nextInstruction.2.1
        bus := machine.nextInstruction.2.2 } : Machine).applySignals.catchUp machine.step.1 := by
  have hActivity := h.activity
  have hStep : machine.cpu.stepOn machine.bus =
      (machine.nextInstruction.2.2.cycles - machine.cycles, machine.nextInstruction.2) := by
    -- The record of the instruction is made after its accesses, from what they left.
    have hRun : (machine.cpu.step machine.cycles).run machine.bus = machine.nextInstruction.2 := by
      rw [Cpu.step_eq_perform, hActivity, Cpu.perform, Cpu.executeNext, Script.run_bind]
      rfl
    rw [← hRun]
    rfl
  have hProcessor := stepProcessor_eq_stepOn h.dma
  rw [hStep] at hProcessor
  rw [Machine.step_eq, hProcessor]
  exact ⟨rfl, rfl⟩

/-! ## What a soft reset keeps -/

/-- What a soft reset keeps, where `machine` is the machine before it and `started` the machine after it. -/
structure SoftlyReset (machine started : Machine) : Prop where
  peek : ∀ address, ¬(0x2000 ≤ address.toNat ∧ address.toNat < 0x4000) →
    started.peek address = machine.peek address
  vram : ∀ address, Vram.read started.ppu.vram address = Vram.read machine.ppu.vram address
  oam : started.ppu.oam = machine.ppu.oam
  registers : started.cpu.registers =
    { machine.cpu.registers with
      s := machine.cpu.registers.s - 3
      p := { machine.cpu.registers.p with interruptDisable := true }
      pc := started.cpu.registers.pc }
  cycles : started.cycles = machine.cycles
  observers : started.bus.memory.observers = machine.bus.memory.observers
  config : started.config = machine.config
  tracing : started.cpu.tracing = machine.cpu.tracing
  shortOddFrames : started.ppu.shortOddFrames = machine.ppu.shortOddFrames

/-- A soft reset acts on the registers of both units and on no memory. -/
theorem softlyReset (machine : Machine) : machine.SoftlyReset (machine.reset .soft) where
  peek := fun _ hOutside => peek_eq_of_memory_peek rfl hOutside
  vram := fun _ => rfl
  oam := rfl
  registers := rfl
  cycles := rfl
  observers := rfl
  config := rfl
  tracing := rfl
  shortOddFrames := rfl

/-- **No event survives a reset.** Whatever was under way, the first step after a reset of either kind runs
the instruction at the address that the reset vector holds; and a soft reset keeps memory, the registers but
for the stack pointer and the flag that disables interrupts, the time, the observers and the settings. -/
theorem reset_starts_clean (machine : Machine) (kind : Reset) :
    let started := machine.reset kind
    started.Ready ∧
      started.cpu.registers.pc = Word.ofBytes (machine.peek 0xFFFC) (machine.peek 0xFFFD) ∧
      started.nextInstruction.1 = Instruction.decode (started.peek started.cpu.registers.pc) ∧
      started.step.1 = started.nextInstruction.2.2.cycles - started.cycles ∧
      started.step.2 = ({ started with
        cpu := started.nextInstruction.2.1
        bus := started.nextInstruction.2.2 } : Machine).applySignals.catchUp started.step.1 ∧
      machine.SoftlyReset (machine.reset .soft) := by
  intro started
  have hReady : started.Ready := machine.reset_ready kind
  exact ⟨hReady, machine.reset_pc kind, started.nextInstruction_fst, hReady.step_eq.1, hReady.step_eq.2,
    machine.softlyReset⟩

/-! ## Power-on -/

/-- The same cartridge and expansion window, the same observers with the same state, and the same settings in
the parts that obey them. -/
structure SameSetup (machine other : Machine) : Prop where
  patterns : ∀ address, address.toNat < 0x2000 →
    Vram.read machine.ppu.vram address = Vram.read other.ppu.vram address
  bytes : ∀ address, 0x4000 ≤ address.toNat ∧ address.toNat < 0x6000 ∨ 0x8000 ≤ address.toNat →
    machine.peek address = other.peek address
  observer : ∀ address,
    machine.bus.memory.observers.lookup address = other.bus.memory.observers.lookup address
  tracing : machine.cpu.tracing = other.cpu.tracing
  shortOddFrames : machine.ppu.shortOddFrames = other.ppu.shortOddFrames

namespace SameSetup

variable {machine other : Machine}

/-- With the same setup, both machines show the same bytes wherever power-on clears nothing. -/
theorem memory_peek (h : machine.SameSetup other) {address : UInt16}
    (hKept : 0x4000 ≤ address.toNat ∧ address.toNat < 0x6000 ∨ 0x8000 ≤ address.toNat) :
    machine.bus.memory.peek address = other.bus.memory.peek address := by
  have hOutside : MainMemory.isRegister address = false := MainMemory.isRegister_eq_false (by omega)
  rcases machine.bus.memory.read_of_not_isRegister (δ := Ppu) hOutside with ⟨value, hPeek, -⟩
  rcases other.bus.memory.read_of_not_isRegister (δ := Ppu) hOutside with ⟨byte, hPeekOther, -⟩
  have hBytes := h.bytes address hKept
  simp only [peek, SystemBus.peek, hPeek, hPeekOther] at hBytes
  rw [hPeek, hPeekOther, hBytes]

/-- Every byte of main memory is the same after power-on: the cleared ones, and those of the setup. -/
theorem powerOn_memory (h : machine.SameSetup other) :
    (machine.reset .powerOn).bus.memory.Alike (other.reset .powerOn).bus.memory where
  peek address := by
    rw [memory_peek_reset, memory_peek_reset]
    -- Cleared, a register without a byte of its own, or kept.
    by_cases hWork : address.toNat < 0x2000 ∨ 0x6000 ≤ address.toNat ∧ address.toNat < 0x8000
    · simp only [hWork, and_self, if_true]
    · simp only [hWork, and_false, if_false]
      by_cases hWindow : 0x2000 ≤ address.toNat ∧ address.toNat < 0x4000
      · have hRegister := (MainMemory.isRegister_iff address).mpr hWindow
        rw [MainMemory.peek_of_isRegister _ hRegister, MainMemory.peek_of_isRegister _ hRegister]
      · exact h.memory_peek (by omega)
  observer := h.observer

/-- The picture unit starts over but for the patterns, and those are the same. -/
theorem powerOn_ppu (h : machine.SameSetup other) :
    (machine.reset .powerOn).ppu.Alike (other.reset .powerOn).ppu := by
  refine ⟨Vram.clearWork other.ppu.vram, ?_, fun address => ?_⟩
  · have hDots : other.ppu.shortOddFrames = machine.ppu.shortOddFrames := h.shortOddFrames.symm
    have hReset : (other.reset .powerOn).ppu =
        { (machine.reset .powerOn).ppu with
          vram := Vram.clearWork other.ppu.vram
          shortOddFrames := other.ppu.shortOddFrames } := rfl
    rw [hReset, hDots]
    rfl
  · have hVram : (machine.reset .powerOn).ppu.vram = Vram.clearWork machine.ppu.vram := rfl
    rw [hVram, Vram.read_clearWork, Vram.read_clearWork]
    by_cases hPatterns : address.toNat % 0x4000 < 0x2000
    · -- The setup speaks of the patterns at their own addresses, and this may be a repeat of one.
      have hFolded : (UInt16.ofNat (address.toNat % 0x4000)).toNat < 0x2000 := by
        rw [UInt16.toNat_ofNat_of_lt' (Nat.lt_trans hPatterns (by decide))]
        exact hPatterns
      have hSame := h.patterns _ hFolded
      rw [Vram.read_folded, Vram.read_folded] at hSame
      simp only [if_pos hPatterns, hSame]
    · simp only [if_neg hPatterns]

/-- After power-on, two machines of the same setup differ in the latch of the instruction bytes at most. -/
theorem powerOn_alike (h : machine.SameSetup other) :
    (machine.reset .powerOn).Alike (other.reset .powerOn) where
  cpu := by
    have hEntry : (other.reset .powerOn).cpu.registers.pc = (machine.reset .powerOn).cpu.registers.pc := by
      rw [reset_pc, reset_pc, h.bytes 0xFFFC (.inr (by decide)), h.bytes 0xFFFD (.inr (by decide))]
    have hTracing : other.cpu.tracing = machine.cpu.tracing := h.tracing.symm
    -- The entry, the latch and the setting are all that power-on takes over from before.
    have hReset (console : Machine) : (console.reset .powerOn).cpu =
        { core := { pc := (console.reset .powerOn).cpu.registers.pc, fetched := console.cpu.core.fetched }
          tracing := console.cpu.tracing } := rfl
    refine ⟨other.cpu.core.fetched, ?_⟩
    rw [hReset other, hReset machine, hEntry, hTracing]
    rfl
  dma := rfl
  bus := { memory := h.powerOn_memory, ppu := h.powerOn_ppu, cycles := rfl, signals := rfl }

end SameSetup

/-- **Power-on erases the past.** Take any two machines of the same setup, whatever happened to them before.
Once both are switched on, a host sees no difference between them, then and after any number of steps; and
every step takes as long on one as on the other. -/
theorem powerOn_erases_the_past {machine other : Machine} (h : machine.SameSetup other) (n : Nat) :
    ((machine.reset .powerOn).after n).SameView ((other.reset .powerOn).after n) ∧
      ((machine.reset .powerOn).after n).step.1 = ((other.reset .powerOn).after n).step.1 := by
  have hAlike := h.powerOn_alike.after n
  exact ⟨hAlike.sameView, hAlike.step.1⟩

/-- A machine that was stopped in the middle of a transfer, with interrupts that wait and bytes in memory of
every kind, beside one that was never used. -/
theorem powerOn_erases_interrupted_transfer :
    let unused : Machine := { bus := { memory := { cells := Ram.zero 16 } } }
    let stopped : Machine :=
      { cpu := { core := { a := 7, fetched := { first := 0xA9, second := 7, count := 2 } }
                 nmiLatched := true, irqCount := 3, irqMasked := false }
        dma := SpriteTransfer.start 2
        bus :=
          { memory := (unused.bus.memory.write 0x12 0x5C unused.ppu).2.1
            ppu :=
              { vram := Vram.write (Ram.zero 16) 0x2345 7
                oam := (Ram.zero 8).set 9 1
                nmiLatched := true }
            cycles := 77
            signals := [.raiseIrq] } }
    stopped.SameSetup unused ∧ stopped.peek 0x12 = 0x5C ∧ unused.peek 0x12 = 0 ∧
      ((stopped.reset .powerOn).after 3).SameView ((unused.reset .powerOn).after 3) ∧
      ((stopped.reset .powerOn).after 3).step.1 = ((unused.reset .powerOn).after 3).step.1 := by
  intro unused stopped
  have hSetup : stopped.SameSetup unused :=
    { patterns := by
        intro address hPatterns
        -- The byte that was left in video memory is not a pattern byte.
        have hCell : Vram.cell address < 0x2000 :=
          (Vram.cell_lt_patterns_iff address).mpr (by omega)
        have hElsewhere : Vram.cell 0x2345 ≠ Vram.cell address := by
          have hWritten : Vram.cell 0x2345 = 0x2345 := by decide
          omega
        have hRead := Vram.read_write (Ram.zero 16) 0x2345 address 7
        rw [if_neg hElsewhere] at hRead
        exact hRead
      bytes := by
        intro address hKept
        refine peek_eq_of_memory_peek ?_ (by omega)
        -- Nor is the byte in working memory one of those that a power-on keeps.
        have hPlace : MainMemory.place 0x12 ≠ MainMemory.place address := by
          have hWritten : MainMemory.place 0x12 = .cell 0x12 := by decide
          have hNotWork : ¬address.toNat < 0x2000 := by omega
          have hNotRegister : ¬address.toNat < 0x4000 := by omega
          rw [hWritten, MainMemory.place, if_neg hNotWork, if_neg hNotRegister]
          intro hSame
          injection hSame
          omega
        have hPeek := unused.bus.memory.peek_write 0x12 address 0x5C unused.ppu
        rw [if_neg hPlace] at hPeek
        exact hPeek
      observer := fun _ => rfl
      tracing := rfl
      shortOddFrames := rfl }
  exact ⟨hSetup, by decide +kernel, by decide +kernel, powerOn_erases_the_past hSetup 3⟩

end Machine

end NesMachine
