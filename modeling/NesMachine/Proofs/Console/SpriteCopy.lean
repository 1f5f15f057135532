import Mathlib.Algebra.BigOperators.Intervals
import NesMachine.Proofs.Console.Build
import NesMachine.Proofs.Console.Peek
import NesMachine.Proofs.Console.Steps
import NesMachine.Proofs.Ppu.Events

/-!
# A sprite transfer from end to end

Once a transfer waits for its even cycle, the next 257 steps belong to it. They fill sprite memory with the
bytes that the engine reads, one a step, and leave the processor's side as it was.

* `SpriteTransfer.stage`: the engine after a number of steps.
* `Machine.Hosted.signals_eq_nil`: no signal waits between steps.
* `Machine.Held`: what the steps of a transfer keep.
* `Machine.after_oam`: the bytes that have arrived.
* `Machine.transfer_is_exact`: the transfer as a whole.
-/

namespace NesMachine

/-! ## Sprite memory -/

/-- Reading a register changes no sprite byte. -/
theorem Ppu.readRegister_oam (ppu : Ppu) (address : UInt16) :
    (ppu.readRegister address).2.oam = ppu.oam := by
  rw [readRegister]
  cases PpuRegister.ofAddress address with
  | data =>
    simp only [dataRead]
    split
    · rfl
    · rfl
  | _ => rfl

/-- Nor does any other read by the processor or by the engine. -/
theorem MainMemory.read_oam (memory : MainMemory) (address : UInt16) (ppu : Ppu) :
    (memory.read address ppu).2.oam = ppu.oam := by
  rw [read]
  cases place address with
  | cell cell => rfl
  | device folded => exact ppu.readRegister_oam (UInt16.ofNat folded)

/-! ## The engine -/

namespace SpriteTransfer

def stage (page : UInt8) : Nat → SpriteTransfer
  | 0 => start page
  | n + 1 => { state := if n < 256 then .copying (UInt8.ofNat n) else .idle, page }

variable (page : UInt8) {n : Nat}

theorem stage_copying (h : n < 256) :
    stage page (n + 1) = { state := .copying (UInt8.ofNat n), page } := by
  rw [stage, if_pos h]

theorem stage_done : (stage page 257).state = .idle := by
  rw [stage, if_neg (Nat.lt_irrefl 256)]

/-- Until then the engine is active. -/
theorem stage_isActive (h : n < 257) : (stage page n).isActive = true := by
  cases n with
  | zero => rfl
  | succ n =>
    rw [stage_copying page (Nat.lt_of_succ_lt_succ h)]
    rfl

/-- The offset goes up to `$FF`, and the engine stops there. -/
theorem step_stage (h : n < 257) (now : Nat) :
    ((stage page n).step now).next = stage page (n + 1) := by
  cases n with
  | zero => rfl
  | succ n =>
    have hCopying : n < 256 := Nat.lt_of_succ_lt_succ h
    rw [stage_copying page hCopying]
    by_cases hLast : n = 255
    · subst hLast
      rfl
    · have hMore : n + 1 < 256 := by omega
      have hOffset : UInt8.ofNat n ≠ 0xFF := by
        intro hEq
        have hNat := congrArg UInt8.toNat hEq
        rw [UInt8.toNat_ofNat_of_lt' hCopying] at hNat
        exact hLast hNat
      have hNext : UInt8.ofNat n + 1 = UInt8.ofNat (n + 1) := (UInt8.ofNat_add n 1).symm
      rw [stage_copying page hMore, step]
      simp only [if_neg hOffset, hNext]

/-- Aligning takes one cycle or two, so that the copies start at an even one; each copy takes two. -/
theorem step_stage_cycles (h : n < 257) (now : Nat) :
    ((stage page n).step now).cycles = if n = 0 then 1 + now % 2 else 2 := by
  cases n with
  | zero => rfl
  | succ n =>
    rw [stage_copying page (Nat.lt_of_succ_lt_succ h)]
    rfl

/-- Each later step copies the next byte of the page. -/
theorem step_stage_copy (h : n < 256) (now : Nat) :
    ((stage page (n + 1)).step now).copy =
      some { source := Word.ofBytes (UInt8.ofNat n) page, offset := UInt8.ofNat n } := by
  rw [stage_copying page h]
  rfl

end SpriteTransfer

namespace Machine

/-! ## Between steps -/

/-- The machines that a host can hold: one that was built, whatever was asked of it since. -/
inductive Hosted : Machine → Prop
  | build {program patterns : List UInt8} {config : Config} {built : Machine} :
      Machine.build program patterns config = .ok built → Hosted built
  | step {machine : Machine} : Hosted machine → Hosted machine.step.2
  | reset {machine : Machine} (kind : Reset) : Hosted machine → Hosted (machine.reset kind)
  | mapPpu {machine : Machine} (f : Ppu → Ppu) : Hosted machine → Hosted (machine.mapPpu f)
  | setRegisters {machine : Machine} (registers : Registers) :
      Hosted machine → Hosted (machine.setRegisters registers)
  | setTracing {machine : Machine} (on : Bool) : Hosted machine → Hosted (machine.setTracing on)
  | observe {machine : Machine} (address : UInt16) (observer : Observer) :
      Hosted machine → Hosted (machine.observe address observer).2

/-- Signals are raised and acted on within a step, so that a host never finds one waiting. -/
theorem Hosted.signals_eq_nil {machine : Machine} (h : Hosted machine) :
    machine.bus.signals = [] := by
  induction h with
  | build hBuild =>
    rcases build_eq_ok_iff.mp hBuild with ⟨lower, upper, -, -, rfl⟩
    rfl
  | step _ _ => exact step_signals _
  | reset kind _ _ => rfl
  | mapPpu f _ ih => exact ih
  | setRegisters registers _ ih => exact ih
  | setTracing on _ ih => exact ih
  | observe address observer _ ih => exact ih

/-! ## One step -/

/-- What a transfer keeps of the machine: the processor, whose NMI latch may be set, and main memory. -/
structure Held (start now : Machine) : Prop where
  cpu : now.cpu = start.cpu ∨ now.cpu = start.cpu.latchNmi
  memory : now.bus.memory = start.bus.memory
  signals : now.bus.signals = []
  config : now.config = start.config

variable {start machine : Machine}

/-- At its start a transfer has changed nothing. -/
theorem Held.refl (h : start.bus.signals = []) : start.Held start where
  cpu := .inl rfl
  memory := rfl
  signals := h
  config := rfl

/-- A step of the transfer keeps what the steps before it kept. -/
theorem Held.step (h : start.Held machine) (hActive : machine.dma.isActive = true) :
    start.Held machine.step.2 := by
  have hCpu : machine.step.2.cpu = machine.cpu ∨ machine.step.2.cpu = machine.cpu.latchNmi := by
    rw [step_of_active hActive h.signals, stepProcessor_of_active hActive, catchUp]
    simp only
    split
    · exact .inr rfl
    · exact .inl rfl
  have hMemory : machine.step.2.bus.memory = machine.bus.memory := by
    rw [machine.step_memory, stepProcessor_of_active hActive]
    exact machine.bus.copied_memory _
  have hConfig : machine.step.2.config = machine.config := by
    rw [step_of_active hActive h.signals, stepProcessor_of_active hActive]
    rfl
  refine ⟨?_, hMemory.trans h.memory, machine.step_signals, hConfig.trans h.config⟩
  rcases hCpu with hSame | hLatched
  · rw [hSame]
    exact h.cpu
  · -- Latching twice is latching once.
    right
    rcases h.cpu with hBefore | hBefore
    · rw [hLatched, hBefore]
    · rw [hLatched, hBefore]
      rfl

def sourceByte (machine : Machine) (source : UInt16) : UInt8 :=
  (machine.bus.memory.read source machine.ppu).1

/-- A copying step stores one sprite byte: the one its source has just answered with. -/
theorem step_oam_of_copy {copy : SpriteTransfer.Copy} (hActive : machine.dma.isActive = true)
    (hCopy : (machine.dma.step machine.cycles).copy = some copy) :
    machine.step.2.ppu.oam =
      machine.ppu.oam.set copy.offset.toNat (machine.sourceByte copy.source) := by
  have hRead := machine.bus.memory.read_oam copy.source machine.ppu
  calc
    machine.step.2.ppu.oam = machine.stepProcessor.2.ppu.oam := by
      rw [step_ppu]
      exact Ppu.ticks_oam _ _
    _ = (machine.bus.copySprite copy).ppu.oam := by
      have hStep : (machine.dma.step machine.bus.cycles).copy = some copy := hCopy
      rw [stepProcessor_of_active hActive, hStep]
      rfl
    _ = machine.ppu.oam.set copy.offset.toNat (machine.sourceByte copy.source) := by
      rw [← hRead]
      rfl

/-! ## All steps -/

section Run

variable (hAligning : machine.dma.state = .aligning) (hSignals : machine.bus.signals = [])
include hAligning hSignals

/-- Throughout the transfer the engine goes from stage to stage, and the rest is held. -/
theorem after_stage {n : Nat} (hLe : n ≤ 257) :
    (machine.after n).dma = SpriteTransfer.stage machine.dma.page n ∧
      machine.Held (machine.after n) := by
  -- Each half needs the other: the stage says that the engine is active, the rest that no signal waits.
  induction n with
  | zero =>
    have hStart : machine.dma = SpriteTransfer.start machine.dma.page := by
      rw [SpriteTransfer.start, ← hAligning]
    exact ⟨hStart, .refl hSignals⟩
  | succ n ih =>
    rcases ih (Nat.le_of_succ_le hLe) with ⟨hDma, hHeld⟩
    have hActive : (machine.after n).dma.isActive = true := by
      rw [hDma]
      exact SpriteTransfer.stage_isActive _ hLe
    refine ⟨?_, hHeld.step hActive⟩
    rw [after, step_dma_of_active hActive hHeld.signals, hDma]
    exact SpriteTransfer.step_stage _ hLe _

/-- The transfer is active through all of its 257 steps. -/
theorem after_isActive {n : Nat} (h : n < 257) : (machine.after n).dma.isActive = true := by
  rw [(after_stage hAligning hSignals (Nat.le_of_lt h)).1]
  exact SpriteTransfer.stage_isActive _ h

/-- Only the first step depends on whether the transfer starts at an odd cycle. -/
theorem after_step_cycles {n : Nat} (h : n < 257) :
    (machine.after n).step.1 = if n = 0 then 1 + machine.cycles % 2 else 2 := by
  rw [step_cycles_of_active (after_isActive hAligning hSignals h),
    (after_stage hAligning hSignals (Nat.le_of_lt h)).1, SpriteTransfer.step_stage_cycles _ h]
  cases n with
  | zero => rfl
  | succ n => rfl

/-- One cycle or two to find an even one, and two for each byte. -/
theorem sum_step_cycles :
    ∑ n ∈ Finset.range 257, (machine.after n).step.1 = 513 + machine.cycles % 2 := by
  have hFirst : (machine.after 0).step.1 = 1 + machine.cycles % 2 :=
    after_step_cycles hAligning hSignals (by decide)
  have hRest : ∀ n ∈ Finset.range 256, (machine.after (n + 1)).step.1 = 2 := by
    intro n hMem
    have hLt : n + 1 < 257 := Nat.succ_lt_succ (Finset.mem_range.mp hMem)
    exact after_step_cycles hAligning hSignals hLt
  calc
    ∑ n ∈ Finset.range 257, (machine.after n).step.1
        = ∑ n ∈ Finset.range 256, (machine.after (n + 1)).step.1 + (machine.after 0).step.1 :=
          Finset.sum_range_succ' _ _
    _ = 256 * 2 + (1 + machine.cycles % 2) := by
          rw [Finset.sum_const_nat hRest, Finset.card_range, hFirst]
    _ = 513 + machine.cycles % 2 := by omega

/-- The bytes below the offset are those that the engine has read, each in a step of its own. -/
theorem after_oam {n : Nat} (hLe : n ≤ 256) {i : Nat} (hLt : i < n) :
    (machine.after (n + 1)).ppu.oam.get i =
      (machine.after (i + 1)).sourceByte (Word.ofBytes (UInt8.ofNat i) machine.dma.page) := by
  -- The newest byte is at the offset of the engine, and a step leaves those below it.
  induction n with
  | zero => cases hLt
  | succ n ih =>
    have hCopying : n < 256 := hLe
    have hActive := after_isActive hAligning hSignals (Nat.succ_lt_succ hCopying)
    have hCopy := SpriteTransfer.step_stage_copy machine.dma.page hCopying
      (machine.after (n + 1)).cycles
    rw [← (after_stage hAligning hSignals (Nat.succ_le_succ (Nat.le_of_lt hCopying))).1] at hCopy
    have hOffset : (UInt8.ofNat n).toNat = n := UInt8.toNat_ofNat_of_lt' hCopying
    rw [after, step_oam_of_copy hActive hCopy, hOffset, Ram.get_set]
    rcases Nat.lt_succ_iff_lt_or_eq.mp hLt with hEarlier | rfl
    · have hApart : ¬n % 2 ^ 8 = i % 2 ^ 8 := by omega
      rw [if_neg hApart]
      exact ih (Nat.le_of_lt hCopying) hEarlier
    · rw [if_pos rfl]

end Run

/-- The sources of a page follow one another without a carry. -/
theorem source_toNat (page : UInt8) {i : Nat} (h : i < 256) :
    (Word.ofBytes (UInt8.ofNat i) page).toNat = page.toNat * 256 + i := by
  rw [Word.toNat_ofBytes, UInt8.toNat_ofNat_of_lt' h]
  omega

/-- Outside the window of the registers the engine reads what a peek at the start returns. -/
theorem Held.sourceByte_of_memory (h : start.Held machine) {source : UInt16}
    (hMemory : MainMemory.isRegister source = false) :
    machine.sourceByte source = start.peek source := by
  rcases start.bus.memory.read_of_not_isRegister (δ := Ppu) hMemory with ⟨value, hPeek, hRead⟩
  calc
    machine.sourceByte source = (start.bus.memory.read source machine.ppu).1 := by
      rw [sourceByte, h.memory]
    _ = value := by rw [hRead]
    _ = start.peek source := by simp only [peek, SystemBus.peek, hPeek]

/-- Within the window it reads the register. -/
theorem sourceByte_of_register (machine : Machine) {source : UInt16}
    (hRegister : MainMemory.isRegister source = true) :
    machine.sourceByte source =
      (machine.ppu.readRegister (UInt16.ofNat (0x2000 + source.toNat % 8))).1 := by
  rw [sourceByte, MainMemory.read_of_isRegister _ hRegister]
  rfl

/-- **A sprite transfer is exact.** From the step in which the engine waits for its even cycle, 257 steps
belong to the transfer. They take 513 cycles, or 514 from an odd one, and keep the processor, up to its NMI
latch, and main memory. At the end sprite memory holds the page as a peek at the start would have shown it,
or, for a page of registers, the byte that each read of a register returned in its step. That no signal
waits is so in every machine that a host can hold. -/
theorem transfer_is_exact {machine : Machine} (hAligning : machine.dma.state = .aligning)
    (hSignals : machine.bus.signals = []) :
    let page := machine.dma.page.toNat
    let done := machine.after 257
    (∀ n < 257, (machine.after n).dma.isActive = true) ∧ done.dma.state = .idle ∧
      ∑ n ∈ Finset.range 257, (machine.after n).step.1 =
        (if machine.cycles % 2 = 0 then 513 else 514) ∧
      (∀ n ≤ 257, machine.Held (machine.after n)) ∧
      (¬(0x20 ≤ page ∧ page ≤ 0x3F) → ∀ i < 256,
        done.ppu.oam.get i = machine.peek (UInt16.ofNat (page * 256 + i))) ∧
      (0x20 ≤ page ∧ page ≤ 0x3F → ∀ i < 256,
        done.ppu.oam.get i =
          ((machine.after (i + 1)).ppu.readRegister (UInt16.ofNat (0x2000 + i % 8))).1) := by
  intro page done
  have hStages {n : Nat} (h : n ≤ 257) := after_stage hAligning hSignals h
  refine ⟨fun n => after_isActive hAligning hSignals, ?_, ?_, fun n hLe => (hStages hLe).2, ?_, ?_⟩
  · rw [(hStages (Nat.le_refl 257)).1]
    exact SpriteTransfer.stage_done _
  · -- The 256 copies take 512 cycles, and the step that waits for the even cycle takes one or two.
    rw [sum_step_cycles hAligning hSignals]
    split
    · omega
    · omega
  · intro hPage i hLt
    have hSource : (Word.ofBytes (UInt8.ofNat i) machine.dma.page).toNat = page * 256 + i :=
      source_toNat _ hLt
    have hMemory : MainMemory.isRegister (Word.ofBytes (UInt8.ofNat i) machine.dma.page) = false := by
      rw [Bool.eq_false_iff, Ne, MainMemory.isRegister_iff, hSource]
      omega
    -- The source is outside the registers, so no earlier copy has changed it.
    have hHeld := (hStages (Nat.le_of_lt (Nat.succ_lt_succ hLt))).2
    rw [after_oam hAligning hSignals (Nat.le_refl 256) hLt, hHeld.sourceByte_of_memory hMemory,
      ← hSource, UInt16.ofNat_toNat]
  · intro hPage i hLt
    have hSource : (Word.ofBytes (UInt8.ofNat i) machine.dma.page).toNat = page * 256 + i :=
      source_toNat _ hLt
    -- Each copy reads the register, with what this read does to the device.
    have hRegister : MainMemory.isRegister (Word.ofBytes (UInt8.ofNat i) machine.dma.page) = true := by
      rw [MainMemory.isRegister_iff, hSource]
      omega
    have hIndex : (page * 256 + i) % 8 = i % 8 := by omega
    rw [after_oam hAligning hSignals (Nat.le_refl 256) hLt, sourceByte_of_register _ hRegister,
      hSource, hIndex]

/-- A transfer of page two, from an odd cycle. -/
theorem transfer_is_exact_of_page_two :
    let machine : Machine :=
      { dma := SpriteTransfer.start 2
        bus := { memory := { cells := (Ram.zero 16).set 0x207 0x5C }, cycles := 7 } }
    machine.dma.state = .aligning ∧ machine.bus.signals = [] ∧
      ∑ n ∈ Finset.range 257, (machine.after n).step.1 = 514 ∧
      (machine.after 257).ppu.oam.get 7 = 0x5C := by
  intro machine
  have hAligning : machine.dma.state = .aligning := rfl
  have hSignals : machine.bus.signals = [] := rfl
  have hExact := transfer_is_exact hAligning hSignals
  have hOdd : ¬machine.cycles % 2 = 0 := by decide
  have hPage : ¬(0x20 ≤ machine.dma.page.toNat ∧ machine.dma.page.toNat ≤ 0x3F) := by decide
  have hByte := hExact.2.2.2.2.1 hPage 7 (by decide)
  exact ⟨hAligning, hSignals, hExact.2.2.1.trans (if_neg hOdd), hByte.trans (by decide +kernel)⟩

end Machine

end NesMachine
