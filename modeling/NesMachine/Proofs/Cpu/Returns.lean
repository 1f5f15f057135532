import NesMachine.Proofs.Cpu.FlatSteps

/-!
# Calls, interrupts and returns

What goes on the stack comes back from it: a return undoes a call or an interrupt entry, and a pull undoes a
push. The pushes and the pulls are written apart, so they have to agree on the order of the bytes, on which
byte of a call its return address is, on the two flags that the stack has of its own, and on where the stack
pointer wraps.

* `Ram.stackAt`, `Ram.stack`: the bytes of the stack page.
* `FlatMachine.Runs.jsr`, `FlatMachine.Runs.rts` and so on: the step of each instruction.
* `FlatMachine.Interrupts`: what `BRK` and the interrupt entries have in common.
* `FlatMachine.returns_to_where_it_left`: each pair of steps.
-/

namespace NesMachine

/-! ## The stack page -/

namespace Ram

def stackAt (ram : Ram 16) (s : UInt8) : UInt8 :=
  ram.get (0x100 + s.toUInt16).toNat

def stack (ram : Ram 16) (s value : UInt8) : Ram 16 :=
  ram.set (0x100 + s.toUInt16).toNat value

/-- The places of the stack are apart. -/
theorem stackAt_stack (ram : Ram 16) (s t value : UInt8) :
    (ram.stack s value).stackAt t = if s = t then value else ram.stackAt t := by
  have hS := s.toNat_lt
  have hT := t.toNat_lt
  have hSame : (0x100 + s.toUInt16).toNat % 2 ^ 16 = (0x100 + t.toUInt16).toNat % 2 ^ 16 ↔ s = t := by
    rw [← UInt8.toNat_inj, Byte.toNat_stackAddress, Byte.toNat_stackAddress]
    omega
  rw [stackAt, stack, Ram.get_set]
  simp only [hSame, stackAt]

end Ram

/-! Three places in a row are different ones, also where the stack pointer wraps. -/

theorem Byte.below_ne (s : UInt8) : s - 1 ≠ s :=
  forall_of_all (P := fun s => s - 1 ≠ s) (by decide +kernel) s

theorem Byte.below_below_ne (s : UInt8) : s - 1 - 1 ≠ s :=
  forall_of_all (P := fun s => s - 1 - 1 ≠ s) (by decide +kernel) s

theorem Word.ofBytes_low_high (word : UInt16) : ofBytes (low word) (high word) = word := by
  rw [← UInt16.toNat_inj, toNat_ofBytes, toNat_low, toNat_high]
  omega

/-- The two flags that the processor has no circuit for come back with fixed values. -/
theorem Flags.ofStack_toStack (p : Flags) (isBreak : Bool) :
    ofStack (p.toStack isBreak) = { p with unused := true, breakFlag := false } := by
  rw [ofStack, toStack, ofByte_toByte]

/-! ## Steps -/

namespace FlatMachine

variable {machine : FlatMachine}

namespace Runs

/-- A call pushes the address of its last byte. Where it goes depends on its bytes, the last of which is
fetched after the pushes. -/
theorem jsr (h : machine.Runs .jsr) :
    let r := machine.registers
    let last := r.pc + 1 + 1
    ∃ target, machine.step.registers = { r with pc := target, s := r.s - 1 - 1 } ∧
      machine.step.ram = (machine.ram.stack r.s (Word.high last)).stack (r.s - 1) (Word.low last) := by
  intro r last
  rw [h.step_eq rfl]
  exact ⟨_, rfl, rfl⟩

/-- A return takes the word above the stack pointer and goes on behind it. -/
theorem rts (h : machine.Runs .rts) :
    let r := machine.registers
    machine.step.registers =
      { r with
        pc := Word.ofBytes (machine.ram.stackAt (r.s + 1)) (machine.ram.stackAt (r.s + 1 + 1)) + 1
        s := r.s + 1 + 1 } := by
  intro r
  rw [h.step_eq rfl]
  rfl

/-- A return from an interrupt takes the status, and then the address as it stands. -/
theorem rti (h : machine.Runs .rti) :
    let r := machine.registers
    machine.step.registers =
      { r with
        pc := Word.ofBytes (machine.ram.stackAt (r.s + 1 + 1)) (machine.ram.stackAt (r.s + 1 + 1 + 1))
        s := r.s + 1 + 1 + 1
        p := Flags.ofStack (machine.ram.stackAt (r.s + 1)) } := by
  intro r
  rw [h.step_eq rfl]
  rfl

/-- Pushing the accumulator stores it and lowers the pointer. -/
theorem pha (h : machine.Runs .pha) :
    let r := machine.registers
    machine.step.registers = { r with pc := r.pc + 1, s := r.s - 1 } ∧
      machine.step.ram = machine.ram.stack r.s r.a := by
  intro r
  rw [h.step_eq rfl]
  exact ⟨rfl, rfl⟩

/-- Pulling the accumulator takes the byte above the pointer and sets two flags by it. -/
theorem pla (h : machine.Runs .pla) :
    let r := machine.registers
    let value := machine.ram.stackAt (r.s + 1)
    machine.step.registers =
      { r with pc := r.pc + 1, s := r.s + 1, a := value, p := r.p.setZN value } := by
  intro r value
  rw [h.step_eq rfl]
  rfl

/-- The status is pushed with both of the bits that the register lacks. -/
theorem php (h : machine.Runs .php) :
    let r := machine.registers
    machine.step.registers = { r with pc := r.pc + 1, s := r.s - 1 } ∧
      machine.step.ram = machine.ram.stack r.s (r.p.toStack true) := by
  intro r
  rw [h.step_eq rfl]
  exact ⟨rfl, rfl⟩

/-- Pulling the status ignores both of these bits. -/
theorem plp (h : machine.Runs .plp) :
    let r := machine.registers
    machine.step.registers =
      { r with pc := r.pc + 1, s := r.s + 1, p := Flags.ofStack (machine.ram.stackAt (r.s + 1)) } := by
  intro r
  rw [h.step_eq rfl]
  rfl

end Runs

/-! ## The way to a handler -/

/-- The step pushes a return address and the status, disables interrupts and leads to an instruction. -/
structure Interrupts (machine : FlatMachine) (ret : UInt16) (isBreak : Bool) : Prop where
  registers : ∃ handler, machine.step.registers =
    { machine.registers with
      pc := handler
      s := machine.registers.s - 1 - 1 - 1
      p := { machine.registers.p with interruptDisable := true } }
  ram :
    let s := machine.registers.s
    machine.step.ram =
      ((machine.ram.stack s (Word.high ret)).stack (s - 1) (Word.low ret)).stack (s - 1 - 1)
        (machine.registers.p.toStack isBreak)
  activity : machine.step.cpu.activity = .instruction

/-- No interrupt comes between where the poll has found them masked and no NMI is latched. -/
theorem activity_eq_instruction {cpu : Cpu} (hNmi : cpu.nmiLatched = false)
    (hMasked : cpu.irqMasked = true) : cpu.activity = .instruction := by
  simp [Cpu.activity, hNmi, hMasked]

/-- A `BRK` is an interrupt whose return address skips the byte behind the opcode. -/
theorem Runs.brk (h : machine.Runs .brk) :
    machine.Interrupts (machine.registers.pc + 1 + 1) true := by
  have hNmi : machine.cpu.nmiLatched = false :=
    Cpu.nmiLatched_of_activity_ne (by simp [h.activity])
  have hStep := h.step_eq rfl
  refine ⟨?_, ?_, ?_⟩
  · rw [hStep]
    exact ⟨_, rfl⟩
  · rw [hStep]
    rfl
  · rw [hStep]
    exact activity_eq_instruction hNmi rfl

theorem step_of_entry {line : Interrupt} (h : machine.cpu.activity = .entry line) :
    let entry := (Exec.interrupt line machine.cpu.core).run machine.bus
    machine.step = { cpu := machine.cpu.entered line entry.1.2, bus := entry.2 } := by
  intro entry
  rw [step, Cpu.stepOn_snd_of_entry h]

/-- An entry is an interrupt that returns to the instruction it has put off. -/
theorem interrupts_of_entry {line : Interrupt} (h : machine.cpu.activity = .entry line) :
    machine.Interrupts machine.registers.pc false := by
  have hStep := step_of_entry h
  -- An NMI is taken off its line, and an IRQ has waited for one that was latched.
  have hNmi : (machine.cpu.acknowledge line).nmiLatched = false := by
    cases line with
    | nmi => rfl
    | irq => exact (machine.cpu.activity_eq_irq_iff.mp h).1
  refine ⟨?_, ?_, ?_⟩
  · rw [hStep]
    exact ⟨_, rfl⟩
  · rw [hStep]
    rfl
  · rw [hStep]
    exact activity_eq_instruction hNmi rfl

/-! ## The way back -/

/-- A return from an interrupt restores all registers and goes on at the return address. -/
theorem Interrupts.returns {ret : UInt16} {isBreak : Bool} (h : machine.Interrupts ret isBreak)
    (hUnused : machine.registers.p.unused = true) (hBreak : machine.registers.p.breakFlag = false)
    (hReturn : machine.step.instruction = .rti) :
    machine.step.step.registers = { machine.registers with pc := ret } := by
  rcases h.registers with ⟨handler, hRegisters⟩
  have hStep := Runs.rti ⟨h.activity, hReturn⟩
  have hStatus : Flags.ofStack (machine.registers.p.toStack isBreak) = machine.registers.p := by
    rw [Flags.ofStack_toStack, ← hUnused, ← hBreak]
  rw [hStep, hRegisters, h.ram]
  -- The pulls find the three pushed bytes, each at the place that no later push has reached.
  simp only [UInt8.sub_add_cancel, Ram.stackAt_stack, ↓reduceIte, hStatus, UInt8.sub_left_inj,
    Byte.below_ne, Byte.below_below_ne, Word.ofBytes_low_high]

/-- A return from a call goes on behind it with the registers of the caller. -/
theorem Runs.jsr_returns (h : machine.Runs .jsr) (hReturn : machine.step.Runs .rts) :
    machine.step.step.registers = { machine.registers with pc := machine.registers.pc + 3 } := by
  rcases h.jsr with ⟨target, hRegisters, hRam⟩
  have hNext : machine.registers.pc + 1 + 1 + 1 = machine.registers.pc + 3 := by
    rw [UInt16.add_assoc, UInt16.add_assoc]
    rfl
  rw [hReturn.rts, hRegisters, hRam, ← hNext]
  simp only [UInt8.sub_add_cancel, Ram.stackAt_stack, ↓reduceIte, Byte.below_ne, Word.ofBytes_low_high]

/-- The accumulator that was pushed is pulled again, and the flags tell of it. -/
theorem Runs.pha_returns (h : machine.Runs .pha) (hReturn : machine.step.Runs .pla) :
    let r := machine.registers
    machine.step.step.registers = { r with pc := r.pc + 1 + 1, p := r.p.setZN r.a } := by
  intro r
  rw [hReturn.pla, h.pha.1, h.pha.2]
  simp [Ram.stackAt_stack, r]

/-- The status that was pushed is pulled again. -/
theorem Runs.php_returns (h : machine.Runs .php) (hUnused : machine.registers.p.unused = true)
    (hBreak : machine.registers.p.breakFlag = false) (hReturn : machine.step.Runs .plp) :
    machine.step.step.registers = { machine.registers with pc := machine.registers.pc + 1 + 1 } := by
  rw [hReturn.plp, h.php.1, h.php.2]
  simp [Ram.stackAt_stack, Flags.ofStack_toStack, ← hUnused, ← hBreak]

/-- **Calls and interrupts return to where they left, at every stack pointer.** On any flat bus, in every state
whose status is one that the stack gives back, with the unused flag set and the break flag clear: an `RTS` at
the place to which a call has led ends behind the call, with all other registers as before it. An `RTI` at the
start of a handler ends in the registers from before the entry, or behind the padding byte of `BRK`; no
interrupt comes between. `PLA` gives the accumulator back that `PHA` has pushed, with the flags of a load, and
`PLP` the status that `PHP` has pushed. -/
theorem returns_to_where_it_left (machine : FlatMachine)
    (hUnused : machine.registers.p.unused = true) (hBreak : machine.registers.p.breakFlag = false) :
    let r := machine.registers
    (machine.Runs .jsr → machine.step.Runs .rts →
      machine.step.step.registers = { r with pc := r.pc + 3 }) ∧
    (∀ line, machine.cpu.activity = .entry line → machine.step.instruction = .rti →
      machine.step.step.registers = r) ∧
    (machine.Runs .brk → machine.step.instruction = .rti →
      machine.step.step.registers = { r with pc := r.pc + 2 }) ∧
    (machine.Runs .pha → machine.step.Runs .pla →
      machine.step.step.registers = { r with pc := r.pc + 2, p := r.p.setZN r.a }) ∧
    (machine.Runs .php → machine.step.Runs .plp →
      machine.step.step.registers = { r with pc := r.pc + 2 }) := by
  intro r
  -- The lemmas move the program counter one byte at a time.
  have hSkip : r.pc + 2 = machine.registers.pc + 1 + 1 := (UInt16.add_assoc r.pc 1 1).symm
  rw [hSkip]
  refine ⟨Runs.jsr_returns, ?_, ?_, Runs.pha_returns, ?_⟩
  · intro line hEntry hReturn
    exact (interrupts_of_entry hEntry).returns hUnused hBreak hReturn
  · intro hBrk hReturn
    exact hBrk.brk.returns hUnused hBreak hReturn
  · intro hPhp hReturn
    exact hPhp.php_returns hUnused hBreak hReturn

/-- A machine with `JSR $0300` at `$0200`, `RTS` at `$0300`, `RTI` at the handler of an NMI, and a stack pointer
that wraps with the second push. -/
def atBottomOfStack (nmi : Bool) : FlatMachine :=
  { cpu := { core := { pc := 0x0200, s := 0 }, nmiLatched := nmi }
    bus := { ram := ((((Ram.zero 16).setBytes 0x0200 [0x20, 0x00, 0x03]).set 0x0300 0x60).setBytes 0x0400
      [0x40]).setBytes 0xFFFA [0x00, 0x04] } }

/-- The return address of a call stands at `$0100` and `$01FF`, and that of an NMI as well, with the status at
`$01FE`. -/
theorem returns_over_the_wrap :
    let calling := atBottomOfStack false
    let interrupted := atBottomOfStack true
    calling.Runs .jsr ∧ calling.step.Runs .rts ∧ calling.step.registers.s = 0xFE ∧
      calling.step.step.registers = { calling.registers with pc := 0x0203 } ∧
      interrupted.cpu.activity = .entry .nmi ∧ interrupted.step.instruction = .rti ∧
      interrupted.step.registers.s = 0xFD ∧ interrupted.step.step.registers = interrupted.registers := by
  intro calling interrupted
  have hCall : calling.Runs .jsr := ⟨by decide, by decide +kernel⟩
  have hReturn : calling.step.Runs .rts := ⟨by decide +kernel, by decide +kernel⟩
  have hEntry : interrupted.cpu.activity = .entry .nmi := by decide
  have hHandler : interrupted.step.instruction = .rti := by decide +kernel
  exact ⟨hCall, hReturn, by decide +kernel,
    (returns_to_where_it_left calling (by decide) (by decide)).1 hCall hReturn,
    hEntry, hHandler, by decide +kernel,
    (returns_to_where_it_left interrupted (by decide) (by decide)).2.1 .nmi hEntry hHandler⟩

end FlatMachine

end NesMachine
