import NesMachine.Proofs.Cpu.IrqMasking
import NesMachine.Proofs.Cpu.Writes

/-!
# The shape of the status register

Two bits of the status register have no circuit of their own: bit 5 is always set and bit 4, which tells `BRK` and
`PHP` from a hardware interrupt, is only ever set in a copy on the stack. No step and no reset changes them, also
when the register is pulled from bytes on the stack that nobody has pushed there.

* `Flags.Shaped`: both bits as the processor keeps them.
* `Instruction.preserves_shaped`, `Cpu.Shaped.stepOn`: the instructions, then the steps.
* `Cpu.Command`, `Cpu.Shaped.after`: the runs.
* `Cpu.writes_of_entered`, `Cpu.writes_of_brk`, `Cpu.writes_of_php`: the copies on the stack.
* `Cpu.status_keeps_its_shape`: the register, its copies and the trace, after any run.
-/

namespace NesMachine

namespace Flags

variable {p : Flags}

/-- The unused bit is set and the break bit is clear. -/
structure Shaped (p : Flags) : Prop where
  unused : p.unused = true
  breakFlag : p.breakFlag = false

theorem bit_four (p : Flags) : Byte.bit p.toByte 4 = p.breakFlag :=
  Byte.bit_ofBits _ _ _ _ _ _ _ _ 4

theorem bit_five (p : Flags) : Byte.bit p.toByte 5 = p.unused :=
  Byte.bit_ofBits _ _ _ _ _ _ _ _ 5

theorem Shaped.bits (h : p.Shaped) : Byte.bit p.toByte 5 = true ∧ Byte.bit p.toByte 4 = false :=
  ⟨p.bit_five.trans h.unused, p.bit_four.trans h.breakFlag⟩

/-- A copy on the stack always has the unused bit, and the break bit as asked for. -/
theorem bits_toStack (p : Flags) (isBreak : Bool) :
    Byte.bit (p.toStack isBreak) 5 = true ∧ Byte.bit (p.toStack isBreak) 4 = isBreak :=
  ⟨bit_five _, bit_four _⟩

theorem powerOn_shaped : powerOn.Shaped :=
  ⟨rfl, rfl⟩

/-- Whatever byte is pulled, the two bits do not come from it. -/
theorem ofStack_shaped (byte : UInt8) : (ofStack byte).Shaped :=
  ⟨rfl, rfl⟩

theorem Shaped.disableInterrupts (h : p.Shaped) : { p with interruptDisable := true }.Shaped :=
  ⟨h.unused, h.breakFlag⟩

end Flags

/-! ## Instructions -/

/-- No operation on registers writes either of the two bits. -/
theorem ImpliedOp.apply_shaped (op : ImpliedOp) {r : Registers} (h : r.p.Shaped) : (op.apply r).p.Shaped := by
  cases op <;> exact ⟨h.unused, h.breakFlag⟩

/-- No operation that reads an operand does so. -/
theorem ReadOp.apply_shaped (op : ReadOp) (m : UInt8) {r : Registers} (h : r.p.Shaped) :
    (op.apply m r).p.Shaped := by
  cases op <;> exact ⟨h.unused, h.breakFlag⟩

theorem ShiftOp.apply_shaped (op : ShiftOp) (m : UInt8) {p : Flags} (h : p.Shaped) :
    (op.apply p m).2.Shaped := by
  cases op <;> exact ⟨h.unused, h.breakFlag⟩

/-- No operation that changes memory does so either. -/
theorem ModifyOp.apply_shaped (op : ModifyOp) (m : UInt8) {r : Registers} (h : r.p.Shaped) :
    (op.apply m r).2.p.Shaped := by
  cases op with
  | shift op => exact op.apply_shaped m h
  | _ => exact ⟨h.unused, h.breakFlag⟩

/-- No instruction touches the two bits, and those that load the register set them to what they always are. -/
theorem Instruction.preserves_shaped (instruction : Instruction) : instruction.Preserves Flags.Shaped := by
  cases instruction with
  | implied op => exact fun _ h => op.apply_shaped h
  | immediate op => exact fun m _ h => op.apply_shaped m h
  | read op mode => exact fun m _ h => op.apply_shaped m h
  | shiftAccumulator op => exact fun m _ h => op.apply_shaped m h
  | modify op mode => exact fun m _ h => op.apply_shaped m h
  | pla => exact fun _ _ h => ⟨h.unused, h.breakFlag⟩
  | plp => exact Flags.ofStack_shaped
  | rti => exact Flags.ofStack_shaped
  | brk => exact fun _ h => h.disableInterrupts
  | _ => trivial

namespace Cpu

/-! ## Runs -/

/-- What can be done to a processor without setting its registers. -/
inductive Command (σ : Type)
  | event (event : Event σ)
  | reset (kind : Reset) (bus : σ)
  | trace (on : Bool)

section Bus

variable {σ : Type} [Bus σ] {cpu : Cpu}

def obey (cpu : Cpu) : Command σ → Cpu
  | .event event => cpu.meet event
  | .reset kind bus => cpu.resetOn kind bus
  | .trace on => cpu.setTracing on

/-- The status register has its shape, and had it when the last record was taken. -/
structure Shaped (cpu : Cpu) : Prop where
  status : cpu.core.p.Shaped
  record : ∀ line, cpu.lastRecord = some line → line.registers.p.Shaped

/-- A step keeps the shape, in the register and in the record. -/
theorem Shaped.stepOn (h : cpu.Shaped) (bus : σ) : (cpu.stepOn bus).2.1.Shaped := by
  rcases step_cases (cpu.makes_accessesOn bus) with
    ⟨line, core, -, hMakes, hNext⟩ | ⟨instruction, core, -, hMakes, hNext⟩
  · have hEnsures : (Exec.interrupt line).Ensures Flags.Shaped fun _ => Flags.Shaped :=
      Exec.interrupt_ensures (fun _ hShaped => Flags.Shaped.disableInterrupts hShaped) line
    rw [hNext]
    refine ⟨hEnsures _ _ _ h.status hMakes, ?_⟩
    cases line <;> exact h.record
  · have hEnsures := Exec.executeNext_ensures fun instruction =>
      Exec.execute_ensures instruction.preserves_shaped
    rw [hNext]
    refine ⟨hEnsures _ _ _ h.status hMakes, fun line hLine => ?_⟩
    -- A record is taken of the registers before the instruction.
    cases hTracing : cpu.tracing with
    | false =>
      simp only [executed, hTracing, Bool.false_eq_true, if_false] at hLine
      exact h.record line hLine
    | true =>
      simp only [executed, hTracing, if_true, Option.some.injEq] at hLine
      rw [← hLine]
      exact h.status

/-- A reset sets or keeps the shape. -/
theorem Shaped.resetOn (h : cpu.Shaped) (kind : Reset) (bus : σ) : (cpu.resetOn kind bus).Shaped := by
  refine ⟨?_, fun line hLine => by cases hLine⟩
  cases kind with
  | powerOn => exact Flags.powerOn_shaped
  | soft => exact h.status.disableInterrupts

/-- Dropping the record loses nothing. -/
theorem Shaped.setTracing (h : cpu.Shaped) (on : Bool) : (cpu.setTracing on).Shaped := by
  refine ⟨h.status, fun line hLine => ?_⟩
  cases on with
  | false => cases hLine
  | true => exact h.record line hLine

/-- Every command keeps the shape. -/
theorem Shaped.obey (h : cpu.Shaped) (command : Command σ) : (cpu.obey command).Shaped := by
  cases command with
  | event event =>
    cases event with
    | step bus => exact h.stepOn bus
    | nmi => exact ⟨h.status, h.record⟩
    | irq => exact ⟨h.status, h.record⟩
  | reset kind bus => exact h.resetOn kind bus
  | trace on => exact h.setTracing on

/-- So does every list of commands. -/
theorem Shaped.after (h : cpu.Shaped) (commands : List (Command σ)) : (commands.foldl Cpu.obey cpu).Shaped := by
  induction commands generalizing cpu with
  | nil => exact h
  | cons command rest ih => exact ih (h.obey command)

/-- The processor comes into being with the shape. -/
theorem shaped_default : ({} : Cpu).Shaped :=
  ⟨Flags.powerOn_shaped, fun line hLine => by cases hLine⟩

/-! ## Copies on the stack -/

variable {bus : σ}

/-- A step that has entered an interrupt was about to. -/
theorem activity_of_entered {line : Interrupt} (h : cpu.deedOn bus = .entered line) :
    cpu.activity = .entry line := by
  cases hActivity : cpu.activity with
  | entry other =>
    simp only [deedOn, hActivity, Deed.entered.injEq] at h
    rw [h]
  | instruction => simp [deedOn, hActivity] at h

/-- A step that has run an instruction read its opcode at the program counter. -/
theorem activity_of_ran {instruction : Instruction} (h : cpu.deedOn bus = .ran instruction) :
    cpu.activity = .instruction ∧ Instruction.decode (Bus.read bus cpu.core.pc).1 = instruction := by
  cases hActivity : cpu.activity with
  | entry other => simp [deedOn, hActivity] at h
  | instruction =>
    simp only [deedOn, hActivity, Deed.ran.injEq] at h
    exact ⟨rfl, h⟩

/-- What an instruction writes is what it is allowed to write after the fetch of its opcode. -/
theorem exchangesOn_of_ran {instruction : Instruction} (h : cpu.deedOn bus = .ran instruction) :
    ∃ rest, cpu.exchangesOn bus = .read cpu.core.pc (Bus.read bus cpu.core.pc).1 :: rest ∧
      instruction.Allows { cpu.registers with pc := cpu.registers.pc + 1 } rest := by
  rcases activity_of_ran h with ⟨hActivity, rfl⟩
  have hNext := (exchangesOn_of_instruction hActivity bus).trans (Exec.executeNext_exchanges cpu.core bus)
  exact ⟨_, hNext, Exec.execute_allowed ..⟩

/-- An interrupt entry pushes the program counter, high byte first, and the copy that is no break. -/
theorem writes_of_entered {line : Interrupt} (h : cpu.deedOn bus = .entered line) :
    Exchange.writes (cpu.exchangesOn bus) =
      cpu.registers.pushes
        [Word.high cpu.registers.pc, Word.low cpu.registers.pc, cpu.registers.p.toStack false] := by
  rw [exchangesOn_of_entry (activity_of_entered h)]
  exact Exec.interrupt_writes cpu.core bus line

/-- `BRK` pushes the address two behind its own, high byte first, and the copy that is a break. -/
theorem writes_of_brk (h : cpu.deedOn bus = .ran .brk) :
    Exchange.writes (cpu.exchangesOn bus) =
      cpu.registers.pushes
        [Word.high (cpu.registers.pc + 1 + 1), Word.low (cpu.registers.pc + 1 + 1),
          cpu.registers.p.toStack true] := by
  rcases exchangesOn_of_ran h with ⟨rest, hNext, hAllows⟩
  rw [hNext]
  exact hAllows

/-- `PHP` pushes the copy that is a break. -/
theorem writes_of_php (h : cpu.deedOn bus = .ran .php) :
    Exchange.writes (cpu.exchangesOn bus) = cpu.registers.pushes [cpu.registers.p.toStack true] := by
  rcases exchangesOn_of_ran h with ⟨rest, hNext, hAllows⟩
  rw [hNext]
  exact hAllows

/-- **The status register keeps its shape.** After any steps, on any buses, interrupts, resets of either kind and
switches of the trace, bit 5 of the register is set and bit 4 is clear, and so it is in the last record. Whatever
the next step is, the copies that it pushes have bit 5 set; bit 4 is set in the copy that `BRK` pushes behind the
return address and in the one that `PHP` pushes, and clear in the one that an interrupt entry pushes. -/
theorem status_keeps_its_shape (commands : List (Command σ)) (bus : σ) :
    let cpu := commands.foldl obey ({} : Cpu)
    let r := cpu.registers
    let writes := Exchange.writes (cpu.exchangesOn bus)
    (Byte.bit r.p.toByte 5 = true ∧ Byte.bit r.p.toByte 4 = false) ∧
    (∀ line, cpu.lastRecord = some line →
      Byte.bit line.registers.p.toByte 5 = true ∧ Byte.bit line.registers.p.toByte 4 = false) ∧
    (∀ interrupt, cpu.deedOn bus = .entered interrupt →
      ∃ status, writes = r.pushes [Word.high r.pc, Word.low r.pc, status] ∧
        Byte.bit status 5 = true ∧ Byte.bit status 4 = false) ∧
    (cpu.deedOn bus = .ran .brk →
      ∃ status, writes = r.pushes [Word.high (r.pc + 1 + 1), Word.low (r.pc + 1 + 1), status] ∧
        Byte.bit status 5 = true ∧ Byte.bit status 4 = true) ∧
    (cpu.deedOn bus = .ran .php →
      ∃ status, writes = r.pushes [status] ∧ Byte.bit status 5 = true ∧ Byte.bit status 4 = true) := by
  intro cpu r writes
  have h : cpu.Shaped := shaped_default.after commands
  -- Bit 4 tells the copies apart: an interrupt pushes it clear, `BRK` and `PHP` push it set.
  refine ⟨h.status.bits, fun line hLine => (h.record line hLine).bits, ?_, ?_, ?_⟩
  · intro interrupt hEntered
    exact ⟨_, writes_of_entered hEntered, r.p.bits_toStack false⟩
  · intro hBrk
    exact ⟨_, writes_of_brk hBrk, r.p.bits_toStack true⟩
  · intro hPhp
    exact ⟨_, writes_of_php hPhp, r.p.bits_toStack true⟩

end Bus

/-- `PLP` and `PHP`, and on the stack a byte with bit 4 set and bit 5 clear. -/
def pullThenPush : FlatBus :=
  { ram := ((Ram.zero 16).setBytes 0 [0x28, 0x08]).set 0x1FE 0x10 }

/-- The byte that `PLP` pulls leaves both bits alone, in the register, in the record and in the copy that `PHP`
pushes. -/
theorem status_keeps_its_shape_over_a_pull :
    let cpu := [Command.trace true, .event (.step pullThenPush)].foldl obey ({} : Cpu)
    (Byte.bit cpu.registers.p.toByte 5 = true ∧ Byte.bit cpu.registers.p.toByte 4 = false) ∧
    (∃ line, cpu.lastRecord = some line ∧ Byte.bit line.registers.p.toByte 4 = false) ∧
    ∃ status, Exchange.writes (cpu.exchangesOn pullThenPush) = cpu.registers.pushes [status] ∧
      Byte.bit status 5 = true ∧ Byte.bit status 4 = true := by
  intro cpu
  obtain ⟨hRegister, hRecord, -, -, hPhp⟩ :=
    status_keeps_its_shape [Command.trace true, .event (.step pullThenPush)] pullThenPush
  have hDeed : cpu.deedOn pullThenPush = .ran .php := by decide +kernel
  have hTraced : cpu.lastRecord = some { registers := {}, bytes := [0x28], cycles := 0 } := by
    decide +kernel
  exact ⟨hRegister, ⟨_, hTraced, (hRecord _ hTraced).2⟩, hPhp hDeed⟩

end Cpu

end NesMachine
