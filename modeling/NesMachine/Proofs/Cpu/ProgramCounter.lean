import NesMachine.Proofs.Cpu.Activity
import NesMachine.Proofs.Cpu.Addressing
import NesMachine.Proofs.Cpu.StaleBytes

/-!
# Where the program counter goes

The program counter moves with every byte that is fetched, in many places of an instruction. Together the
fetches come to the length in the listing, whatever the opcode, and only branches, jumps, calls, returns
and `BRK` go anywhere else.

* `Instruction.nextOn`: the address of the next instruction.
* `Instruction.byteOn`: the bytes of the instruction, as they are fetched.
* `Exec.Consumes`: an execution takes so many bytes at the program counter and moves past them.
* `Exec.execute_consumes`: an instruction that does not transfer control takes its operand.
* `Cpu.control_flow_is_exact`: the program counter and the record after a step.
-/

namespace NesMachine

/-! ## Where an instruction leads -/

def Instruction.transfers : Instruction → Bool
  | .branch _ | .jmp | .jmpIndirect | .jsr | .rts | .rti | .brk => true
  | _ => false

/-- The bus once a call has pushed the address of its own last byte, high byte first. -/
def FlatBus.afterCall (bus : FlatBus) (r : Registers) : FlatBus :=
  let last := (r.pc.toNat + 2) % 0x10000
  let ram := bus.ram.set (0x100 + r.s.toNat) (UInt8.ofNat (last / 0x100))
  { bus with ram := ram.set (0x100 + (r.s.toNat + 0xFF) % 0x100) (UInt8.ofNat (last % 0x100)) }

def FlatBus.stackedWord (bus : FlatBus) (r : Registers) (above : Nat) : Nat :=
  bus.wordAt (0x100 + (r.s.toNat + above) % 0x100) (0x100 + (r.s.toNat + above + 1) % 0x100)

namespace Instruction

variable (r : Registers) (bus : FlatBus)

/-- The address of the next instruction, where `r` holds the registers before the opcode. -/
def nextOn (instruction : Instruction) : Nat :=
  let pc := r.pc.toNat
  let operand := bus.wordAt ((pc + 1) % 0x10000) ((pc + 2) % 0x10000)
  match instruction with
  | .branch condition =>
    let offset := (bus.ram.get ((pc + 1) % 0x10000)).toInt8.toInt
    if condition.holds r.p then ((pc + 2 + offset) % 0x10000).toNat else (pc + 2) % 0x10000
  | .jmp => operand
  | .jmpIndirect => bus.wordAt operand (operand / 0x100 * 0x100 + (operand + 1) % 0x100)
  | .jsr =>
    bus.byteAt ((pc + 1) % 0x10000) + 0x100 * (bus.afterCall r).byteAt ((pc + 2) % 0x10000)
  | .rts => (bus.stackedWord r 1 + 1) % 0x10000
  | .rti => bus.stackedWord r 2
  | .brk => bus.wordAt 0xFFFE 0xFFFF
  | instruction => (pc + instruction.form.length) % 0x10000

/-- The bytes of the instruction as they are fetched. A call fetches its last byte after its pushes. -/
def byteOn (instruction : Instruction) (i : Nat) : UInt8 :=
  let memory := if instruction = .jsr ∧ i = 2 then bus.afterCall r else bus
  memory.ram.get ((r.pc.toNat + i) % 0x10000)

/-- No instruction is longer than three bytes. -/
theorem length_le (instruction : Instruction) : instruction.form.length ≤ 3 := by
  have hMode (mode : Mode) : mode.operandLength ≤ 2 := by
    cases mode <;> decide
  have hOperand := hMode instruction.form.mode
  rw [Form.length]
  omega

/-- An instruction that sets no program counter goes on behind its own bytes. -/
theorem nextOn_of_not_transfers {instruction : Instruction} (h : instruction.transfers = false) :
    instruction.nextOn r bus = (r.pc.toNat + instruction.form.length) % 0x10000 := by
  cases instruction <;> first | rfl | cases h

end Instruction

/-! ## The stack in memory -/

section Stack

variable (r : Registers) (bus : FlatBus)

/-- The word on the stack wraps within page 1 byte by byte. -/
theorem FlatBus.stackedWord_eq (above : Nat) : bus.stackedWord r above =
    (Word.ofBytes (bus.ram.get (0x100 + (r.s + UInt8.ofNat above).toUInt16).toNat)
      (bus.ram.get (0x100 + (r.s + UInt8.ofNat above + 1).toUInt16).toNat)).toNat := by
  have hLow : 0x100 + (r.s.toNat + above) % 0x100 =
      (0x100 + (r.s + UInt8.ofNat above).toUInt16).toNat := by
    rw [Byte.toNat_stackAddress]
    simp
  have hHigh : 0x100 + (r.s.toNat + above + 1) % 0x100 =
      (0x100 + (r.s + UInt8.ofNat above + 1).toUInt16).toNat := by
    rw [Byte.toNat_stackAddress]
    simp
  rw [stackedWord, hLow, hHigh, wordAt_toNat]

/-- A call stores the high byte first and wraps within page 1 after it. -/
theorem FlatBus.afterCall_ram : (bus.afterCall r).ram =
    (bus.ram.set (0x100 + r.s.toUInt16).toNat (Word.high (r.pc + 1 + 1))).set
      (0x100 + (r.s - 1).toUInt16).toNat (Word.low (r.pc + 1 + 1)) := by
  have hHigh : UInt8.ofNat ((r.pc + 1 + 1).toNat / 0x100) = Word.high (r.pc + 1 + 1) := by
    rw [← Word.toNat_high, UInt8.ofNat_toNat]
  have hLow : UInt8.ofNat ((r.pc + 1 + 1).toNat % 0x100) = Word.low (r.pc + 1 + 1) := by
    rw [← Word.toNat_low, UInt8.ofNat_toNat]
  have hBelow : (r.s.toNat + 0xFF) % 0x100 = (r.s - 1).toNat := by
    rw [UInt8.toNat_sub, Nat.add_comm]
    rfl
  simp only [afterCall, Word.toNat_skip, hHigh, hLow, hBelow, Byte.toNat_stackAddress]

/-- A push leaves the rest of the memory as it is. -/
theorem Ram.get_push (ram : Ram 16) (s value : UInt8) {address : UInt16} (h : 0x200 ≤ address.toNat) :
    (ram.set (0x100 + s.toUInt16).toNat value).get address.toNat = ram.get address.toNat := by
  have hOffset := s.toNat_lt
  have hAddress := address.toNat_lt
  rw [Ram.get_set, Byte.toNat_stackAddress, if_neg]
  omega

end Stack

/-! ## Effects on registers keep the program counter -/

section Effects

variable (r : Registers)

theorem ImpliedOp.apply_pc (op : ImpliedOp) : (op.apply r).pc = r.pc := by
  cases op <;> rfl

theorem ReadOp.apply_pc (op : ReadOp) (m : UInt8) : (op.apply m r).pc = r.pc := by
  cases op <;> rfl

theorem UnstableOp.apply_pc (op : UnstableOp) : (op.apply r).pc = r.pc := by
  cases op <;> rfl

theorem ModifyOp.apply_pc (op : ModifyOp) (m : UInt8) : (op.apply m r).2.pc = r.pc := by
  cases op <;> rfl

end Effects

/-! ## Taking bytes -/

/-- Two cores that are equally far in the same instruction. -/
structure Core.SameProgress (core other : Core) : Prop where
  pc : core.pc = other.pc
  fetched : core.fetched = other.fetched

theorem Core.SameProgress.trans {core middle last : Core} (h : core.SameProgress middle)
    (hLast : middle.SameProgress last) : core.SameProgress last :=
  ⟨h.pc.trans hLast.pc, h.fetched.trans hLast.fetched⟩

def Core.cleared (core : Core) : Core :=
  { core with fetched := core.fetched.clear }

/-- Taking a byte and then some more is taking them all. -/
theorem Core.take_one_take (core : Core) (bus : FlatBus) (address : UInt16) (n : Nat) :
    (core.take bus 1).take (Bus.read bus address).2 n = core.take bus (n + 1) := by
  induction n with
  | zero => rfl
  | succ n ih =>
    rw [take, ih]
    rfl

/-- The latch holds the bytes that have been taken, as long as there is room. -/
theorem Core.take_toList (core : Core) (bus : FlatBus) {n : Nat} (h : n ≤ 3) :
    (core.cleared.take bus n).fetched.toList =
      (List.range n).map fun i => bus.ram.get ((core.pc.toNat + i) % 0x10000) := by
  induction n with
  | zero => rfl
  | succ n ih =>
    have hTaken := ih (Nat.le_of_succ_le h)
    -- A full latch would drop the byte.
    have hRoom : (core.cleared.take bus n).fetched.toList.length ≠ 3 := by
      rw [hTaken, List.length_map, List.length_range]
      omega
    have hPc : (core.cleared.take bus n).pc.toNat = (core.pc.toNat + n) % 0x10000 := by
      rw [core.cleared.take_registers bus n]
      simp [cleared]
    rw [take, FetchLatch.toList_push, if_neg hRoom, hTaken, hPc, List.range_succ, List.map_append]
    rfl

namespace Exec

variable {α β : Type} {n : Nat}

/-- The execution takes the next `n` bytes at the program counter and moves past them. -/
def Consumes (n : Nat) (exec : Exec α) : Prop :=
  ∀ core (bus : FlatBus), ((exec core).run bus).1.2.SameProgress (core.take bus n)

namespace Consumes

theorem pure (result : α) : Consumes 0 (Pure.pure result : Exec α) :=
  fun _ _ => ⟨rfl, rfl⟩

/-- A sequence consumes what its first part does, if the rest consumes nothing. -/
theorem bind {exec : Exec α} {f : α → Exec β} (h : exec.Consumes n)
    (hNext : ∀ result, (f result).Consumes 0) : (exec >>= f).Consumes n := by
  intro core bus
  rw [run_bind]
  exact (hNext _ _ _).trans (h core bus)

theorem ite {condition : Prop} [Decidable condition] {exec other : Exec α} (h : exec.Consumes n)
    (hOther : other.Consumes n) : (if condition then exec else other).Consumes n := by
  by_cases hCondition : condition
  · simpa [hCondition] using h
  · simpa [hCondition] using hOther

end Consumes

theorem registers_consumes : registers.Consumes 0 :=
  fun _ _ => ⟨rfl, rfl⟩

theorem update_consumes {f : Registers → Registers} (h : ∀ r, (f r).pc = r.pc) :
    (update f).Consumes 0 :=
  fun core _ => ⟨h core.toRegisters, rfl⟩

theorem read_consumes (address : UInt16) : (read address).Consumes 0 :=
  fun _ _ => ⟨rfl, rfl⟩

theorem dummyRead_consumes (address : UInt16) : (dummyRead address).Consumes 0 :=
  fun _ _ => ⟨rfl, rfl⟩

theorem write_consumes (address : UInt16) (value : UInt8) : (write address value).Consumes 0 :=
  fun _ _ => ⟨rfl, rfl⟩

theorem push_consumes (value : UInt8) : (push value).Consumes 0 :=
  fun _ _ => ⟨rfl, rfl⟩

theorem fetch_consumes : fetch.Consumes 1 :=
  fun _ _ => ⟨rfl, rfl⟩

theorem dummyFetch_consumes : dummyFetch.Consumes 0 :=
  registers_consumes.bind fun r => dummyRead_consumes r.pc

theorem pull_consumes : pull.Consumes 0 :=
  Consumes.bind (update_consumes (f := fun r => { r with s := r.s + 1 }) fun _ => rfl) fun _ =>
    registers_consumes.bind fun r => read_consumes r.stackAddress

theorem beforePull_consumes : beforePull.Consumes 0 :=
  dummyFetch_consumes.bind fun _ => registers_consumes.bind fun r => dummyRead_consumes r.stackAddress

theorem indexed_consumes (purpose : Purpose) (base : UInt16) (index : UInt8) :
    (indexed purpose base index).Consumes 0 :=
  Consumes.ite ((dummyRead_consumes _).bind fun _ => .pure _) (.pure _)

/-- The base of an indexed mode consumes the operand. -/
theorem base_consumes (mode : IndexedMode) : (base mode).Consumes mode.mode.operandLength := by
  cases mode <;> exact fun _ _ => ⟨rfl, rfl⟩

/-- Forming an address takes the operand, since resolving the mode does. -/
theorem address_consumes (use : OperandUse) (mode : MemoryMode) :
    (address (purposeOf use) mode).Consumes mode.mode.operandLength := by
  intro core bus
  have hResolve := congrArg (·.1.2) (resolve_run use core bus mode.mode)
  rw [resolve_mode, run_map] at hResolve
  have hAddress : ((address (purposeOf use) mode core).run bus).1.2 =
      core.take bus mode.mode.operandLength := hResolve
  rw [hAddress]
  exact ⟨rfl, rfl⟩

theorem modifyAt_consumes (op : ModifyOp) (address : UInt16) : (modifyAt op address).Consumes 0 :=
  fun _ _ => ⟨op.apply_pc _ _, rfl⟩

theorem storeUnstable_consumes (op : UnstableOp) (mode : IndexedMode) :
    (storeUnstable op mode).Consumes mode.mode.operandLength :=
  (base_consumes mode).bind fun start => registers_consumes.bind fun r =>
    (indexed_consumes .store start (index mode r)).bind fun _ => registers_consumes.bind fun _ =>
      (update_consumes op.apply_pc).bind fun _ => write_consumes _ _

/-- An instruction that does not transfer control takes its operand, and that is all it fetches. -/
theorem execute_consumes {instruction : Instruction} (h : instruction.transfers = false) :
    (execute instruction).Consumes instruction.form.mode.operandLength := by
  -- Each case is the body of `execute`, with one rule for each of its commands.
  cases instruction with
  | implied op => exact dummyFetch_consumes.bind fun _ => update_consumes op.apply_pc
  | immediate op => exact fetch_consumes.bind fun m => update_consumes fun r => op.apply_pc r m
  | read op mode =>
    exact (address_consumes .read mode).bind fun target => (read_consumes target).bind fun m =>
      update_consumes fun r => op.apply_pc r m
  | store op mode =>
    exact (address_consumes .write mode).bind fun target => registers_consumes.bind fun r =>
      write_consumes target (op.value r)
  | storeUnstable op mode => exact storeUnstable_consumes op mode
  | shiftAccumulator op =>
    exact dummyFetch_consumes.bind fun _ => update_consumes fun _ => rfl
  | modify op mode =>
    exact (address_consumes .modify mode).bind fun target => modifyAt_consumes op target
  | pha => exact dummyFetch_consumes.bind fun _ => registers_consumes.bind fun r => push_consumes r.a
  | php =>
    exact dummyFetch_consumes.bind fun _ => registers_consumes.bind fun r =>
      push_consumes (r.p.toStack true)
  | pla => exact beforePull_consumes.bind fun _ => pull_consumes.bind fun _ => update_consumes fun _ => rfl
  | plp => exact beforePull_consumes.bind fun _ => pull_consumes.bind fun _ => update_consumes fun _ => rfl
  | branch | jmp | jmpIndirect | jsr | rts | brk | rti => cases h

/-! ## Transfers of control -/

/-- A taken branch ends at its target, with an extra read or without. -/
theorem taken_core (pc target : UInt16) (core : Core) (bus : FlatBus) :
    (((do
      dummyRead pc
      if !Word.samePage pc target then
        dummyRead (Word.onPageOf pc target)
      setPC target : Exec Unit) core).run bus).1.2 = { core with pc := target } := by
  cases Word.samePage pc target <;> rfl

/-- A branch consumes its offset, whether it is taken or not. -/
theorem branch_progress (condition : Condition) (core : Core) (bus : FlatBus) :
    ((branch condition core).run bus).1.2.SameProgress
      { core.take bus 1 with
        pc :=
          if condition.holds core.p then core.pc + 1 + Byte.signExtend (bus.ram.get core.pc.toNat)
          else core.pc + 1 } := by
  let pc := core.pc + 1
  let target := pc + Byte.signExtend (bus.ram.get core.pc.toNat)
  let taken : Exec Unit := do
    dummyRead pc
    if !Word.samePage pc target then
      dummyRead (Word.onPageOf pc target)
    setPC target
  -- Once the offset is there, the flag alone decides what follows.
  have hBranch : ((branch condition core).run bus).1.2 =
      (((if condition.holds core.p then taken else pure ()) (core.take bus 1)).run
        (Bus.read bus core.pc).2).1.2 := rfl
  rw [hBranch]
  cases condition.holds core.p with
  | true =>
    have hTaken := taken_core pc target (core.take bus 1) (Bus.read bus core.pc).2
    exact ⟨congrArg (·.pc) hTaken, congrArg (·.fetched) hTaken⟩
  | false => exact ⟨rfl, rfl⟩

/-- The core that an instruction leaves, where the program counter of `core` is at its opcode. -/
def ranOn (core : Core) (bus : FlatBus) (instruction : Instruction) : Core :=
  ((execute instruction (core.cleared.take bus 1)).run (Bus.read bus core.pc).2).1.2

variable (core : Core) (bus : FlatBus)

/-- A branch goes on behind its offset, or from there by the offset. -/
theorem branch_pc (condition : Condition) : (ranOn core bus (.branch condition)).pc.toNat =
    (Instruction.branch condition).nextOn core.toRegisters bus := by
  have hProgress := branch_progress condition (core.cleared.take bus 1) (Bus.read bus core.pc).2
  have hTarget : (core.pc + 1 + 1 + Byte.signExtend (bus.ram.get (core.pc + 1).toNat)).toNat =
      ((core.pc.toNat + 2 + (bus.ram.get (core.pc + 1).toNat).toInt8.toInt) % 0x10000).toNat := by
    rw [Word.toNat_add_signExtend, ← Word.toNat_skip]
    omega
  simp only [Instruction.nextOn, Word.toNat_next, Word.toNat_skip, ← hTarget]
  rw [← apply_ite UInt16.toNat]
  exact congrArg UInt16.toNat hProgress.pc

theorem jmp_pc : (ranOn core bus .jmp).pc.toNat = Instruction.jmp.nextOn core.toRegisters bus := by
  simp only [Instruction.nextOn, Word.toNat_next, Word.toNat_skip, FlatBus.wordAt_toNat]
  rfl

theorem jmpIndirect_pc :
    (ranOn core bus .jmpIndirect).pc.toNat = Instruction.jmpIndirect.nextOn core.toRegisters bus := by
  simp only [Instruction.nextOn, Word.toNat_next, Word.toNat_skip, FlatBus.wordAt_toNat,
    Word.toNat_nextOnPage]
  rfl

theorem jsr_pc : (ranOn core bus .jsr).pc.toNat = Instruction.jsr.nextOn core.toRegisters bus := by
  simp only [Instruction.nextOn, Word.toNat_next, Word.toNat_skip, FlatBus.byteAt, FlatBus.afterCall_ram,
    ← Word.toNat_ofBytes]
  rfl

theorem rts_pc : (ranOn core bus .rts).pc.toNat = Instruction.rts.nextOn core.toRegisters bus := by
  simp only [Instruction.nextOn, FlatBus.stackedWord_eq, Word.toNat_next]
  rfl

theorem rti_pc : (ranOn core bus .rti).pc.toNat = Instruction.rti.nextOn core.toRegisters bus := by
  -- The status is pulled before the address.
  have hTwice : core.s + UInt8.ofNat 2 = core.s + 1 + 1 := (UInt8.add_assoc core.s 1 1).symm
  simp only [Instruction.nextOn, FlatBus.stackedWord_eq, hTwice]
  rfl

theorem brk_pc : (ranOn core bus .brk).pc.toNat = Instruction.brk.nextOn core.toRegisters bus := by
  let ret := core.pc + 1 + 1
  let first := bus.ram.set (0x100 + core.s.toUInt16).toNat (Word.high ret)
  let second := first.set (0x100 + (core.s - 1).toUInt16).toNat (Word.low ret)
  let third := second.set (0x100 + (core.s - 1 - 1).toUInt16).toNat (core.p.toStack true)
  -- The three pushes stay in their page, far from the vector.
  have hVector {address : UInt16} (h : 0x200 ≤ address.toNat) :
      third.get address.toNat = bus.ram.get address.toNat := by
    rw [Ram.get_push _ _ _ h, Ram.get_push _ _ _ h, Ram.get_push _ _ _ h]
  calc
    (ranOn core bus .brk).pc.toNat
        = (Word.ofBytes (third.get (0xFFFE : UInt16).toNat) (third.get (0xFFFF : UInt16).toNat)).toNat := rfl
    _ = bus.wordAt (0xFFFE : UInt16).toNat (0xFFFF : UInt16).toNat := by
          rw [hVector (by decide), hVector (by decide), FlatBus.wordAt_toNat]

/-! ## Every opcode -/

/-- With its opcode, an instruction that does not transfer control takes the bytes of its form. -/
theorem ranOn_progress {instruction : Instruction} (h : instruction.transfers = false) :
    (ranOn core bus instruction).SameProgress (core.cleared.take bus instruction.form.length) := by
  have hOperand := execute_consumes h (core.cleared.take bus 1) (Bus.read bus core.pc).2
  rw [Core.take_one_take, Nat.add_comm] at hOperand
  exact hOperand

/-- Every instruction ends with the program counter at the address of the next one. -/
theorem ranOn_pc (instruction : Instruction) :
    (ranOn core bus instruction).pc.toNat = instruction.nextOn core.toRegisters bus := by
  cases hTransfers : instruction.transfers with
  | false =>
    rw [(ranOn_progress core bus hTransfers).pc, Core.take_registers,
      Instruction.nextOn_of_not_transfers _ _ hTransfers]
    simp [Core.cleared]
  | true =>
    cases instruction with
    | branch condition => exact branch_pc core bus condition
    | jmp => exact jmp_pc core bus
    | jmpIndirect => exact jmpIndirect_pc core bus
    | jsr => exact jsr_pc core bus
    | rts => exact rts_pc core bus
    | rti => exact rti_pc core bus
    | brk => exact brk_pc core bus
    | _ => cases hTransfers

/-- But for a call, the bytes that are fetched are those that stand there before the instruction. -/
theorem ranOn_fetched {instruction : Instruction} (h : instruction ≠ .jsr) :
    (ranOn core bus instruction).fetched =
      (core.cleared.take bus instruction.form.length).fetched := by
  cases hTransfers : instruction.transfers with
  | false => exact (ranOn_progress core bus hTransfers).fetched
  | true =>
    cases instruction with
    | branch condition =>
      exact (branch_progress condition (core.cleared.take bus 1) (Bus.read bus core.pc).2).fetched
    | jmp | jmpIndirect | rts | rti | brk => rfl
    | jsr => exact absurd rfl h
    | _ => cases hTransfers

/-- A call fetches its last byte when the return address has been pushed, and may read that very byte. -/
theorem jsr_fetched : (ranOn core bus .jsr).fetched = (core.cleared.take bus 2).fetched.push
    ((bus.afterCall core.toRegisters).ram.get ((core.pc.toNat + 2) % 0x10000)) := by
  simp only [Word.toNat_skip, FlatBus.afterCall_ram]
  rfl

/-- The record holds exactly the bytes that were fetched for the instruction. -/
theorem ranOn_toList (instruction : Instruction) : (ranOn core bus instruction).fetched.toList =
    (List.range instruction.form.length).map (instruction.byteOn core.toRegisters bus) := by
  by_cases hCall : instruction = .jsr
  · -- Two bytes come before the pushes, and the third one after them.
    subst hCall
    rw [jsr_fetched, FetchLatch.toList_push, core.take_toList bus (by decide : 2 ≤ 3)]
    rfl
  · rw [ranOn_fetched core bus hCall, core.take_toList bus (Instruction.length_le instruction)]
    refine List.map_congr_left fun i _ => ?_
    simp [Instruction.byteOn, hCall]

end Exec

/-! ## The processor -/

/-- **Every opcode leads to the right address and fetches the right bytes.** On any flat bus, where no
interrupt is to be entered, a step runs the instruction whose opcode stands at the program counter. It
leaves the program counter at `Instruction.nextOn`: past the bytes of the instruction, unless it is a taken
branch, a jump, a call, a return or `BRK`. If the step is traced, the record holds the registers and the
cycles from before it, and exactly the bytes of the instruction. -/
theorem Cpu.control_flow_is_exact (cpu : Cpu) (bus : FlatBus) (h : cpu.activity = .instruction) :
    let instruction := Instruction.decode (bus.ram.get cpu.registers.pc.toNat)
    let next := (cpu.stepOn bus).2.1
    next.registers.pc.toNat = instruction.nextOn cpu.registers bus ∧
    (cpu.tracing = true → next.lastRecord = some
      { registers := cpu.registers
        bytes := (List.range instruction.form.length).map (instruction.byteOn cpu.registers bus)
        cycles := bus.cycles }) := by
  intro instruction next
  have hNext : next = cpu.executed bus.cycles instruction (Exec.ranOn cpu.core bus instruction) := by
    have hStep := congrArg Prod.fst (Cpu.stepOn_snd_of_instruction h bus)
    rw [Exec.executeNext_run] at hStep
    exact hStep
  rw [hNext]
  refine ⟨Exec.ranOn_pc cpu.core bus instruction, fun hTracing => ?_⟩
  have hBytes := Exec.ranOn_toList cpu.core bus instruction
  rw [Cpu.executed, if_pos hTracing, Cpu.record, hBytes]
  rfl

def Cpu.callingFromStack : Cpu :=
  { core := { pc := 0x01FB, s := 0xFD }, tracing := true }

/-- Memory with a call whose operand stands where its return address will be pushed. -/
def FlatBus.callInStack : FlatBus :=
  { ram := (((Ram.zero 16).set 0x01FB 0x20).set 0x01FC 0x34).set 0x01FD 0x12 }

/-- The call `JSR $1234` goes to `$0134`, since its push has changed its own last byte. -/
theorem Cpu.call_over_its_own_operand :
    let next := (callingFromStack.stepOn FlatBus.callInStack).2.1
    callingFromStack.activity = .instruction ∧ next.registers.pc.toNat = 0x0134 ∧
      next.lastRecord = some
        { registers := callingFromStack.registers, bytes := [0x20, 0x34, 0x01], cycles := 0 } := by
  intro next
  have hActivity : callingFromStack.activity = .instruction := by decide
  rcases control_flow_is_exact callingFromStack FlatBus.callInStack hActivity with ⟨hPc, hRecord⟩
  exact ⟨hActivity, hPc.trans (by decide +kernel), (hRecord rfl).trans (by decide +kernel)⟩

end NesMachine
