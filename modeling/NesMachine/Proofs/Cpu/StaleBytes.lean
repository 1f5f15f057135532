import NesMachine.Proofs.Bus.Alike
import NesMachine.Proofs.Cpu.Activity

/-!
# Stale bytes

Clearing the latch of the instruction bytes only resets its count, so that the bytes of earlier instructions
stay in its slots. No access, no register and no record depends on them.

* `Exec.Oblivious`: an execution that does not look into the latch.
* `Exec.executeNext_alike`: the next instruction starts with an empty latch, whatever stands in its slots.
* `Cpu.Alike`: two processors up to the bytes in the latch.
* `Cpu.step_alike`: they make the same step.
-/

namespace NesMachine

/-! ## The latch -/

namespace FetchLatch

def SameBytes (latch other : FetchLatch) : Prop :=
  latch.toList = other.toList

theorem toList_push (latch : FetchLatch) (byte : UInt8) :
    (latch.push byte).toList =
      if latch.toList.length = 3 then latch.toList else latch.toList ++ [byte] := by
  rcases latch with ⟨first, second, third, count⟩
  match count with
  | 0 => rfl
  | 1 => rfl
  | 2 => rfl
  | 3 => rfl

theorem SameBytes.push {latch other : FetchLatch} (h : SameBytes latch other) (byte : UInt8) :
    SameBytes (latch.push byte) (other.push byte) := by
  have hBytes : latch.toList = other.toList := h
  simp only [SameBytes, toList_push, hBytes]

end FetchLatch

/-- A relation between latches that the next byte keeps. -/
def KeptByPush (L : FetchLatch → FetchLatch → Prop) : Prop :=
  ∀ latch other byte, L latch other → L (latch.push byte) (other.push byte)

/-- The same registers, and latches that `L` relates. -/
structure Core.Alike (L : FetchLatch → FetchLatch → Prop) (core other : Core) : Prop where
  registers : core.toRegisters = other.toRegisters
  fetched : L core.fetched other.fetched

/-- Cores with the same registers differ in the latch at most. -/
theorem Core.eq_of_registers {core other : Core} (h : core.toRegisters = other.toRegisters) :
    other = { core with fetched := other.fetched } := by
  rcases other with ⟨registers, fetched⟩
  cases h
  rfl

namespace Exec

variable {α β : Type} {L : FetchLatch → FetchLatch → Prop}

def Agrees (L : FetchLatch → FetchLatch → Prop) (final other : α × Core) : Prop :=
  final.1 = other.1 ∧ final.2.Alike L other.2

/-- From cores that are alike, an execution makes the same accesses and leaves cores that are alike. -/
def Oblivious (L : FetchLatch → FetchLatch → Prop) (exec : Exec α) : Prop :=
  ∀ core other, core.Alike L other → Script.Alike (Agrees L) (exec core) (exec other)

namespace Oblivious

variable {exec : Exec α}

theorem pure (result : α) : Oblivious L (Pure.pure result : Exec α) := by
  intro core other hCore
  exact .done ⟨rfl, hCore⟩

/-- A sequence of parts that do not look at the latch does not look at it. -/
theorem bind {f : α → Exec β} (h : Oblivious L exec) (hNext : ∀ result, Oblivious L (f result)) :
    Oblivious L (exec >>= f) := by
  intro core other hCore
  refine (h core other hCore).bind ?_
  rintro ⟨result, middle⟩ ⟨_, middleOther⟩ ⟨rfl, hMiddle⟩
  exact hNext result middle middleOther hMiddle

theorem map (h : Oblivious L exec) (f : α → β) : Oblivious L (f <$> exec) :=
  h.bind fun result => pure (f result)

theorem ite {condition : Prop} [Decidable condition] {alternative : Exec α} (h : Oblivious L exec)
    (hElse : Oblivious L alternative) : Oblivious L (if condition then exec else alternative) := by
  by_cases hCondition : condition
  · simpa [hCondition] using h
  · simpa [hCondition] using hElse

end Oblivious

/-! ## Accesses -/

theorem registers_oblivious : Oblivious L registers := by
  intro core other hCore
  exact .done ⟨hCore.registers, hCore⟩

theorem update_oblivious (f : Registers → Registers) : Oblivious L (update f) := by
  intro core other hCore
  exact .done ⟨rfl, ⟨congrArg f hCore.registers, hCore.fetched⟩⟩

theorem setPC_oblivious (pc : UInt16) : Oblivious L (setPC pc) :=
  update_oblivious _

theorem read_oblivious (address : UInt16) : Oblivious L (read address) := by
  intro core other hCore
  exact .read fun byte => .done ⟨rfl, hCore⟩

theorem dummyRead_oblivious (address : UInt16) : Oblivious L (dummyRead address) := by
  intro core other hCore
  exact .read fun byte => .done ⟨rfl, hCore⟩

theorem write_oblivious (address : UInt16) (value : UInt8) : Oblivious L (write address value) := by
  intro core other hCore
  exact .write (.done ⟨rfl, hCore⟩)

/-- A push looks at the stack pointer only. -/
theorem push_oblivious (value : UInt8) : Oblivious L (push value) := by
  -- A store where the stack pointer points, and then the stack pointer moves.
  have hPush : push value = (registers >>= fun r => write r.stackAddress value >>= fun _ =>
      update fun r => { r with s := r.s - 1 }) := rfl
  rw [hPush]
  exact registers_oblivious.bind fun r => (write_oblivious r.stackAddress value).bind fun _ =>
    update_oblivious _

theorem dummyFetch_oblivious : Oblivious L dummyFetch :=
  registers_oblivious.bind fun r => dummyRead_oblivious r.pc

theorem pushWord_oblivious (word : UInt16) : Oblivious L (pushWord word) :=
  (push_oblivious _).bind fun _ => push_oblivious _

theorem pull_oblivious : Oblivious L pull :=
  (update_oblivious _).bind fun _ => registers_oblivious.bind fun r => read_oblivious r.stackAddress

theorem pullWord_oblivious : Oblivious L pullWord :=
  pull_oblivious.bind fun _ => pull_oblivious.bind fun _ => .pure _

theorem beforePull_oblivious : Oblivious L beforePull :=
  dummyFetch_oblivious.bind fun _ => registers_oblivious.bind fun r => dummyRead_oblivious r.stackAddress

theorem readWord_oblivious (low high : UInt16) : Oblivious L (readWord low high) :=
  (read_oblivious low).bind fun _ => (read_oblivious high).bind fun _ => .pure _

theorem indexed_oblivious (purpose : Purpose) (base : UInt16) (index : UInt8) :
    Oblivious L (indexed purpose base index) :=
  Oblivious.ite ((dummyRead_oblivious _).bind fun _ => .pure _) (.pure _)

theorem jumpThrough_oblivious (vector : UInt16) : Oblivious L (jumpThrough vector) :=
  (readWord_oblivious _ _).bind fun target => setPC_oblivious target

theorem enterHandler_oblivious (isBreak : Bool) (vector : UInt16) :
    Oblivious L (enterHandler isBreak vector) :=
  registers_oblivious.bind fun r => (pushWord_oblivious r.pc).bind fun _ =>
    registers_oblivious.bind fun r => (push_oblivious (r.p.toStack isBreak)).bind fun _ =>
      (update_oblivious _).bind fun _ => jumpThrough_oblivious vector

theorem interrupt_oblivious (line : Interrupt) : Oblivious L (interrupt line) :=
  dummyFetch_oblivious.bind fun _ => dummyFetch_oblivious.bind fun _ => enterHandler_oblivious _ _

theorem modifyAt_oblivious (op : ModifyOp) (address : UInt16) : Oblivious L (modifyAt op address) :=
  (read_oblivious address).bind fun old => (write_oblivious address old).bind fun _ =>
    registers_oblivious.bind fun r => (update_oblivious fun _ => (op.apply old r).2).bind fun _ =>
      write_oblivious address _

/-! ## Fetches -/

section Fetch

variable (hPush : KeptByPush L)
include hPush

/-- A fetch puts a byte in the latch, which keeps the relation by assumption. -/
theorem fetch_oblivious : Oblivious L fetch := by
  intro core other hCore
  have hPc : core.pc = other.pc := congrArg Registers.pc hCore.registers
  have hNext (byte : UInt8) : Core.Alike L
      { core with pc := core.pc + 1, fetched := core.fetched.push byte }
      { other with pc := other.pc + 1, fetched := other.fetched.push byte } :=
    ⟨congrArg (fun r : Registers => { r with pc := r.pc + 1 }) hCore.registers,
      hPush _ _ byte hCore.fetched⟩
  rw [fetch, hPc]
  rw [hPc] at hNext
  exact .read fun byte => .done ⟨rfl, hNext byte⟩

theorem fetchWord_oblivious : Oblivious L fetchWord :=
  (fetch_oblivious hPush).bind fun _ => (fetch_oblivious hPush).bind fun _ => .pure _

theorem zeroPageIndexed_oblivious (index : Registers → UInt8) : Oblivious L (zeroPageIndexed index) :=
  (fetch_oblivious hPush).bind fun _ => (dummyRead_oblivious _).bind fun _ =>
    registers_oblivious.bind fun _ => .pure _

theorem base_oblivious (mode : IndexedMode) : Oblivious L (base mode) := by
  cases mode with
  | absoluteX => exact fetchWord_oblivious hPush
  | absoluteY => exact fetchWord_oblivious hPush
  | indirectY => exact (fetch_oblivious hPush).bind fun _ => readWord_oblivious _ _

theorem address_oblivious (purpose : Purpose) (mode : MemoryMode) : Oblivious L (address purpose mode) := by
  cases mode with
  | zeroPage => exact (fetch_oblivious hPush).map _
  | zeroPageX => exact (zeroPageIndexed_oblivious hPush _).map _
  | zeroPageY => exact (zeroPageIndexed_oblivious hPush _).map _
  | absolute => exact fetchWord_oblivious hPush
  | indirectX => exact (zeroPageIndexed_oblivious hPush _).bind fun _ => readWord_oblivious _ _
  | indexed mode =>
    exact (base_oblivious hPush mode).bind fun start => registers_oblivious.bind fun r =>
      indexed_oblivious purpose start (index mode r)

theorem branch_oblivious (condition : Condition) : Oblivious L (branch condition) :=
  (fetch_oblivious hPush).bind fun _ => registers_oblivious.bind fun r =>
    Oblivious.ite
      ((dummyRead_oblivious r.pc).bind fun _ =>
        Oblivious.ite ((dummyRead_oblivious _).bind fun _ => setPC_oblivious _) (setPC_oblivious _))
      (.pure ())

theorem storeUnstable_oblivious (op : UnstableOp) (mode : IndexedMode) :
    Oblivious L (storeUnstable op mode) :=
  (base_oblivious hPush mode).bind fun start => registers_oblivious.bind fun r =>
    (indexed_oblivious .store start (index mode r)).bind fun _ => registers_oblivious.bind fun _ =>
      (update_oblivious op.apply).bind fun _ => write_oblivious _ _

/-- No instruction looks into the latch. -/
theorem execute_oblivious (instruction : Instruction) : Oblivious L (execute instruction) := by
  cases instruction with
  | implied op => exact dummyFetch_oblivious.bind fun _ => update_oblivious op.apply
  | immediate op =>
    exact (fetch_oblivious hPush).bind fun operand => update_oblivious (op.apply operand)
  | read op mode =>
    exact (address_oblivious hPush .load mode).bind fun target => (read_oblivious target).bind fun operand =>
      update_oblivious (op.apply operand)
  | store op mode =>
    exact (address_oblivious hPush .store mode).bind fun target => registers_oblivious.bind fun r =>
      write_oblivious target (op.value r)
  | storeUnstable op mode => exact storeUnstable_oblivious hPush op mode
  | shiftAccumulator op => exact dummyFetch_oblivious.bind fun _ => update_oblivious _
  | modify op mode =>
    exact (address_oblivious hPush .store mode).bind fun target => modifyAt_oblivious op target
  | branch condition => exact branch_oblivious hPush condition
  | jmp => exact (fetchWord_oblivious hPush).bind fun target => setPC_oblivious target
  | jmpIndirect =>
    exact (fetchWord_oblivious hPush).bind fun pointer => (readWord_oblivious pointer _).bind fun target =>
      setPC_oblivious target
  | jsr =>
    exact (fetch_oblivious hPush).bind fun _ => registers_oblivious.bind fun r =>
      (dummyRead_oblivious r.stackAddress).bind fun _ => registers_oblivious.bind fun r =>
        (pushWord_oblivious r.pc).bind fun _ => (fetch_oblivious hPush).bind fun _ => setPC_oblivious _
  | rts =>
    exact beforePull_oblivious.bind fun _ => pullWord_oblivious.bind fun pc =>
      (dummyRead_oblivious pc).bind fun _ => setPC_oblivious _
  | brk =>
    exact dummyFetch_oblivious.bind fun _ => (update_oblivious _).bind fun _ => enterHandler_oblivious _ _
  | rti =>
    exact beforePull_oblivious.bind fun _ => pull_oblivious.bind fun _ =>
      (update_oblivious _).bind fun _ => pullWord_oblivious.bind fun pc => setPC_oblivious pc
  | pha => exact dummyFetch_oblivious.bind fun _ => registers_oblivious.bind fun r => push_oblivious r.a
  | php =>
    exact dummyFetch_oblivious.bind fun _ => registers_oblivious.bind fun r =>
      push_oblivious (r.p.toStack true)
  | pla => exact beforePull_oblivious.bind fun _ => pull_oblivious.bind fun _ => update_oblivious _
  | plp => exact beforePull_oblivious.bind fun _ => pull_oblivious.bind fun _ => update_oblivious _

end Fetch

/-- The next instruction is the same, and so are its bytes, whatever bytes were there before it. -/
theorem executeNext_alike {core other : Core} (h : core.toRegisters = other.toRegisters) :
    Script.Alike (Agrees FetchLatch.SameBytes) (executeNext core) (executeNext other) := by
  have hPush : KeptByPush FetchLatch.SameBytes := fun _ _ byte hBytes => hBytes.push byte
  -- An empty latch has no bytes, and after that the latches fill up alike.
  have hCleared : Core.Alike FetchLatch.SameBytes
      { core with fetched := core.fetched.clear } { other with fetched := other.fetched.clear } :=
    ⟨h, rfl⟩
  have hRest : Oblivious FetchLatch.SameBytes (fetch >>= fun opcode =>
      execute (Instruction.decode opcode) >>= fun _ => pure (Instruction.decode opcode)) :=
    (fetch_oblivious hPush).bind fun opcode =>
      (execute_oblivious hPush (Instruction.decode opcode)).bind fun _ => .pure _
  exact hRest _ _ hCleared

end Exec

/-! ## The processor -/

namespace Cpu

def withLatch (cpu : Cpu) (latch : FetchLatch) : Cpu :=
  { cpu with core := { cpu.core with fetched := latch } }

/-- Two processors that differ in the bytes of the latch at most. -/
def Alike (cpu other : Cpu) : Prop :=
  ∃ latch, other = cpu.withLatch latch

theorem alike_of_registers (cpu : Cpu) {core other : Core} (h : core.toRegisters = other.toRegisters) :
    Alike { cpu with core } { cpu with core := other } :=
  ⟨other.fetched, congrArg (fun core => { cpu with core }) (Core.eq_of_registers h)⟩

/-- An interrupt entry looks at no byte in the latch. -/
theorem enter_alike (cpu : Cpu) (latch : FetchLatch) (line : Interrupt) :
    Script.Alike Alike (cpu.enter line) ((cpu.withLatch latch).enter line) := by
  have hCore : cpu.core.Alike (fun _ _ => True) (cpu.withLatch latch).core := ⟨rfl, trivial⟩
  refine (Exec.interrupt_oblivious line _ _ hCore).bind ?_
  rintro ⟨_, core⟩ ⟨_, other⟩ ⟨-, hNext⟩
  exact .done (alike_of_registers { cpu with irqMasked := true } hNext.registers)

/-- An instruction clears the latch before its first fetch, so what was there cannot be seen. -/
theorem executeNext_alike (cpu : Cpu) (latch : FetchLatch) (now : Nat) :
    Script.Alike Alike (cpu.executeNext now) ((cpu.withLatch latch).executeNext now) := by
  have hRegisters : cpu.core.toRegisters = (cpu.withLatch latch).core.toRegisters := rfl
  refine (Exec.executeNext_alike hRegisters).bind ?_
  rintro ⟨instruction, core⟩ ⟨_, other⟩ ⟨rfl, hNext⟩
  -- The record keeps the bytes of the instruction, and those are the same.
  have hBytes : core.fetched.toList = other.fetched.toList := hNext.fetched
  have hFlags : core.p = other.p := congrArg Registers.p hNext.registers
  have hSame : cpu.executed now instruction other =
      { cpu.executed now instruction core with core := other } := by
    simp only [executed, polled, record, hBytes, hFlags]
  have hAlike : Alike (cpu.executed now instruction core) (cpu.executed now instruction other) := by
    rw [hSame]
    exact alike_of_registers (cpu.executed now instruction core) hNext.registers
  exact .done hAlike

/-- Processors that are alike make the same accesses and stay alike. -/
theorem step_alike {cpu other : Cpu} (h : cpu.Alike other) (now : Nat) :
    Script.Alike Alike (cpu.step now) (other.step now) := by
  rcases h with ⟨latch, rfl⟩
  by_cases hNmi : cpu.nmiLatched
  · simpa [step, withLatch, hNmi] using enter_alike { cpu with nmiLatched := false } latch .nmi
  · by_cases hIrq : (0 < cpu.irqCount && !cpu.irqMasked) = true
    · simpa [step, withLatch, hNmi, hIrq] using
        enter_alike { cpu with irqCount := cpu.irqCount - 1 } latch .irq
    · simpa [step, withLatch, hNmi, hIrq] using executeNext_alike cpu latch now

end Cpu

end NesMachine
