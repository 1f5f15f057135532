import NesMachine.Cpu.Basic
import NesMachine.Proofs.Bus.Accesses

/-!
# The status register across an instruction

`Exec.Ensures` says what an execution does to the flags, on every branch: flags that satisfy one property
before it lead to flags that satisfy another after it. Most parts of an instruction leave the flags alone, so
that a property is kept by an instruction if it is kept by the operation that the instruction is for. Only five
operations write the flag that disables interrupts.

* `Exec.Ensures.bind`: properties along a sequence.
* `Exec.Keeps`: an execution that leaves the flags alone.
* `Instruction.Preserves`, `Exec.execute_ensures`: from an operation to its instruction.
* `Exec.executeNext_interruptDisable`: all but five instructions keep the flag.
* `Exec.interrupt_disables`: an entry sets it.
-/

namespace NesMachine

def Instruction.writesInterruptDisable : Instruction → Bool
  | .implied .cli | .implied .sei | .plp | .rti | .brk => true
  | _ => false

/-- Whatever its operand and the other registers are, the operation of the instruction takes flags with the
property to flags with the property. -/
def Instruction.Preserves (property : Flags → Prop) : Instruction → Prop
  | .implied op => ∀ r : Registers, property r.p → property (op.apply r).p
  | .immediate op | .read op _ => ∀ (m : UInt8) (r : Registers), property r.p → property (op.apply m r).p
  | .shiftAccumulator op => ∀ (m : UInt8) (p : Flags), property p → property (op.apply p m).2
  | .modify op _ => ∀ (m : UInt8) (r : Registers), property r.p → property (op.apply m r).2.p
  | .pla => ∀ (m : UInt8) (p : Flags), property p → property (p.setZN m)
  | .plp | .rti => ∀ byte : UInt8, property (Flags.ofStack byte)
  | .brk => ∀ p : Flags, property p → property { p with interruptDisable := true }
  | .store _ _ | .storeUnstable _ _ | .branch _ | .jmp | .jmpIndirect | .jsr | .rts | .pha | .php => True

/-! ## Operations -/

/-- Of the operations on registers, two alone write the flag; arithmetic writes other ones. -/
theorem ImpliedOp.apply_interruptDisable {op : ImpliedOp} (hCli : op ≠ .cli) (hSei : op ≠ .sei)
    (r : Registers) : (op.apply r).p.interruptDisable = r.p.interruptDisable := by
  cases op with
  | cli => exact absurd rfl hCli
  | sei => exact absurd rfl hSei
  | _ => rfl

/-- No operation that reads an operand writes the flag. -/
theorem ReadOp.apply_interruptDisable (op : ReadOp) (m : UInt8) (r : Registers) :
    (op.apply m r).p.interruptDisable = r.p.interruptDisable := by
  cases op <;> rfl

/-- The unstable stores change no flag. -/
theorem UnstableOp.apply_p (op : UnstableOp) (r : Registers) : (op.apply r).p = r.p := by
  cases op <;> rfl

theorem ShiftOp.apply_interruptDisable (op : ShiftOp) (p : Flags) (m : UInt8) :
    (op.apply p m).2.interruptDisable = p.interruptDisable := by
  cases op <;> rfl

/-- No operation that changes memory writes the flag. -/
theorem ModifyOp.apply_interruptDisable (op : ModifyOp) (m : UInt8) (r : Registers) :
    (op.apply m r).2.p.interruptDisable = r.p.interruptDisable := by
  cases op with
  | shift op => exact op.apply_interruptDisable r.p m
  | _ => rfl

/-- All instructions but the five keep the flag. -/
theorem Instruction.preserves_interruptDisable (flag : Bool) {instruction : Instruction}
    (h : instruction.writesInterruptDisable = false) :
    instruction.Preserves (·.interruptDisable = flag) := by
  cases instruction with
  | implied op =>
    -- `CLI` and `SEI` are excluded by the hypothesis, and so are `PLP`, `RTI` and `BRK`.
    have hCli : op ≠ .cli := by
      rintro rfl
      cases h
    have hSei : op ≠ .sei := by
      rintro rfl
      cases h
    exact fun r hFlag => (ImpliedOp.apply_interruptDisable hCli hSei r).trans hFlag
  | immediate op => exact fun m r hFlag => (op.apply_interruptDisable m r).trans hFlag
  | read op mode => exact fun m r hFlag => (op.apply_interruptDisable m r).trans hFlag
  | shiftAccumulator op => exact fun m p hFlag => (op.apply_interruptDisable p m).trans hFlag
  | modify op mode => exact fun m r hFlag => (op.apply_interruptDisable m r).trans hFlag
  | pla => exact fun _ _ hFlag => hFlag
  | plp => cases h
  | rti => cases h
  | brk => cases h
  | _ => trivial

namespace Exec

variable {α β : Type}

/-! ## Properties of the flags -/

/-- On every branch, flags with the one property lead to a result and flags with the other. -/
def Ensures (before : Flags → Prop) (exec : Exec α) (after : α → Flags → Prop) : Prop :=
  ∀ core accesses result, before core.p → (exec core).Makes accesses result →
    after result.1 result.2.p

/-- On every branch the flags stay as they are. -/
def Keeps (exec : Exec α) : Prop :=
  ∀ core accesses result, (exec core).Makes accesses result → result.2.p = core.p

namespace Ensures

variable {exec : Exec α} {before : Flags → Prop} {after : α → Flags → Prop}

/-- A result without accesses ensures what holds of the flags as they are. -/
theorem pure {result : α} (h : ∀ p, before p → after result p) :
    Ensures before (Pure.pure result) after := by
  intro core accesses final hBefore hMakes
  cases hMakes
  exact h core.p hBefore

/-- What the first part ensures, the second part can start from. -/
theorem bind {f : α → Exec β} {final : β → Flags → Prop} (h : exec.Ensures before after)
    (hNext : ∀ result, (f result).Ensures (after result) final) :
    (exec >>= f).Ensures before final := by
  intro core accesses result hBefore hMakes
  rcases Script.makes_bind_iff.mp hMakes with ⟨first, middle, second, rfl, hFirst, hSecond⟩
  have hMiddle := h core first middle hBefore hFirst
  exact hNext middle.1 middle.2 second result hMiddle hSecond

end Ensures

theorem Keeps.ensures {exec : Exec α} (h : exec.Keeps) (property : Flags → Prop) :
    exec.Ensures property fun _ => property := by
  intro core accesses result hBefore hMakes
  rwa [h core accesses result hMakes]

/-- After `exec` comes a sequence that is judged from the same property. -/
theorem Keeps.then {exec : Exec α} (h : exec.Keeps) {f : α → Exec β} {before : Flags → Prop}
    {after : β → Flags → Prop} (hNext : ∀ result, (f result).Ensures before after) :
    (exec >>= f).Ensures before after :=
  (h.ensures before).bind hNext

/-! ## Parts that keep the flags -/

namespace Keeps

variable {exec : Exec α}

theorem pure (result : α) : Keeps (Pure.pure result : Exec α) := by
  intro core accesses final hMakes
  cases hMakes
  rfl

/-- A sequence of parts that keep the flags keeps them. -/
theorem bind {f : α → Exec β} (h : exec.Keeps) (hNext : ∀ result, (f result).Keeps) :
    (exec >>= f).Keeps := by
  intro core accesses final hMakes
  rcases Script.makes_bind_iff.mp hMakes with ⟨before, middle, after, rfl, hBefore, hAfter⟩
  calc
    final.2.p = middle.2.p := hNext middle.1 middle.2 after final hAfter
    _ = core.p := h core before middle hBefore

theorem map (h : exec.Keeps) (f : α → β) : (f <$> exec).Keeps :=
  h.bind fun result => pure (f result)

theorem ite {condition : Prop} [Decidable condition] {other : Exec α} (h : exec.Keeps)
    (hOther : other.Keeps) : (if condition then exec else other).Keeps := by
  by_cases hCondition : condition
  · simpa [hCondition] using h
  · simpa [hCondition] using hOther

end Keeps

theorem registers_keeps : registers.Keeps := by
  intro core accesses final hMakes
  cases hMakes
  rfl

/-- An update keeps the flags if its function does. -/
theorem update_keeps {f : Registers → Registers} (h : ∀ r, (f r).p = r.p) : (update f).Keeps := by
  intro core accesses final hMakes
  cases hMakes
  exact h core.toRegisters

theorem setPC_keeps (pc : UInt16) : (setPC pc).Keeps :=
  update_keeps fun _ => rfl

theorem read_keeps (address : UInt16) : (read address).Keeps := by
  intro core accesses final hMakes
  cases hMakes with
  | read hDone =>
    cases hDone
    rfl

theorem dummyRead_keeps (address : UInt16) : (dummyRead address).Keeps := by
  intro core accesses final hMakes
  cases hMakes with
  | read hDone =>
    cases hDone
    rfl

theorem fetch_keeps : fetch.Keeps := by
  intro core accesses final hMakes
  cases hMakes with
  | read hDone =>
    cases hDone
    rfl

theorem write_keeps (address : UInt16) (value : UInt8) : (write address value).Keeps := by
  intro core accesses final hMakes
  cases hMakes with
  | write hDone =>
    cases hDone
    rfl

theorem push_keeps (value : UInt8) : (push value).Keeps := by
  intro core accesses final hMakes
  cases hMakes with
  | write hDone =>
    cases hDone
    rfl

theorem dummyFetch_keeps : dummyFetch.Keeps :=
  registers_keeps.bind fun r => dummyRead_keeps r.pc

theorem fetchWord_keeps : fetchWord.Keeps :=
  fetch_keeps.bind fun low => fetch_keeps.bind fun high => .pure (Word.ofBytes low high)

theorem pushWord_keeps (word : UInt16) : (pushWord word).Keeps :=
  (push_keeps _).bind fun _ => push_keeps _

theorem pull_keeps : pull.Keeps :=
  Keeps.bind (update_keeps (f := fun r => { r with s := r.s + 1 }) fun _ => rfl) fun _ =>
    registers_keeps.bind fun r => read_keeps r.stackAddress

theorem pullWord_keeps : pullWord.Keeps :=
  pull_keeps.bind fun low => pull_keeps.bind fun high => .pure (Word.ofBytes low high)

theorem beforePull_keeps : beforePull.Keeps :=
  dummyFetch_keeps.bind fun _ => registers_keeps.bind fun r => dummyRead_keeps r.stackAddress

theorem readWord_keeps (low high : UInt16) : (readWord low high).Keeps :=
  (read_keeps low).bind fun first => (read_keeps high).bind fun second =>
    .pure (Word.ofBytes first second)

theorem zeroPageIndexed_keeps (index : Registers → UInt8) : (zeroPageIndexed index).Keeps :=
  fetch_keeps.bind fun address => (dummyRead_keeps _).bind fun _ =>
    registers_keeps.bind fun r => .pure (address + index r)

theorem base_keeps (mode : IndexedMode) : (base mode).Keeps := by
  cases mode with
  | absoluteX => exact fetchWord_keeps
  | absoluteY => exact fetchWord_keeps
  | indirectY => exact fetch_keeps.bind fun pointer => readWord_keeps _ _

theorem indexed_keeps (purpose : Purpose) (base : UInt16) (index : UInt8) :
    (indexed purpose base index).Keeps :=
  Keeps.ite ((dummyRead_keeps _).bind fun _ => .pure _) (.pure _)

theorem address_keeps (purpose : Purpose) (mode : MemoryMode) : (address purpose mode).Keeps := by
  cases mode with
  | zeroPage => exact fetch_keeps.map _
  | zeroPageX => exact (zeroPageIndexed_keeps _).map _
  | zeroPageY => exact (zeroPageIndexed_keeps _).map _
  | absolute => exact fetchWord_keeps
  | indirectX => exact (zeroPageIndexed_keeps _).bind fun pointer => readWord_keeps _ _
  | indexed mode =>
    exact (base_keeps mode).bind fun start => registers_keeps.bind fun r =>
      indexed_keeps purpose start (index mode r)

theorem jumpThrough_keeps (vector : UInt16) : (jumpThrough vector).Keeps :=
  (readWord_keeps _ _).bind fun target => setPC_keeps target

/-- A branch looks at a flag and keeps all of them. -/
theorem branch_keeps (condition : Condition) : (branch condition).Keeps :=
  fetch_keeps.bind fun _ => registers_keeps.bind fun r =>
    Keeps.ite
      ((dummyRead_keeps r.pc).bind fun _ =>
        Keeps.ite ((dummyRead_keeps _).bind fun _ => setPC_keeps _) (setPC_keeps _))
      (.pure ())

/-! ## Instructions -/

/-- An update ensures what its function does. -/
theorem update_ensures {f : Registers → Registers} {before after : Flags → Prop}
    (h : ∀ r, before r.p → after (f r).p) : (update f).Ensures before fun _ => after := by
  intro core accesses final hBefore hMakes
  cases hMakes
  exact h core.toRegisters hBefore

/-- The registers are at hand as they are. -/
theorem registers_ensures (before : Flags → Prop) :
    registers.Ensures before fun r p => r.p = p ∧ before p := by
  intro core accesses final hBefore hMakes
  cases hMakes
  exact ⟨rfl, hBefore⟩

/-- Entering a handler changes one flag, after the push. -/
theorem enterHandler_ensures {before after : Flags → Prop}
    (h : ∀ p, before p → after { p with interruptDisable := true }) (isBreak : Bool) (vector : UInt16) :
    (enterHandler isBreak vector).Ensures before fun _ => after :=
  registers_keeps.then fun r => (pushWord_keeps r.pc).then fun _ =>
    registers_keeps.then fun r => (push_keeps (r.p.toStack isBreak)).then fun _ =>
      Ensures.bind (update_ensures fun r => h r.p) fun _ => (jumpThrough_keeps vector).ensures _

/-- An interrupt entry sets the one flag, once the status has been pushed. -/
theorem interrupt_ensures {before after : Flags → Prop}
    (h : ∀ p, before p → after { p with interruptDisable := true }) (line : Interrupt) :
    (interrupt line).Ensures before fun _ => after :=
  dummyFetch_keeps.then fun _ => dummyFetch_keeps.then fun _ => enterHandler_ensures h _ _

/-- So does a `BRK`. -/
theorem brk_ensures {before after : Flags → Prop}
    (h : ∀ p, before p → after { p with interruptDisable := true }) :
    (execute .brk).Ensures before fun _ => after :=
  dummyFetch_keeps.then fun _ =>
    Keeps.then (update_keeps (f := fun r => { r with pc := r.pc + 1 }) fun _ => rfl) fun _ =>
      enterHandler_ensures h _ _

theorem storeUnstable_keeps (op : UnstableOp) (mode : IndexedMode) : (storeUnstable op mode).Keeps :=
  (base_keeps mode).bind fun start => registers_keeps.bind fun r =>
    (indexed_keeps .store start (index mode r)).bind fun _ => registers_keeps.bind fun _ =>
      Keeps.bind (update_keeps op.apply_p) fun _ => write_keeps _ _

variable {property : Flags → Prop}

/-- A change of memory ensures what its operation keeps. -/
theorem modifyAt_ensures {op : ModifyOp}
    (h : ∀ (m : UInt8) (r : Registers), property r.p → property (op.apply m r).2.p) (address : UInt16) :
    (modifyAt op address).Ensures property fun _ => property := by
  refine (read_keeps address).then fun old => (write_keeps address old).then fun _ => ?_
  refine (registers_ensures _).bind fun r => ?_
  -- The new registers were computed from those at hand.
  have hUpdate : (update fun _ => (op.apply old r).2).Ensures (fun p => r.p = p ∧ property p)
      fun _ => property := by
    refine update_ensures ?_
    rintro other ⟨hSame, hProperty⟩
    exact h old r (hSame ▸ hProperty)
  exact hUpdate.bind fun _ => (write_keeps address _).ensures _

/-- What the operation keeps, the instruction keeps. -/
theorem execute_ensures {instruction : Instruction} (h : instruction.Preserves property) :
    (execute instruction).Ensures property fun _ => property := by
  -- The property can only be lost in an update; fetches, reads and pushes keep it.
  cases instruction with
  | implied op => exact dummyFetch_keeps.then fun _ => update_ensures h
  | immediate op => exact fetch_keeps.then fun operand => update_ensures (h operand)
  | read op mode =>
    exact (address_keeps .load mode).then fun target => (read_keeps target).then fun operand =>
      update_ensures (h operand)
  | store op mode =>
    exact (address_keeps .store mode).then fun target => registers_keeps.then fun r =>
      (write_keeps target (op.value r)).ensures _
  | storeUnstable op mode => exact (storeUnstable_keeps op mode).ensures _
  | shiftAccumulator op => exact dummyFetch_keeps.then fun _ => update_ensures fun r => h r.a r.p
  | modify op mode => exact (address_keeps .store mode).then fun target => modifyAt_ensures h target
  | branch condition => exact (branch_keeps condition).ensures _
  | jmp => exact fetchWord_keeps.then fun target => (setPC_keeps target).ensures _
  | jmpIndirect =>
    exact fetchWord_keeps.then fun pointer => (readWord_keeps pointer _).then fun target =>
      (setPC_keeps target).ensures _
  | jsr =>
    exact fetch_keeps.then fun low => registers_keeps.then fun r =>
      (dummyRead_keeps r.stackAddress).then fun _ => registers_keeps.then fun r =>
        (pushWord_keeps r.pc).then fun _ => fetch_keeps.then fun high => (setPC_keeps _).ensures _
  | rts =>
    exact beforePull_keeps.then fun _ => pullWord_keeps.then fun pc =>
      (dummyRead_keeps pc).then fun _ => (setPC_keeps _).ensures _
  | pha => exact dummyFetch_keeps.then fun _ => registers_keeps.then fun r => (push_keeps r.a).ensures _
  | php =>
    exact dummyFetch_keeps.then fun _ => registers_keeps.then fun r =>
      (push_keeps (r.p.toStack true)).ensures _
  | pla =>
    exact beforePull_keeps.then fun _ => pull_keeps.then fun value => update_ensures fun r => h value r.p
  | plp =>
    exact beforePull_keeps.then fun _ => pull_keeps.then fun status => update_ensures fun _ _ => h status
  | rti =>
    exact beforePull_keeps.then fun _ => pull_keeps.then fun status =>
      Ensures.bind (update_ensures fun _ _ => h status) fun _ =>
        pullWord_keeps.then fun target => (setPC_keeps target).ensures _
  | brk => exact brk_ensures h

/-- The fetch of the opcode leaves the flags to the instruction. -/
theorem executeNext_ensures {before : Flags → Prop} {after : Instruction → Flags → Prop}
    (h : ∀ instruction, (execute instruction).Ensures before fun _ => after instruction) :
    executeNext.Ensures before after := by
  have hClear : Keeps (modify fun core : Core => { core with fetched := core.fetched.clear }) := by
    intro core accesses final hMakes
    cases hMakes
    rfl
  exact hClear.then fun _ => fetch_keeps.then fun opcode =>
    (h (Instruction.decode opcode)).bind fun _ => .pure fun _ hAfter => hAfter

/-! ## The flag that disables interrupts -/

/-- Once the handler is entered, interrupts are disabled. -/
theorem interrupt_disables (line : Interrupt) (before : Flags → Prop) :
    (interrupt line).Ensures before fun _ p => p.interruptDisable = true :=
  interrupt_ensures (fun _ _ => rfl) line

/-- The next instruction keeps the flag unless it is one of the five, and sets it if it is `BRK`. -/
theorem executeNext_interruptDisable (flag : Bool) :
    executeNext.Ensures (·.interruptDisable = flag) fun instruction p =>
      (instruction.writesInterruptDisable = false → p.interruptDisable = flag) ∧
      (instruction = .brk → p.interruptDisable = true) := by
  refine executeNext_ensures fun instruction core accesses result hBefore hMakes => ⟨?_, ?_⟩
  · intro hWrites
    have hPreserves := Instruction.preserves_interruptDisable flag hWrites
    exact execute_ensures hPreserves core accesses result hBefore hMakes
  · rintro rfl
    have hBrk : (execute .brk).Ensures (·.interruptDisable = flag) fun _ p => p.interruptDisable = true :=
      brk_ensures fun _ _ => rfl
    exact hBrk core accesses result hBefore hMakes

end Exec

end NesMachine
