import NesMachine.Proofs.Bus.Accesses
import NesMachine.Proofs.Cpu.Cycles

/-!
# Executions of a fixed length

Most parts of an instruction make the same number of accesses whatever the bus answers, and the numbers
add up along a sequence. They are counted here once, together with the stores among them.

* `Exec.Takes`: an execution makes exactly so many accesses on every branch.
* `Exec.Takes.bind`: the length of a sequence.
* `Exec.execute_takes`: an instruction takes its cycles, unless bytes have a say in them.
* `Exec.interrupt_takes`: an interrupt entry takes seven and stores nothing.
-/

namespace NesMachine

/-- A write outside the stack page. -/
def Access.isStore : Access → Bool
  | .read _ => false
  | .write address _ => address.toNat / 0x100 != 1

namespace Exec

variable {α β : Type} {m n stores : Nat}

/-- On every branch there are exactly `n` accesses, and at most `stores` of them are stores. -/
def Takes (n stores : Nat) (exec : Exec α) : Prop :=
  ∀ core accesses result, (exec core).Makes accesses result →
    accesses.length = n ∧ accesses.countP Access.isStore ≤ stores

namespace Takes

theorem mono {exec : Exec α} {further : Nat} (h : exec.Takes m stores) (hLength : m = n)
    (hStores : stores ≤ further) : exec.Takes n further := by
  intro core accesses result hMakes
  have hTakes := h core accesses result hMakes
  exact ⟨hTakes.1.trans hLength, Nat.le_trans hTakes.2 hStores⟩

theorem pure (result : α) : Takes 0 0 (Pure.pure result : Exec α) := by
  intro core accesses final hMakes
  cases hMakes
  exact ⟨rfl, Nat.zero_le _⟩

/-- The lengths of a sequence add up, and so do its stores. -/
theorem bind {exec : Exec α} {f : α → Exec β} {further : Nat} (h : exec.Takes m stores)
    (hNext : ∀ result, (f result).Takes n further) :
    (exec >>= f).Takes (m + n) (stores + further) := by
  intro core accesses final hMakes
  rcases Script.makes_bind_iff.mp hMakes with ⟨before, middle, after, rfl, hBefore, hAfter⟩
  have hFirst := h core before middle hBefore
  have hSecond := hNext middle.1 middle.2 after final hAfter
  rw [List.length_append, List.countP_append, hFirst.1, hSecond.1]
  exact ⟨rfl, Nat.add_le_add hFirst.2 hSecond.2⟩

theorem map {exec : Exec α} (h : exec.Takes n stores) (f : α → β) : (f <$> exec).Takes n stores :=
  h.bind fun result => pure (f result)

end Takes

/-! ## Accesses -/

theorem registers_takes : registers.Takes 0 0 := by
  intro core accesses final hMakes
  cases hMakes
  exact ⟨rfl, Nat.le_refl _⟩

theorem update_takes (f : Registers → Registers) : (update f).Takes 0 0 := by
  intro core accesses final hMakes
  cases hMakes
  exact ⟨rfl, Nat.le_refl _⟩

theorem setPC_takes (pc : UInt16) : (setPC pc).Takes 0 0 :=
  update_takes _

theorem read_takes (address : UInt16) : (read address).Takes 1 0 := by
  intro core accesses final hMakes
  cases hMakes with
  | read hDone =>
    cases hDone
    exact ⟨rfl, Nat.le_refl _⟩

theorem dummyRead_takes (address : UInt16) : (dummyRead address).Takes 1 0 := by
  intro core accesses final hMakes
  cases hMakes with
  | read hDone =>
    cases hDone
    exact ⟨rfl, Nat.le_refl _⟩

theorem fetch_takes : fetch.Takes 1 0 := by
  intro core accesses final hMakes
  cases hMakes with
  | read hDone =>
    cases hDone
    exact ⟨rfl, Nat.le_refl _⟩

theorem write_takes (address : UInt16) (value : UInt8) : (write address value).Takes 1 1 := by
  intro core accesses final hMakes
  cases hMakes with
  | write hDone =>
    cases hDone
    exact ⟨rfl, List.countP_le_length⟩

/-- A push writes to the stack page, so it is no store. -/
theorem isStore_stackAddress (r : Registers) (value : UInt8) :
    (Access.write r.stackAddress value).isStore = false := by
  have hOffset := r.s.toNat_lt
  have hPage : r.stackAddress.toNat / 0x100 = 1 := by
    rw [Registers.stackAddress, Byte.toNat_stackAddress]
    omega
  simp [Access.isStore, hPage]

-- A push is no store: the stack pointer never leaves its page.
theorem push_takes (value : UInt8) : (push value).Takes 1 0 := by
  intro core accesses final hMakes
  cases hMakes with
  | write hDone =>
    cases hDone
    have hStack := isStore_stackAddress core.toRegisters value
    exact ⟨rfl, by simp [hStack]⟩

theorem dummyFetch_takes : dummyFetch.Takes 1 0 :=
  registers_takes.bind fun r => dummyRead_takes r.pc

theorem fetchWord_takes : fetchWord.Takes 2 0 :=
  fetch_takes.bind fun low => fetch_takes.bind fun high => .pure (Word.ofBytes low high)

theorem pushWord_takes (word : UInt16) : (pushWord word).Takes 2 0 :=
  (push_takes _).bind fun _ => push_takes _

theorem pull_takes : pull.Takes 1 0 :=
  (update_takes _).bind fun _ => registers_takes.bind fun r => read_takes r.stackAddress

theorem pullWord_takes : pullWord.Takes 2 0 :=
  pull_takes.bind fun low => pull_takes.bind fun high => .pure (Word.ofBytes low high)

theorem beforePull_takes : beforePull.Takes 2 0 :=
  dummyFetch_takes.bind fun _ => registers_takes.bind fun r => dummyRead_takes r.stackAddress

/-! ## Addresses -/

theorem readWord_takes (low high : UInt16) : (readWord low high).Takes 2 0 :=
  (read_takes low).bind fun first => (read_takes high).bind fun second =>
    .pure (Word.ofBytes first second)

theorem zeroPageIndexed_takes (index : Registers → UInt8) : (zeroPageIndexed index).Takes 2 0 :=
  fetch_takes.bind fun address => (dummyRead_takes _).bind fun _ =>
    registers_takes.bind fun r => .pure (address + index r)

/-- The accesses that find the word of an indexed mode. -/
def baseAccesses : IndexedMode → Nat
  | .absoluteX | .absoluteY => 2
  | .indirectY => 3

theorem base_takes (mode : IndexedMode) : (base mode).Takes (baseAccesses mode) 0 := by
  cases mode with
  | absoluteX => exact fetchWord_takes
  | absoluteY => exact fetchWord_takes
  | indirectY => exact fetch_takes.bind fun pointer => readWord_takes _ _

/-- A read by an indexed mode finds the base, and then reads the byte without crossing a page. -/
theorem readCycles_indexed (mode : IndexedMode) :
    (MemoryMode.indexed mode).readCycles = baseAccesses mode + 2 := by
  cases mode <;> rfl

/-- A store by an indexed mode makes the extra read in any case. -/
theorem storeCycles_indexed (mode : IndexedMode) :
    (MemoryMode.indexed mode).storeCycles = baseAccesses mode + 3 := by
  cases mode <;> rfl

/-- A store always waits for the carry into the page. -/
theorem indexed_store_takes (base : UInt16) (index : UInt8) : (indexed .store base index).Takes 1 0 :=
  (dummyRead_takes (Word.onPageOf base (base + index.toUInt16))).bind fun _ => .pure _

/-- A load waits for it only if there is one. -/
theorem indexed_load_takes (base : UInt16) (index : UInt8) :
    (indexed .load base index).Takes (Word.pageCross base (base + index.toUInt16)) 0 := by
  rw [Word.pageCross_eq]
  -- With the two pages known, the condition is decided and the rest has a fixed length.
  cases hSame : Word.samePage base (base + index.toUInt16) with
  | true => simpa [indexed, hSame] using Takes.pure _
  | false =>
    have hWait := (dummyRead_takes (Word.onPageOf base (base + index.toUInt16))).bind fun _ =>
      Takes.pure (base + index.toUInt16)
    simpa [indexed, hSame] using hWait

/-- Where there is no index to carry, the address and the access at it are all of a load. -/
theorem address_load_takes {mode : MemoryMode} (h : ∀ indexed, mode ≠ .indexed indexed) :
    (address .load mode).Takes (mode.readCycles - 2) 0 := by
  cases mode with
  | zeroPage => exact fetch_takes.map _
  | zeroPageX => exact (zeroPageIndexed_takes _).map _
  | zeroPageY => exact (zeroPageIndexed_takes _).map _
  | absolute => exact fetchWord_takes
  | indirectX => exact (zeroPageIndexed_takes _).bind fun pointer => readWord_takes _ _
  | indexed mode => exact absurd rfl (h mode)

/-- The address of a store takes all of the store but its opcode and its last access. -/
theorem address_store_takes (mode : MemoryMode) :
    (address .store mode).Takes (mode.storeCycles - 2) 0 := by
  cases mode with
  | zeroPage => exact fetch_takes.map _
  | zeroPageX => exact (zeroPageIndexed_takes _).map _
  | zeroPageY => exact (zeroPageIndexed_takes _).map _
  | absolute => exact fetchWord_takes
  | indirectX => exact (zeroPageIndexed_takes _).bind fun pointer => readWord_takes _ _
  | indexed mode =>
    rw [storeCycles_indexed]
    exact (base_takes mode).bind fun start => registers_takes.bind fun r =>
      indexed_store_takes start (index mode r)

/-! ## Instructions -/

theorem jumpThrough_takes (vector : UInt16) : (jumpThrough vector).Takes 2 0 :=
  (readWord_takes _ _).bind fun target => setPC_takes target

theorem enterHandler_takes (isBreak : Bool) (vector : UInt16) :
    (enterHandler isBreak vector).Takes 5 0 :=
  registers_takes.bind fun r => (pushWord_takes r.pc).bind fun _ =>
    registers_takes.bind fun r => (push_takes (r.p.toStack isBreak)).bind fun _ =>
      (update_takes _).bind fun _ => jumpThrough_takes vector

/-- An interrupt entry takes seven accesses and stores nothing. -/
theorem interrupt_takes (line : Interrupt) : (interrupt line).Takes 7 0 :=
  dummyFetch_takes.bind fun _ => dummyFetch_takes.bind fun _ => enterHandler_takes _ _

/-- What a taken branch does once it has the offset: it reads the next opcode, reads again if the target is
on another page, and jumps. -/
theorem branch_taken_takes (pc target : UInt16) :
    Takes (1 + Word.pageCross pc target) 0 (do
      dummyRead pc
      if !Word.samePage pc target then
        dummyRead (Word.onPageOf pc target)
      setPC target) := by
  have hJump : Takes (Word.pageCross pc target) 0 (do
      if !Word.samePage pc target then
        dummyRead (Word.onPageOf pc target)
      setPC target) := by
    rw [Word.pageCross_eq]
    cases hSame : Word.samePage pc target with
    | true => simpa using setPC_takes target
    | false => simpa using (dummyRead_takes (Word.onPageOf pc target)).bind fun _ => setPC_takes target
  exact (dummyRead_takes pc).bind fun _ => hJump

theorem modifyAt_takes (op : ModifyOp) (address : UInt16) : (modifyAt op address).Takes 3 2 :=
  (read_takes address).bind fun old => (write_takes address old).bind fun _ =>
    registers_takes.bind fun r => (update_takes _).bind fun _ =>
      write_takes address (op.apply old r).1

theorem storeUnstable_takes (op : UnstableOp) (mode : IndexedMode) :
    (storeUnstable op mode).Takes (baseAccesses mode + 2) 1 :=
  (base_takes mode).bind fun start => registers_takes.bind fun r =>
    (indexed_store_takes start (index mode r)).bind fun _ =>
      registers_takes.bind fun _ => (update_takes op.apply).bind fun _ => write_takes _ _

/-- An instruction takes its cycles, its opcode included, unless bytes have a say in them. Only a
read-modify-write instruction stores twice. -/
theorem execute_takes {instruction : Instruction} (h : instruction.varies = false) :
    (execute instruction).Takes (instruction.cycles - 1) 2 := by
  -- Each instruction is a sequence of parts whose lengths add up.
  cases instruction with
  | implied op =>
    have h := dummyFetch_takes.bind fun _ => update_takes op.apply
    exact h.mono rfl (by decide)
  | immediate op =>
    have h := fetch_takes.bind fun operand => update_takes (op.apply operand)
    exact h.mono rfl (by decide)
  | read op mode =>
    have hPlain : ∀ indexed, mode ≠ .indexed indexed := by
      rintro indexed rfl
      cases h
    have hRead := (address_load_takes hPlain).bind fun target =>
      (read_takes target).bind fun operand => update_takes (op.apply operand)
    have hCycles : mode.readCycles - 2 + 1 = mode.readCycles - 1 := by
      have hBounds := mode.readCycles_bounds
      omega
    exact hRead.mono hCycles (by decide)
  | store op mode =>
    have hStore := (address_store_takes mode).bind fun target =>
      registers_takes.bind fun r => write_takes target (op.value r)
    have hCycles : mode.storeCycles - 2 + 1 = mode.storeCycles - 1 := by
      have hBounds := mode.storeCycles_bounds
      omega
    exact hStore.mono hCycles (by decide)
  | storeUnstable op mode =>
    have hCycles : baseAccesses mode + 2 = (MemoryMode.indexed mode).storeCycles - 1 := by
      rw [storeCycles_indexed]
      rfl
    exact (storeUnstable_takes op mode).mono hCycles (by decide)
  | shiftAccumulator op =>
    have h := dummyFetch_takes.bind fun _ => update_takes fun r => r.setA (op.apply r.p r.a)
    exact h.mono rfl (by decide)
  | modify op mode =>
    have hModify := (address_store_takes mode).bind fun target => modifyAt_takes op target
    have hCycles : mode.storeCycles - 2 + 3 = mode.modifyCycles - 1 := by
      have hBounds := mode.storeCycles_bounds
      have hModify := mode.modifyCycles_eq
      omega
    exact hModify.mono hCycles (by decide)
  | branch condition => cases h
  | jmp =>
    have h := fetchWord_takes.bind fun target => setPC_takes target
    exact h.mono rfl (by decide)
  | jmpIndirect =>
    have h := fetchWord_takes.bind fun pointer =>
      (readWord_takes pointer (Word.onPageOf pointer (pointer + 1))).bind
        fun target => setPC_takes target
    exact h.mono rfl (by decide)
  | jsr =>
    have h := fetch_takes.bind fun low => registers_takes.bind fun r =>
      (dummyRead_takes r.stackAddress).bind fun _ => registers_takes.bind fun r =>
        (pushWord_takes r.pc).bind fun _ => fetch_takes.bind fun high =>
          setPC_takes (Word.ofBytes low high)
    exact h.mono rfl (by decide)
  | rts =>
    have h := beforePull_takes.bind fun _ => pullWord_takes.bind fun pc =>
      (dummyRead_takes pc).bind fun _ => setPC_takes (pc + 1)
    exact h.mono rfl (by decide)
  | brk =>
    have h := dummyFetch_takes.bind fun _ =>
      (update_takes fun r => { r with pc := r.pc + 1 }).bind fun _ =>
        enterHandler_takes true Interrupt.irq.vector
    exact h.mono rfl (by decide)
  | rti =>
    have h := beforePull_takes.bind fun _ => pull_takes.bind fun status =>
      (update_takes fun r => { r with p := Flags.ofStack status }).bind fun _ =>
        pullWord_takes.bind fun pc => setPC_takes pc
    exact h.mono rfl (by decide)
  | pha =>
    have h := dummyFetch_takes.bind fun _ => registers_takes.bind fun r => push_takes r.a
    exact h.mono rfl (by decide)
  | php =>
    have h := dummyFetch_takes.bind fun _ =>
      registers_takes.bind fun r => push_takes (r.p.toStack true)
    exact h.mono rfl (by decide)
  | pla =>
    have h := beforePull_takes.bind fun _ => pull_takes.bind fun value =>
      update_takes (·.loadA value)
    exact h.mono rfl (by decide)
  | plp =>
    have h := beforePull_takes.bind fun _ => pull_takes.bind fun status =>
      update_takes fun r => { r with p := Flags.ofStack status }
    exact h.mono rfl (by decide)

end Exec

end NesMachine
