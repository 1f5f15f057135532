import NesMachine.Proofs.Cpu.FlatSteps
import NesMachine.Proofs.Ram

/-!
# Unstable stores

Five instructions store a byte that depends on the page of their base, the word before an index is added to it.
The byte is a value from the registers, cut down by the number of the page after the base, and where the index
leads off this page the byte takes the place of the page in the address. The address is all that is left of the
base when the store runs, and so the index is taken back off it.

* `Form.StoresUnstable`: the base, the index and the value of each of the five.
* `Exec.storeUnstable_run`: what such a store does to the registers and to the bus.
* `FlatMachine.unstable_stores_recover_their_base`: the same in numbers, for a step.
-/

namespace NesMachine

/-! ## The five stores -/

namespace FlatBus

variable (bus : FlatBus) (pc : Nat)

def operandWord : Nat :=
  bus.wordAt pc ((pc + 1) % 0x10000)

def pointedWord : Nat :=
  let pointer := bus.byteAt pc
  bus.wordAt pointer ((pointer + 1) % 0x100)

/-- Words are below `$10000`. -/
theorem wordAt_lt (low high : Nat) : bus.wordAt low high < 0x10000 := by
  have hLow := (bus.ram.get low).toNat_lt
  have hHigh := (bus.ram.get high).toNat_lt
  rw [wordAt, byteAt, byteAt]
  omega

end FlatBus

/-- The unstable stores, each with its base, the index that is added to the base and the value that is cut down.
The program counter stands behind the opcode. -/
inductive Form.StoresUnstable (r : Registers) (bus : FlatBus) : Form → Nat → UInt8 → UInt8 → Prop
  | shaAbsolute :
      StoresUnstable r bus ⟨.sha, .absoluteY⟩ (bus.operandWord r.pc.toNat) r.y (r.a &&& r.x)
  | shaIndirect :
      StoresUnstable r bus ⟨.sha, .indirectY⟩ (bus.pointedWord r.pc.toNat) r.y (r.a &&& r.x)
  | shx : StoresUnstable r bus ⟨.shx, .absoluteY⟩ (bus.operandWord r.pc.toNat) r.y r.x
  | shy : StoresUnstable r bus ⟨.shy, .absoluteX⟩ (bus.operandWord r.pc.toNat) r.x r.y
  | shs : StoresUnstable r bus ⟨.shs, .absoluteY⟩ (bus.operandWord r.pc.toNat) r.y (r.a &&& r.x)

/-- An unstable store with what it takes from the registers and from the bus. -/
structure UnstableOp.Takes (r : Registers) (bus : FlatBus) (op : UnstableOp) (mode : IndexedMode)
    (base : Nat) (index value : UInt8) : Prop where
  owns : Exec.takesOwnIndex (.storeUnstable op mode) = true
  base_lt : base < 0x10000
  index_eq : Exec.index mode r = index
  value_eq : op.value r = value
  operand_eq : mode.mode.operandOn r bus = .at ((base + index.toNat) % 0x10000)

/-- The wrapping sum of base and index. -/
theorem UnstableOp.Takes.add_index {r : Registers} {bus : FlatBus} {op : UnstableOp} {mode : IndexedMode}
    {base : Nat} {index value : UInt8} (h : op.Takes r bus mode base index value) :
    UInt16.ofNat base + index.toUInt16 = UInt16.ofNat ((base + index.toNat) % 0x10000) := by
  have hStart : (UInt16.ofNat base).toNat = base := UInt16.toNat_ofNat_of_lt' h.base_lt
  rw [← hStart, ← Word.toNat_add_byte, UInt16.ofNat_toNat, UInt16.ofNat_toNat]

/-- The form of an unstable store belongs to no other instruction. -/
theorem Instruction.eq_of_unstableOp {instruction : Instruction} {op : UnstableOp} {mode : IndexedMode}
    (h : instruction.form = ⟨op.mnemonic, mode.mode⟩) : instruction = .storeUnstable op mode := by
  have hOp : instruction.form.mnemonic.unstableOp? = some op := by
    rw [h]
    cases op <;> rfl
  have hMode : instruction.form.mode = mode.mode := congrArg Form.mode h
  -- No other shape has a mnemonic of this kind.
  cases instruction with
  | storeUnstable other otherMode =>
    have hSame : other = op := by
      cases other <;> exact Option.some.inj hOp
    have hSameMode : otherMode = mode := by
      cases otherMode <;> cases mode <;> first | rfl | cases hMode
    rw [hSame, hSameMode]
  | implied other => cases other <;> cases hOp
  | immediate other => cases other <;> cases hOp
  | read other mode => cases other <;> cases hOp
  | store other mode => cases other <;> cases hOp
  | shiftAccumulator other => cases other <;> cases hOp
  | modify other mode => rcases other with ⟨_ | _⟩ | _ <;> cases hOp
  | branch condition => cases condition <;> cases hOp
  | _ => cases hOp

/-- The five forms are those of the unstable stores in the modes they have. -/
theorem Form.StoresUnstable.exists_takes {r : Registers} {bus : FlatBus} {instruction : Instruction}
    {base : Nat} {index value : UInt8} (h : instruction.form.StoresUnstable r bus base index value) :
    ∃ op mode, instruction = .storeUnstable op mode ∧ op.Takes r bus mode base index value := by
  generalize hForm : instruction.form = form at h
  cases h with
  | shaAbsolute =>
    exact ⟨.sha, .absoluteY, Instruction.eq_of_unstableOp hForm, rfl, bus.wordAt_lt _ _, rfl, rfl, rfl⟩
  | shaIndirect =>
    exact ⟨.sha, .indirectY, Instruction.eq_of_unstableOp hForm, rfl, bus.wordAt_lt _ _, rfl, rfl, rfl⟩
  | shx =>
    exact ⟨.shx, .absoluteY, Instruction.eq_of_unstableOp hForm, rfl, bus.wordAt_lt _ _, rfl, rfl, rfl⟩
  | shy =>
    exact ⟨.shy, .absoluteX, Instruction.eq_of_unstableOp hForm, rfl, bus.wordAt_lt _ _, rfl, rfl, rfl⟩
  | shs =>
    exact ⟨.shs, .absoluteY, Instruction.eq_of_unstableOp hForm, rfl, bus.wordAt_lt _ _, rfl, rfl, rfl⟩

/-! ## Numbers -/

namespace UnstableOp

/-- The stored byte by the number of the base. -/
theorem stored_eq (value : UInt8) (start : UInt16) :
    stored value start = value &&& UInt8.ofNat ((start.toNat / 0x100 + 1) % 0x100) := by
  have hPage : Word.high start + 1 = UInt8.ofNat ((start.toNat / 0x100 + 1) % 0x100) := by
    rw [← Word.toNat_high, ← UInt8.toNat_inj, UInt8.toNat_add, UInt8.toNat_ofNat']
    simp
  rw [stored, hPage]

/-- The target by the numbers of the base and of the address. -/
theorem toNat_target (byte : UInt8) (start address : UInt16) :
    (target byte start address).toNat =
      if start.toNat / 0x100 = address.toNat / 0x100 then address.toNat
      else byte.toNat * 0x100 + address.toNat % 0x100 := by
  simp only [target, Word.samePage_iff]
  split
  · rfl
  · rw [Word.toNat_ofBytes, Word.toNat_low]
    omega

end UnstableOp

/-! ## Executions -/

namespace Exec

variable {op : UnstableOp} {mode : IndexedMode} {core : Core} {bus : FlatBus} {start : UInt16}

/-- An unstable store makes the reads on the way to its address, and then it writes once. -/
theorem storeUnstable_run (hOwn : takesOwnIndex (.storeUnstable op mode) = true)
    (hOperand : mode.mode.operandOn core.toRegisters bus =
      .address (start + (index mode core.toRegisters).toUInt16)) :
    let taken := core.take bus mode.mode.operandLength
    let address := start + (index mode core.toRegisters).toUInt16
    let stored := UnstableOp.stored (op.value core.toRegisters) start
    (execute (.storeUnstable op mode) core).run bus =
      (((), { taken with toRegisters := op.apply taken.toRegisters }),
        Bus.write (bus.afterReads (mode.mode.readsOn core.toRegisters bus .write))
          (UnstableOp.target stored start address) stored) := by
  intro taken address stored
  have hRegisters : taken.toRegisters = _ := core.take_registers bus mode.mode.operandLength
  have hIndex : index mode taken.toRegisters = index mode core.toRegisters := by
    rw [hRegisters, index_pc]
  have hValue : op.value taken.toRegisters = op.value core.toRegisters := by
    rw [hRegisters, UnstableOp.value_pc]
  have hAddress : (Exec.address .store (.indexed mode) core).run bus =
      ((address, taken), bus.afterReads (mode.mode.readsOn core.toRegisters bus .write)) :=
    address_run .write hOperand
  -- The store is given the address, and it finds the base in it.
  have hStore := storeUnstableAt_indexed hOwn start taken
  rw [hIndex] at hStore
  rw [execute, ← storeUnstableAt_eq hOwn, run_bind, hAddress, hStore]
  simp only [stored, ← hValue]
  rfl

/-- The same in numbers. -/
theorem storeUnstable_run_of_takes {base : Nat} {added value : UInt8}
    (h : op.Takes core.toRegisters bus mode base added value) :
    let taken := core.take bus mode.mode.operandLength
    let address := (base + added.toNat) % 0x10000
    let stored := value &&& UInt8.ofNat ((base / 0x100 + 1) % 0x100)
    let target :=
      if base / 0x100 = address / 0x100 then address else stored.toNat * 0x100 + address % 0x100
    (execute (.storeUnstable op mode) core).run bus =
      (((), { taken with toRegisters := op.apply taken.toRegisters }),
        Bus.write (bus.afterReads (mode.mode.readsOn core.toRegisters bus .write))
          (UInt16.ofNat target) stored) := by
  intro taken address stored target
  -- Word by word, what the numbers of the statement stand for.
  have hStart : (UInt16.ofNat base).toNat = base := UInt16.toNat_ofNat_of_lt' h.base_lt
  have hAddress : UInt16.ofNat base + added.toUInt16 = UInt16.ofNat address := h.add_index
  have hAddressNat : (UInt16.ofNat address).toNat = address :=
    UInt16.toNat_ofNat_of_lt' (Nat.mod_lt _ (by decide))
  have hStored : UnstableOp.stored (op.value core.toRegisters) (UInt16.ofNat base) = stored := by
    rw [UnstableOp.stored_eq, hStart, h.value_eq]
  have hTarget : UnstableOp.target stored (UInt16.ofNat base) (UInt16.ofNat address) =
      UInt16.ofNat target := by
    rw [← UInt16.ofNat_toNat (x := UnstableOp.target _ _ _), UnstableOp.toNat_target, hStart, hAddressNat]
  have hOperand : mode.mode.operandOn core.toRegisters bus =
      .address (UInt16.ofNat base + (index mode core.toRegisters).toUInt16) := by
    rw [h.index_eq, hAddress]
    exact h.operand_eq
  have hRun := storeUnstable_run h.owns hOperand
  simp only [h.index_eq, hAddress, hStored, hTarget] at hRun
  exact hRun

end Exec

/-! ## Steps -/

namespace FlatMachine

/-- A step that makes reads and then one write. -/
theorem Runs.step_of_write {machine : FlatMachine} {instruction : Instruction} {core : Core}
    {reads : List Nat} {target : Nat} {stored : UInt8} (h : machine.Runs instruction)
    (hRun : (Exec.execute instruction machine.fetchedCore).run machine.fetchedBus =
      (((), core), Bus.write (machine.fetchedBus.afterReads reads) (UInt16.ofNat target) stored)) :
    machine.step.bus.log.toList = machine.bus.log.toList ++
        ((machine.registers.pc.toNat :: reads).map (fun a => Access.read (UInt16.ofNat a)) ++
          [.write (UInt16.ofNat target) stored]) ∧
      machine.step.ram = machine.ram.set target stored ∧
      machine.step.registers = core.toRegisters := by
  let before := machine.bus.afterReads (machine.registers.pc.toNat :: reads)
  have hStep := h.step_eq hRun
  -- The reads leave memory as it was, so all that the step stores is the last byte.
  have hBus : machine.step.bus = Bus.write before (UInt16.ofNat target) stored := by
    rw [hStep]
    simp only [before, FlatBus.afterReads_cons]
    rfl
  refine ⟨?_, ?_, congrArg registers hStep⟩
  · have hLog : machine.step.bus.log.toList =
        before.log.toList ++ [.write (UInt16.ofNat target) stored] := by
      rw [hBus]
      exact Array.toList_push
    rw [hLog, FlatBus.afterReads_log, List.append_assoc]
  · calc
      machine.step.ram = before.ram.set (UInt16.ofNat target).toNat stored := congrArg FlatBus.ram hBus
      _ = machine.bus.ram.set target stored := by
        rw [FlatBus.afterReads_ram, UInt16.toNat_ofNat', Ram.set_mod]

/-- **Unstable stores recover their base and write once.** On every flat bus, a step that runs one of the five
makes the reads of its opcode and of its address, and then one write. The stored byte is the value cut down by
the number of the page after the base. It goes to the sum of base and index, which wraps at the end of memory;
where this sum is on another page than the base, it goes to the page whose number is the stored byte. Taking the
index back off the address gives the base in each case. `SHS` sets the stack pointer, and but for the program
counter no other register changes. -/
theorem unstable_stores_recover_their_base (machine : FlatMachine)
    (hActivity : machine.cpu.activity = .instruction) {base : Nat} {index value : UInt8}
    (hStores : machine.instruction.form.StoresUnstable
      { machine.registers with pc := machine.registers.pc + 1 } machine.bus base index value) :
    let r := machine.registers
    let form := machine.instruction.form
    let reads := form.mode.readsOn { r with pc := r.pc + 1 } machine.bus .write
    let address := (base + index.toNat) % 0x10000
    let stored := value &&& UInt8.ofNat ((base / 0x100 + 1) % 0x100)
    let target :=
      if base / 0x100 = address / 0x100 then address else stored.toNat * 0x100 + address % 0x100
    (∃ op, form.mnemonic.unstableOp? = some op ∧
      UInt16.ofNat address - (Exec.unstableIndex op form.mode r).toUInt16 = UInt16.ofNat base) ∧
    machine.step.bus.log.toList = machine.bus.log.toList ++
      ((r.pc.toNat :: reads).map (fun a => Access.read (UInt16.ofNat a)) ++
        [.write (UInt16.ofNat target) stored]) ∧
    machine.step.ram = machine.ram.set target stored ∧
    machine.step.registers =
      { r with
        pc := r.pc + UInt16.ofNat form.length
        s := if form.mnemonic = .shs then r.a &&& r.x else r.s } := by
  intro r form reads address stored target
  obtain ⟨op, mode, hInstruction, hTakes⟩ := hStores.exists_takes
  have hForm : form = ⟨op.mnemonic, mode.mode⟩ := congrArg Instruction.form hInstruction
  -- The fetch of the opcode has moved the program counter and left the memory as it was.
  have hFetched : op.Takes machine.fetchedCore.toRegisters machine.fetchedBus mode base index value :=
    ⟨hTakes.owns, hTakes.base_lt, hTakes.index_eq, hTakes.value_eq, hTakes.operand_eq⟩
  have hRuns : machine.Runs (.storeUnstable op mode) := ⟨hActivity, hInstruction⟩
  have hStep := hRuns.step_of_write (Exec.storeUnstable_run_of_takes hFetched)
  have hPc : machine.fetchedCore.pc + UInt16.ofNat mode.mode.operandLength =
      r.pc + UInt16.ofNat form.length := by
    rw [hForm, Form.length, UInt16.ofNat_add, ← UInt16.add_assoc]
    rfl
  have hTaken := machine.fetchedCore.take_registers machine.fetchedBus mode.mode.operandLength
  rw [hPc] at hTaken
  have hIndex : Exec.index mode r = index := (Exec.index_pc r _ mode).symm.trans hTakes.index_eq
  refine ⟨⟨op, ?_, ?_⟩, ?_, hStep.2.1, ?_⟩
  · rw [hForm]
    cases op <;> rfl
  · rw [← hTakes.add_index, hForm, Exec.unstableIndex_eq hTakes.owns, hIndex]
    exact UInt16.add_sub_cancel _ _
  · simp only [reads, hForm]
    exact hStep.1
  · calc
      machine.step.registers = op.apply { r with pc := r.pc + UInt16.ofNat form.length } :=
        hStep.2.2.trans (congrArg op.apply hTaken)
      _ = _ := by
        rw [hForm]
        cases op <;> rfl

/-- `SHS $02F0,Y` leaves the page of its base for page 3, and stores the byte 1 in page 1. -/
theorem unstable_store_changes_its_page :
    let machine : FlatMachine :=
      { cpu := { core := { a := 0x05, x := 0x03, y := 0x20 } }
        bus := { ram := (Ram.zero 16).setBytes 0 [0x9B, 0xF0, 0x02] } }
    let r := machine.registers
    machine.cpu.activity = .instruction ∧
      machine.instruction.form.StoresUnstable { r with pc := r.pc + 1 } machine.bus 0x02F0 0x20 0x01 ∧
      machine.step.bus.log.toList =
        [.read 0x0000, .read 0x0001, .read 0x0002, .read 0x0210, .write 0x0110 0x01] ∧
      machine.step.registers = { r with pc := 0x0003, s := 0x01 } := by
  intro machine r
  have hForm : machine.instruction.form = ⟨.shs, .absoluteY⟩ := by decide +kernel
  have hBase : machine.bus.operandWord (r.pc + 1).toNat = 0x02F0 := by decide +kernel
  have hValue : r.a &&& r.x = 0x01 := by decide
  -- The base is given in numbers here, and by the operand in the constructor.
  have hStores : machine.instruction.form.StoresUnstable { r with pc := r.pc + 1 } machine.bus
      0x02F0 r.y (r.a &&& r.x) := by
    rw [hForm, ← hBase]
    exact .shs
  rw [hValue] at hStores
  have hStep := unstable_stores_recover_their_base machine rfl hStores
  refine ⟨rfl, hStores, hStep.2.1.trans (by decide +kernel), hStep.2.2.2.trans (by decide +kernel)⟩

end FlatMachine

end NesMachine
