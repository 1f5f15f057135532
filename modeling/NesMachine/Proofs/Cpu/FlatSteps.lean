import NesMachine.Proofs.Cpu.ProgramCounter

/-!
# Steps on a flat bus

A processor on a flat bus is a whole machine: a step takes its registers and its memory to new ones. For an
operation on a byte the step is two steps in one. It finds the operand, as the addressing mode says, and it
applies the operation, as the mnemonic says; here the two are put together.

* `FlatMachine.Runs`: the next step runs a given instruction.
* `FlatMachine.Applies`: the next step applies a given mnemonic to a given operand.
* `FlatMachine.Applies.read`: an operation that reads its operand.
* `FlatMachine.Applies.modify`: an operation that changes a byte of memory.
* `FlatMachine.Applies.shift`: a shift of the accumulator.
-/

namespace NesMachine

def Exec.Operand.byteIn (ram : Ram 16) : Exec.Operand → UInt8
  | .value byte => byte
  | .address target => ram.get target.toNat
  | .implied | .accumulator => 0

/-- All registers but the program counter, which is cleared. -/
def Registers.data (r : Registers) : Registers :=
  { r with pc := 0 }

/-! ## The machine -/

structure FlatMachine where
  cpu : Cpu
  bus : FlatBus

namespace FlatMachine

section Step

variable (machine : FlatMachine)

def registers : Registers :=
  machine.cpu.registers

def ram : Ram 16 :=
  machine.bus.ram

def step : FlatMachine :=
  let next := (machine.cpu.stepOn machine.bus).2
  { cpu := next.1, bus := next.2 }

/-- The instruction whose opcode stands at the program counter. -/
def instruction : Instruction :=
  Instruction.decode (machine.ram.get machine.registers.pc.toNat)

def operand : Exec.Operand :=
  let r := machine.registers
  machine.instruction.form.mode.operandOn { r with pc := r.pc + 1 } machine.bus

structure Runs (instruction : Instruction) : Prop where
  activity : machine.cpu.activity = .instruction
  decode : machine.instruction = instruction

/-- The next step applies a mnemonic to an operand. -/
structure Applies (mnemonic : Mnemonic) (operand : Exec.Operand) : Prop where
  activity : machine.cpu.activity = .instruction
  mnemonic : machine.instruction.form.mnemonic = mnemonic
  operand : machine.operand = operand

def fetchedCore : Core :=
  machine.cpu.core.cleared.take machine.bus 1

def fetchedBus : FlatBus :=
  (Bus.read machine.bus machine.registers.pc).2

end Step

variable {machine : FlatMachine} {instruction : Instruction} {core : Core} {bus : FlatBus}

/-- Where an instruction leads once its opcode has been fetched, the step leads. -/
theorem Runs.step_eq (h : machine.Runs instruction)
    (hRun : (Exec.execute instruction machine.fetchedCore).run machine.fetchedBus = (((), core), bus)) :
    machine.step = { cpu := machine.cpu.executed machine.bus.cycles instruction core, bus } := by
  have hInstruction : Instruction.decode (Bus.read machine.bus machine.cpu.core.pc).1 = instruction :=
    h.decode
  have hNext : (Exec.executeNext machine.cpu.core).run machine.bus = ((instruction, core), bus) := by
    have hExecuted := Exec.executeNext_run machine.cpu.core machine.bus
    simp only [hInstruction] at hExecuted
    exact hExecuted.trans (congrArg (fun final => ((instruction, final.1.2), final.2)) hRun)
  have hStep := Cpu.stepOn_snd_of_instruction h.activity machine.bus
  simp only [hNext] at hStep
  rw [step, hStep]
  rfl

theorem Applies.runs {mnemonic : Mnemonic} {operand : Exec.Operand}
    (h : machine.Applies mnemonic operand) : machine.Runs machine.instruction :=
  ⟨h.activity, rfl⟩

end FlatMachine

/-! ## Instructions by their mnemonics -/

/-- Operations that read are found by their mnemonic. -/
theorem Mnemonic.readOp?_mnemonic {op : ReadOp} (h : op ≠ .nop) : op.mnemonic.readOp? = some op := by
  cases op with
  | nop => exact absurd rfl h
  | _ => rfl

namespace Instruction

variable {instruction : Instruction}

/-- An operation on a byte that is read has its byte from the instruction or from memory. -/
theorem eq_of_readOp {op : ReadOp} (hNop : op ≠ .nop)
    (h : instruction.form.mnemonic = op.mnemonic) :
    instruction = .immediate op ∨ ∃ mode, instruction = .read op mode := by
  have hOp : instruction.form.mnemonic.readOp? = some op := h ▸ Mnemonic.readOp?_mnemonic hNop
  -- No other shape has a mnemonic of this kind.
  have hSame {other : ReadOp} (hOther : other.mnemonic.readOp? = some op) : other = op := by
    cases other with
    | nop => cases hOther
    | _ => exact Option.some.inj hOther
  cases instruction with
  | immediate other => exact .inl (congrArg immediate (hSame hOp))
  | read other mode => exact .inr ⟨mode, congrArg (read · mode) (hSame hOp)⟩
  | implied other => cases other <;> cases hOp
  | store other mode => cases other <;> cases hOp
  | storeUnstable other mode => cases other <;> cases hOp
  | shiftAccumulator other => cases other <;> cases hOp
  | modify other mode => rcases other with ⟨_ | _⟩ | _ <;> cases hOp
  | branch condition => cases condition <;> cases hOp
  | _ => cases hOp

/-- An operation that changes a byte changes one in memory, or it is a shift of the accumulator. -/
theorem eq_of_modifyOp {op : ModifyOp} (h : instruction.form.mnemonic = op.mnemonic) :
    (∃ mode, instruction = .modify op mode) ∨
      ∃ shift, op = .shift shift ∧ instruction = .shiftAccumulator shift := by
  have hOp : instruction.form.mnemonic.modifyOp? = some op := h ▸ Exec.modifyOp?_mnemonic op
  cases instruction with
  | modify other mode =>
    have hSame : other = op := Option.some.inj ((Exec.modifyOp?_mnemonic other).symm.trans hOp)
    exact .inl ⟨mode, congrArg (modify · mode) hSame⟩
  | shiftAccumulator other =>
    have hSame : ModifyOp.shift other = op :=
      Option.some.inj ((Exec.modifyOp?_mnemonic (.shift other)).symm.trans hOp)
    exact .inr ⟨other, hSame.symm, rfl⟩
  | implied other => cases other <;> cases hOp
  | immediate other => cases other <;> cases hOp
  | read other mode => cases other <;> cases hOp
  | store other mode => cases other <;> cases hOp
  | storeUnstable other mode => cases other <;> cases hOp
  | branch condition => cases condition <;> cases hOp
  | _ => cases hOp

end Instruction

/-! ## Operations and the program counter -/

section Data

variable (r : Registers)

/-- What a read operation does to the registers has nothing to do with the program counter. -/
theorem ReadOp.apply_data (op : ReadOp) (m : UInt8) : (op.apply m r).data = op.apply m r.data := by
  cases op <;> rfl

/-- The same is true of operations that change memory. -/
theorem ModifyOp.apply_data (op : ModifyOp) (m : UInt8) :
    ((op.apply m r).1, (op.apply m r).2.data) = op.apply m r.data := by
  cases op <;> rfl

end Data

/-- Taking bytes moves the program counter only. -/
theorem Core.take_data (core : Core) (bus : FlatBus) (n : Nat) :
    (core.take bus n).toRegisters.data = core.toRegisters.data := by
  rw [core.take_registers]
  rfl

/-! ## Executions -/

/-- Storing a byte twice in one place is storing the second one. -/
theorem Ram.set_set {n : Nat} (ram : Ram n) (a : Nat) (first second : UInt8) :
    (ram.set a first).set a second = ram.set a second := by
  refine Ram.ext_get fun b => ?_
  simp only [Ram.get_set]
  split <;> rfl

namespace Exec

variable {α : Type} {core : Core} {bus : FlatBus} {data : Registers} {ram : Ram 16} {target : UInt16}

/-- The execution leaves these data in the registers, and this memory. -/
structure Leaves (exec : Exec α) (core : Core) (bus : FlatBus) (data : Registers) (ram : Ram 16) :
    Prop where
  data : ((exec core).run bus).1.2.toRegisters.data = data
  ram : ((exec core).run bus).2.ram = ram

/-- The byte of an operand is found without a change in the memory. -/
theorem load_run (operand : Operand) (core : Core) (bus : FlatBus) :
    ((operand.load core).run bus).1 = (operand.byteIn bus.ram, core) ∧
      ((operand.load core).run bus).2.ram = bus.ram := by
  cases operand <;> exact ⟨rfl, rfl⟩

/-- An operation that reads its operand finds it and takes its byte. -/
theorem execute_readOp {instruction : Instruction} {op : ReadOp} (hNop : op ≠ .nop)
    (h : instruction.form.mnemonic = op.mnemonic) :
    execute instruction = (do
      let operand ← resolve (purposeOf .read) instruction.form.mode
      update (op.apply (← operand.load))) := by
  rcases Instruction.eq_of_readOp hNop h with rfl | ⟨mode, rfl⟩
  · rfl
  · rw [Instruction.form, resolve_mode, bind_map_left]
    rfl

/-- An instruction with the mnemonic of a read operation applies it to its operand and changes no memory. -/
theorem readOp_leaves {instruction : Instruction} {op : ReadOp} (hNop : op ≠ .nop)
    (h : instruction.form.mnemonic = op.mnemonic) (core : Core) (bus : FlatBus) :
    (execute instruction).Leaves core bus
      (op.apply ((instruction.form.mode.operandOn core.toRegisters bus).byteIn bus.ram)
        core.toRegisters.data)
      bus.ram := by
  let mode := instruction.form.mode
  let operand := mode.operandOn core.toRegisters bus
  let taken := core.take bus mode.operandLength
  let bus' := bus.afterReads (mode.readsOn core.toRegisters bus .read)
  have hRam : bus'.ram = bus.ram := bus.afterReads_ram _
  have hLoad := load_run operand taken bus'
  have hRun : (execute instruction core).run bus =
      (((), { taken with toRegisters := op.apply (operand.byteIn bus.ram) taken.toRegisters }),
        ((operand.load taken).run bus').2) := by
    -- The operand is read off the bus as it was before the instruction: its reads change no memory.
    rw [execute_readOp hNop h, run_bind, resolve_run, run_bind, hLoad.1, hRam]
    rfl
  refine ⟨?_, ?_⟩
  · rw [hRun]
    calc
      (op.apply (operand.byteIn bus.ram) taken.toRegisters).data
          = op.apply (operand.byteIn bus.ram) taken.toRegisters.data := op.apply_data _ _
      _ = op.apply (operand.byteIn bus.ram) core.toRegisters.data := by rw [core.take_data]
  · rw [hRun]
    exact hLoad.2.trans hRam

/-- Forming the address of an operand takes its bytes and makes the reads on the way. -/
theorem address_run (use : OperandUse) {mode : MemoryMode}
    (h : mode.mode.operandOn core.toRegisters bus = .address target) :
    (address (purposeOf use) mode core).run bus =
      ((target, core.take bus mode.mode.operandLength),
        bus.afterReads (mode.mode.readsOn core.toRegisters bus use)) := by
  have hResolve := resolve_run use core bus mode.mode
  rw [resolve_mode, run_map, h] at hResolve
  have hTarget : ((address (purposeOf use) mode core).run bus).1.1 = target :=
    Operand.address.inj (congrArg (·.1.1) hResolve)
  have hCore := congrArg (·.1.2) hResolve
  have hBus := congrArg (·.2) hResolve
  exact Prod.ext (Prod.ext hTarget hCore) hBus

/-- An operation on a byte of memory reads it, and leaves the changed byte in its place. -/
theorem modify_leaves (op : ModifyOp) {mode : MemoryMode}
    (h : mode.mode.operandOn core.toRegisters bus = .address target) :
    (execute (.modify op mode)).Leaves core bus
      (op.apply (bus.ram.get target.toNat) core.toRegisters.data).2
      (bus.ram.set target.toNat (op.apply (bus.ram.get target.toNat) core.toRegisters.data).1) := by
  let taken := core.take bus mode.mode.operandLength
  let bus' := bus.afterReads (mode.mode.readsOn core.toRegisters bus .modify)
  have hRam : bus'.ram = bus.ram := bus.afterReads_ram _
  have hAddress : (address .store mode core).run bus = ((target, taken), bus') := address_run .modify h
  have hRun : (execute (.modify op mode) core).run bus = (modifyAt op target taken).run bus' := by
    rw [execute, run_bind, hAddress]
  let old := bus'.ram.get target.toNat
  have hData := op.apply_data taken.toRegisters old
  rw [core.take_data] at hData
  refine ⟨?_, ?_⟩
  · rw [hRun, ← hRam, ← hData]
    rfl
  · -- The old byte is written back before the new one.
    rw [hRun, ← hRam, ← hData]
    exact Ram.set_set _ _ _ _

end Exec

/-! ## Steps -/

namespace FlatMachine

variable {machine : FlatMachine} {instruction : Instruction} {operand : Exec.Operand}
  {data : Registers} {ram : Ram 16}

theorem Runs.step_leaves (h : machine.Runs instruction)
    (hLeaves : (Exec.execute instruction).Leaves machine.fetchedCore machine.fetchedBus data ram) :
    machine.step.registers.data = data ∧ machine.step.ram = ram := by
  rw [h.step_eq rfl]
  exact ⟨hLeaves.data, hLeaves.ram⟩

/-- An operation that reads its operand is applied to the byte there. -/
theorem Applies.read (op : ReadOp) (hNop : op ≠ .nop) (h : machine.Applies op.mnemonic operand) :
    machine.step.registers.data = op.apply (operand.byteIn machine.ram) machine.registers.data ∧
      machine.step.ram = machine.ram := by
  have hLeaves := Exec.readOp_leaves hNop h.mnemonic machine.fetchedCore machine.fetchedBus
  have hOperand : machine.instruction.form.mode.operandOn machine.fetchedCore.toRegisters
      machine.fetchedBus = operand := h.operand
  rw [hOperand] at hLeaves
  exact h.runs.step_leaves hLeaves

/-- An operation that changes a byte of memory is applied to it, and to no other byte. -/
theorem Applies.modify (op : ModifyOp) {target : UInt16}
    (h : machine.Applies op.mnemonic (.address target)) :
    let changed := op.apply (machine.ram.get target.toNat) machine.registers.data
    machine.step.registers.data = changed.2 ∧
      machine.step.ram = machine.ram.set target.toNat changed.1 := by
  intro changed
  have hOperand : machine.instruction.form.mode.operandOn machine.fetchedCore.toRegisters
      machine.fetchedBus = .address target := h.operand
  rcases Instruction.eq_of_modifyOp h.mnemonic with ⟨mode, hModify⟩ | ⟨shift, -, hShift⟩
  · rw [hModify] at hOperand
    exact (hModify ▸ h.runs).step_leaves (Exec.modify_leaves op hOperand)
  · rw [hShift] at hOperand
    cases hOperand

/-- A shift of the accumulator. -/
theorem Applies.shift (op : ShiftOp) (h : machine.Applies op.mnemonic .accumulator) :
    let r := machine.registers.data
    machine.step.registers.data = r.setA (op.apply r.p r.a) ∧ machine.step.ram = machine.ram := by
  intro r
  have hOperand : machine.instruction.form.mode.operandOn machine.fetchedCore.toRegisters
      machine.fetchedBus = .accumulator := h.operand
  have hMnemonic : machine.instruction.form.mnemonic = (ModifyOp.shift op).mnemonic := h.mnemonic
  rcases Instruction.eq_of_modifyOp hMnemonic with ⟨mode, hModify⟩ | ⟨shift, hOp, hShift⟩
  · rw [hModify] at hOperand
    rcases mode with _ | _ | _ | _ | _ | ⟨_ | _ | _⟩ <;> cases hOperand
  · cases hOp
    exact (hShift ▸ h.runs).step_leaves ⟨rfl, rfl⟩

end FlatMachine

end NesMachine
