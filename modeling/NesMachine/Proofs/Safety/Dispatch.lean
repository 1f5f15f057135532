import NesMachine.Cpu.Execute
import NesMachine.Proofs.Safety.Checked

/-!
# Dispatch by mnemonic

The shape of an `Instruction` lets no operation meet an operand of the wrong kind. A processor that
keeps a mnemonic and an addressing mode apart has no such shape: it resolves the operand from the mode
alone, hands it to the part that the mnemonic belongs to, and stops when that part does not know the
mnemonic or cannot use the operand. Nothing but the opcode table keeps the two together.

* `Exec.dispatch`: an instruction from its mnemonic and its mode, with all checks.
* `Exec.dispatch_decode`: for each of the 256 opcodes no check fails, and the effect is that of
  `Exec.execute`.
* `Exec.checkedExecuteNext_eq`: so it is for an instruction with its fetch.
-/

namespace NesMachine

/-! ## Mnemonics -/

inductive OperandUse
  | read
  | write
  | modify
  deriving DecidableEq, Repr

namespace Mnemonic

def operandUse : Mnemonic → OperandUse
  | .sax | .sha | .shx | .shy | .shs | .sta | .stx | .sty => .write
  | .asl | .lsr | .rol | .ror | .dec | .inc | .dcp | .isc | .rla | .rra | .slo | .sre => .modify
  | _ => .read

def control? : Mnemonic → Option Instruction
  | .brk => some .brk | .jsr => some .jsr | .rts => some .rts | .rti => some .rti
  | .pha => some .pha | .php => some .php | .pla => some .pla | .plp => some .plp
  | .bcc => some (.branch .carryClear) | .bcs => some (.branch .carrySet)
  | .bne => some (.branch .notEqual) | .beq => some (.branch .equal)
  | .bpl => some (.branch .plus) | .bmi => some (.branch .minus)
  | .bvc => some (.branch .overflowClear) | .bvs => some (.branch .overflowSet)
  | _ => none

def readOp? : Mnemonic → Option ReadOp
  | .lda => some .lda | .ldx => some .ldx | .ldy => some .ldy | .lax => some .lax | .las => some .las
  | .and => some .and | .ora => some .ora | .eor => some .eor | .bit => some .bit
  | .adc => some .adc | .sbc => some .sbc
  | .cmp => some .cmp | .cpx => some .cpx | .cpy => some .cpy
  | .anc => some .anc | .alr => some .alr | .arr => some .arr | .sbx => some .sbx | .xaa => some .xaa
  | _ => none

def impliedOp? : Mnemonic → Option ImpliedOp
  | .tax => some .tax | .tay => some .tay | .tsx => some .tsx
  | .txa => some .txa | .txs => some .txs | .tya => some .tya
  | .inx => some .inx | .iny => some .iny | .dex => some .dex | .dey => some .dey
  | .clc => some .clc | .sec => some .sec | .cld => some .cld | .sed => some .sed
  | .cli => some .cli | .sei => some .sei | .clv => some .clv
  | _ => none

def storeOp? : Mnemonic → Option StoreOp
  | .sta => some .sta | .stx => some .stx | .sty => some .sty | .sax => some .sax
  | _ => none

def unstableOp? : Mnemonic → Option UnstableOp
  | .sha => some .sha | .shx => some .shx | .shy => some .shy | .shs => some .shs
  | _ => none

def modifyOp? : Mnemonic → Option ModifyOp
  | .asl => some (.shift .asl) | .lsr => some (.shift .lsr)
  | .rol => some (.shift .rol) | .ror => some (.shift .ror)
  | .inc => some .inc | .dec => some .dec
  | .slo => some .slo | .rla => some .rla | .sre => some .sre | .rra => some .rra
  | .dcp => some .dcp | .isc => some .isc
  | _ => none

end Mnemonic

/-! ## Sums -/

/-- The sum of an addition, which is made in a word. -/
def Arithmetic.checkAdd (p : Flags) (a m : UInt8) : Checked Unit := do
  let _ ← Checked.fit UInt16.size (a.toNat + m.toNat + p.carry.toNat)

def ReadOp.check (op : ReadOp) (m : UInt8) (r : Registers) : Checked Unit :=
  match op with
  | .adc => Arithmetic.checkAdd r.p r.a m
  | .sbc => Arithmetic.checkAdd r.p r.a (~~~m)
  | _ => .ok ()

def ModifyOp.check (op : ModifyOp) (m : UInt8) (r : Registers) : Checked Unit :=
  match op with
  | .rra =>
    let (result, p) := Arithmetic.rotateRight r.p m
    Arithmetic.checkAdd p r.a result
  | .isc => Arithmetic.checkAdd r.p r.a (~~~(m + 1))
  | _ => .ok ()

/-- The sum of two bytes and a carry fits in a word. -/
theorem Arithmetic.checkAdd_eq_ok (p : Flags) (a m : UInt8) : checkAdd p a m = .ok () := by
  have hA := a.toNat_lt
  have hM := m.toNat_lt
  have hCarry : p.carry.toNat ≤ 1 := Bool.toNat_le _
  rw [checkAdd, Checked.fit_word_eq_ok (by omega)]
  rfl

theorem ReadOp.check_eq_ok (op : ReadOp) (m : UInt8) (r : Registers) : op.check m r = .ok () := by
  cases op with
  | adc => exact Arithmetic.checkAdd_eq_ok _ _ _
  | sbc => exact Arithmetic.checkAdd_eq_ok _ _ _
  | _ => rfl

theorem ModifyOp.check_eq_ok (op : ModifyOp) (m : UInt8) (r : Registers) :
    op.check m r = .ok () := by
  cases op with
  | rra => exact Arithmetic.checkAdd_eq_ok _ _ _
  | isc => exact Arithmetic.checkAdd_eq_ok _ _ _
  | _ => rfl

/-! ## Executions with checks -/

abbrev CheckedScript := ExceptT Violation Script

abbrev CheckedExec := StateT Core CheckedScript

namespace Exec

variable {α β : Type}

def unchecked (exec : Exec α) : CheckedExec α :=
  fun core => ExceptT.lift (exec core)

def require (check : Checked α) : CheckedExec α :=
  fun core => ExceptT.mk (pure (check.map fun result => (result, core)))

/-- What makes no check can be taken apart and still makes none. -/
theorem unchecked_bind (exec : Exec α) (f : α → Exec β) :
    unchecked (exec >>= f) = unchecked exec >>= fun result => unchecked (f result) := by
  funext core
  exact monadLift_bind (n := CheckedScript) (exec core) fun result => f result.1 result.2

theorem unchecked_pure (result : α) : unchecked (pure result) = pure result := by
  funext core
  rfl

theorem unchecked_map (f : α → β) (exec : Exec α) :
    unchecked (f <$> exec) = f <$> unchecked exec := by
  rw [← bind_pure_comp, ← bind_pure_comp, unchecked_bind]
  rfl

@[simp] theorem require_ok (result : α) : require (.ok result) = pure result := rfl

/-! ## Operands -/

/-- What a mode resolves to. -/
inductive Operand
  | implied
  | accumulator
  | value (byte : UInt8)
  | address (address : UInt16)
  deriving DecidableEq, Repr

/-- Makes the accesses of a mode on the way to its operand. -/
def resolve (purpose : Purpose) : Mode → Exec Operand
  | .implied => do
    dummyFetch
    return .implied
  | .accumulator => do
    dummyFetch
    return .accumulator
  | .immediate | .relative => Operand.value <$> fetch
  | .zeroPage => Operand.address <$> address purpose .zeroPage
  | .zeroPageX => Operand.address <$> address purpose .zeroPageX
  | .zeroPageY => Operand.address <$> address purpose .zeroPageY
  | .absolute => Operand.address <$> address purpose .absolute
  | .absoluteX => Operand.address <$> address purpose .absoluteX
  | .absoluteY => Operand.address <$> address purpose .absoluteY
  | .indirectX => Operand.address <$> address purpose .indirectX
  | .indirectY => Operand.address <$> address purpose .indirectY
  | .indirect => do
    let pointer ← fetchWord
    Operand.address <$> readPointer pointer

/-- In the modes with an address, resolving is forming the address. -/
theorem resolve_mode (purpose : Purpose) (mode : MemoryMode) :
    resolve purpose mode.mode = Operand.address <$> address purpose mode := by
  rcases mode with _ | _ | _ | _ | _ | ⟨_ | _ | _⟩ <;> rfl

def Operand.load : Operand → Exec UInt8
  | .value byte => pure byte
  | .address target => read target
  | .implied | .accumulator => pure 0

/-! ## The parts of the processor -/

def readWith (mnemonic : Mnemonic) (operand : Operand) : CheckedExec Unit :=
  match mnemonic with
  | .nop | .jam =>
    match operand with
    | .address address => unchecked (dummyRead address)
    | _ => pure ()
  | _ =>
    match mnemonic.readOp? with
    | some op => do
      let byte ← unchecked operand.load
      let r ← unchecked registers
      require (op.check byte r)
      unchecked (update (op.apply byte))
    | none =>
      match mnemonic.impliedOp? with
      | some op => unchecked (update op.apply)
      | none => throw (.unknownMnemonic mnemonic)

/-- The register that an unstable store takes back off its address. -/
def unstableIndex (op : UnstableOp) (mode : Mode) (r : Registers) : UInt8 :=
  match op with
  | .sha => if mode = .absoluteX ∨ mode = .zeroPageX then r.x else r.y
  | .shx => r.y
  | .shy => r.x
  | .shs => r.y

def storeFrom (op : UnstableOp) (start address : UInt16) : Exec Unit := do
  let stored := UnstableOp.stored (op.value (← registers)) start
  update op.apply
  write (UnstableOp.target stored start address) stored

/-- An unstable store at an address whose base is found by taking the index back off. -/
def storeUnstableAt (op : UnstableOp) (mode : Mode) (address : UInt16) : Exec Unit := do
  let r ← registers
  storeFrom op (address - (unstableIndex op mode r).toUInt16) address

def writeWith (mnemonic : Mnemonic) (mode : Mode) : Operand → CheckedExec Unit
  | .address address =>
    match mnemonic.storeOp? with
    | some op => unchecked do write address (op.value (← registers))
    | none =>
      match mnemonic.unstableOp? with
      | some op => unchecked (storeUnstableAt op mode address)
      | none => throw (.unknownMnemonic mnemonic)
  | _ => throw (.missingOperand mnemonic)

def modifyByte (mnemonic : Mnemonic) (m : UInt8) : CheckedExec UInt8 :=
  match mnemonic.modifyOp? with
  | some op => do
    let r ← unchecked registers
    require (op.check m r)
    unchecked (update fun _ => (op.apply m r).2)
    return (op.apply m r).1
  | none => throw (.unknownMnemonic mnemonic)

def modifyWith (mnemonic : Mnemonic) : Operand → CheckedExec Unit
  | .accumulator => do
    let r ← unchecked registers
    let new ← modifyByte mnemonic r.a
    unchecked (update fun r => { r with a := new })
  | .address address => do
    let old ← unchecked (read address)
    unchecked (write address old)
    let new ← modifyByte mnemonic old
    unchecked (write address new)
  | _ => throw (.missingOperand mnemonic)

def runWith (form : Form) (use : OperandUse) (operand : Operand) : CheckedExec Unit :=
  match use with
  | .read => readWith form.mnemonic operand
  | .write => writeWith form.mnemonic form.mode operand
  | .modify => modifyWith form.mnemonic operand

def jumpWith : Operand → CheckedExec Unit
  | .address target => unchecked (setPC target)
  | _ => pure ()

def purposeOf : OperandUse → Purpose
  | .read => .load
  | .write | .modify => .store

def dispatch (form : Form) : CheckedExec Unit :=
  match form.mnemonic.control? with
  | some instruction => unchecked (execute instruction)
  | none =>
    if form.mnemonic = .jmp then do
      let operand ← unchecked (resolve .load form.mode)
      jumpWith operand
    else do
      let operand ← unchecked (resolve (purposeOf form.mnemonic.operandUse) form.mode)
      runWith form form.mnemonic.operandUse operand

/-! ## Each operation reaches its part -/

theorem modifyOp?_mnemonic (op : ModifyOp) : op.mnemonic.modifyOp? = some op := by
  cases op with
  | shift op => cases op <;> rfl
  | _ => rfl

/-- Whatever mnemonic reads, its operation is applied to the operand. -/
theorem readWith_readOp (op : ReadOp) (operand : Operand) : readWith op.mnemonic operand =
    unchecked (do update (op.apply (← operand.load))) := by
  have hRead : ∀ byte : UInt8, (do
      let r ← unchecked registers
      require (op.check byte r)
      unchecked (update (op.apply byte))) = unchecked (update (op.apply byte)) := by
    intro byte
    simp only [op.check_eq_ok, require_ok, pure_bind]
    rfl
  cases op with
  | nop => cases operand <;> rfl
  | _ =>
    rw [unchecked_bind]
    exact congrArg (unchecked operand.load >>= ·) (funext hRead)

theorem readWith_impliedOp (op : ImpliedOp) :
    readWith op.mnemonic .implied = unchecked (update op.apply) := by
  cases op <;> rfl

theorem writeWith_storeOp (op : StoreOp) (mode : Mode) (target : UInt16) :
    writeWith op.mnemonic mode (.address target) =
      unchecked (do write target (op.value (← registers))) := by
  cases op <;> rfl

theorem writeWith_unstableOp (op : UnstableOp) (mode : Mode) (target : UInt16) :
    writeWith op.mnemonic mode (.address target) = unchecked (storeUnstableAt op mode target) := by
  cases op <;> rfl

theorem modifyByte_modifyOp (op : ModifyOp) (m : UInt8) : modifyByte op.mnemonic m =
    unchecked (do
      let (new, r) := op.apply m (← registers)
      update fun _ => r
      return new) := by
  simp only [modifyByte, modifyOp?_mnemonic, op.check_eq_ok, require_ok, pure_bind]
  rfl

/-- A mnemonic that changes memory reads, writes back and writes. -/
theorem modifyWith_address (op : ModifyOp) (target : UInt16) :
    modifyWith op.mnemonic (.address target) = unchecked (modifyAt op target) := by
  simp only [modifyWith, modifyByte_modifyOp]
  rfl

theorem modifyWith_accumulator (op : ShiftOp) : modifyWith op.mnemonic .accumulator =
    unchecked (update fun r => r.setA (op.apply r.p r.a)) := by
  have hByte := modifyByte_modifyOp (.shift op)
  simp only [ModifyOp.mnemonic] at hByte
  simp only [modifyWith, hByte]
  rfl

/-! ## The unstable stores -/

/-- The modes that add the index which an unstable store takes back off. -/
def unstableModes : UnstableOp → List IndexedMode
  | .sha => [.absoluteX, .absoluteY, .indirectY]
  | .shx | .shs => [.absoluteY, .indirectY]
  | .shy => [.absoluteX]

/-- An unstable store has one of its modes. -/
def takesOwnIndex : Instruction → Bool
  | .storeUnstable op mode => mode ∈ unstableModes op
  | _ => true

/-- In the modes it has, an unstable store takes the index off that was added. -/
theorem unstableIndex_eq {op : UnstableOp} {mode : IndexedMode}
    (h : takesOwnIndex (.storeUnstable op mode) = true) (r : Registers) :
    unstableIndex op mode.mode r = index mode r := by
  cases op <;> cases mode <;> first | rfl | cases h

section Steps

variable {α : Type}

theorem registers_bind (f : Registers → Exec α) (core : Core) :
    (registers >>= f) core = f core.toRegisters core := rfl

theorem dummyRead_bind (address : UInt16) (f : Unit → Exec α) (core : Core) :
    (dummyRead address >>= f) core = Script.read address fun _ => f () core := rfl

end Steps

theorem indexed_store (start : UInt16) (index : UInt8) : indexed .store start index = (do
    dummyRead (Word.onPageOf start (start + index.toUInt16))
    return start + index.toUInt16) := by
  rw [indexed, if_pos]
  rw [Bool.or_eq_true]
  exact .inl rfl

/-- Taking the index back off gives the base that was found before. -/
theorem storeUnstableAt_indexed {op : UnstableOp} {mode : IndexedMode}
    (h : takesOwnIndex (.storeUnstable op mode) = true) (start : UInt16) (core : Core) :
    storeUnstableAt op mode.mode (start + (index mode core.toRegisters).toUInt16) core =
      storeFrom op start (start + (index mode core.toRegisters).toUInt16) core := by
  have hStart : start + (index mode core.toRegisters).toUInt16 -
      (index mode core.toRegisters).toUInt16 = start := UInt16.add_sub_cancel _ _
  rw [storeUnstableAt, registers_bind, unstableIndex_eq h, hStart]

/-- So a store that recovers its base is one that has kept it. -/
theorem storeUnstableAt_eq {op : UnstableOp} {mode : IndexedMode}
    (h : takesOwnIndex (.storeUnstable op mode) = true) :
    address .store (.indexed mode) >>= storeUnstableAt op mode.mode = storeUnstable op mode := by
  have hBase : ∀ start : UInt16, (do
      let target ← indexed .store start (index mode (← registers))
      storeUnstableAt op mode.mode target) = (do
      let target ← indexed .store start (index mode (← registers))
      storeFrom op start target) := by
    intro start
    funext core
    -- The dummy read on the way changes no register.
    simp only [registers_bind, indexed_store, bind_assoc, pure_bind, dummyRead_bind,
      storeUnstableAt_indexed h]
  simp only [address, bind_assoc, hBase]
  rfl

/-! ## Every opcode -/

/-- The mnemonic takes an operand of a mode, for a given use. -/
structure UsesOperand (mnemonic : Mnemonic) (use : OperandUse) : Prop where
  control : mnemonic.control? = none
  ne_jmp : mnemonic ≠ .jmp
  use : mnemonic.operandUse = use

theorem usesOperand_implied (op : ImpliedOp) : UsesOperand op.mnemonic .read := by
  cases op <;> exact ⟨rfl, by decide, rfl⟩

theorem usesOperand_read (op : ReadOp) : UsesOperand op.mnemonic .read := by
  cases op <;> exact ⟨rfl, by decide, rfl⟩

theorem usesOperand_store (op : StoreOp) : UsesOperand op.mnemonic .write := by
  cases op <;> exact ⟨rfl, by decide, rfl⟩

theorem usesOperand_storeUnstable (op : UnstableOp) : UsesOperand op.mnemonic .write := by
  cases op <;> exact ⟨rfl, by decide, rfl⟩

theorem usesOperand_shift (op : ShiftOp) : UsesOperand op.mnemonic .modify := by
  cases op <;> exact ⟨rfl, by decide, rfl⟩

theorem usesOperand_modify (op : ModifyOp) : UsesOperand op.mnemonic .modify := by
  cases op with
  | shift op => exact usesOperand_shift op
  | _ => exact ⟨rfl, by decide, rfl⟩

section Use

variable {mnemonic : Mnemonic} {use : OperandUse}

/-- A mnemonic with an operand resolves its mode, and then hands the operand on. -/
theorem dispatch_of_uses (h : UsesOperand mnemonic use) (mode : Mode) :
    dispatch ⟨mnemonic, mode⟩ =
      unchecked (resolve (purposeOf use) mode) >>= runWith ⟨mnemonic, mode⟩ use := by
  simp only [dispatch, h.control, h.use, if_neg h.ne_jmp]

/-- An operand in memory is found and then used. -/
theorem dispatch_memory (h : UsesOperand mnemonic use) (mode : MemoryMode) {f : UInt16 → Exec Unit}
    (hRun : ∀ target, runWith ⟨mnemonic, mode.mode⟩ use (.address target) = unchecked (f target)) :
    dispatch ⟨mnemonic, mode.mode⟩ = unchecked (address (purposeOf use) mode >>= f) := by
  rw [dispatch_of_uses h, resolve_mode, unchecked_map, bind_map_left, unchecked_bind]
  exact congrArg (unchecked (address (purposeOf use) mode) >>= ·) (funext hRun)

end Use

/-- No check of an instruction fails, if an unstable store takes its own index. -/
theorem dispatch_form : ∀ {instruction : Instruction}, takesOwnIndex instruction = true →
    dispatch instruction.form = unchecked (execute instruction)
  | .implied op, _ => by
    rw [Instruction.form, dispatch_of_uses (usesOperand_implied op)]
    -- Resolving the implied operand is the dummy fetch.
    have hRun : ∀ operand, operand = Operand.implied →
        runWith ⟨op.mnemonic, .implied⟩ .read operand = unchecked (update op.apply) := by
      rintro operand rfl
      exact readWith_impliedOp op
    exact (congrArg (unchecked dummyFetch >>= ·) (funext fun _ => hRun _ rfl)).trans
      (unchecked_bind _ _).symm
  | .immediate op, _ => by
    rw [Instruction.form, dispatch_of_uses (usesOperand_read op), resolve, unchecked_map,
      bind_map_left, execute, unchecked_bind]
    exact congrArg (unchecked fetch >>= ·) (funext fun byte => readWith_readOp op (.value byte))
  | .read op mode, _ => by
    -- The purpose that goes with the use reduces to the one in `execute`.
    have hRead := dispatch_memory (usesOperand_read op) mode fun target =>
      readWith_readOp op (.address target)
    exact hRead
  | .store op mode, _ =>
    dispatch_memory (usesOperand_store op) mode (writeWith_storeOp op mode.mode)
  | .storeUnstable op mode, h => by
    have hStore := dispatch_memory (usesOperand_storeUnstable op) (.indexed mode)
      (writeWith_unstableOp op mode.mode)
    rw [purposeOf, storeUnstableAt_eq h] at hStore
    exact hStore
  | .shiftAccumulator op, _ => by
    rw [Instruction.form, dispatch_of_uses (usesOperand_shift op)]
    exact (congrArg (unchecked dummyFetch >>= ·) (funext fun _ => modifyWith_accumulator op)).trans
      (unchecked_bind _ _).symm
  | .modify op mode, _ =>
    dispatch_memory (usesOperand_modify op) mode (modifyWith_address op)
  | .branch condition, _ => by
    cases condition <;> rfl
  | .jmp, _ => by
    have hJump : dispatch ⟨.jmp, .absolute⟩ =
        unchecked (Operand.address <$> fetchWord) >>= jumpWith := rfl
    rw [Instruction.form, hJump, unchecked_map, bind_map_left, execute, unchecked_bind]
    rfl
  | .jmpIndirect, _ => by
    have hJump : dispatch ⟨.jmp, .indirect⟩ =
        unchecked (do Operand.address <$> readPointer (← fetchWord)) >>= jumpWith := rfl
    rw [Instruction.form, hJump, execute, unchecked_bind, unchecked_bind, bind_assoc]
    refine congrArg (unchecked fetchWord >>= ·) (funext fun pointer => ?_)
    rw [unchecked_map, bind_map_left, unchecked_bind]
    rfl
  | .jsr, _ | .rts, _ | .brk, _ | .rti, _ | .pha, _ | .php, _ | .pla, _ | .plp, _ => rfl

/-- No opcode has an unstable store in a mode it could not take back. -/
theorem takesOwnIndex_table : Instruction.table.toList.all takesOwnIndex = true := by
  decide +kernel

/-- The opcode table keeps mnemonics and modes together. -/
theorem dispatch_decode (opcode : UInt8) :
    dispatch (Instruction.decode opcode).form = unchecked (execute (Instruction.decode opcode)) := by
  have hMem : Instruction.decode opcode ∈ Instruction.table.toList :=
    Array.mem_toList_iff.mpr (Array.getElem_mem _)
  exact dispatch_form (List.all_eq_true.mp takesOwnIndex_table _ hMem)

/-! ## The next instruction -/

def checkedDecode (opcode : UInt8) : Checked Instruction :=
  match Instruction.table[opcode.toNat]? with
  | some instruction => .ok instruction
  | none => .error (.outOfBounds opcode.toNat Instruction.table.size)

def checkedExecuteNext : CheckedExec Instruction := do
  unchecked (modify fun core => { core with fetched := core.fetched.clear })
  let opcode ← unchecked fetch
  let instruction ← require (checkedDecode opcode)
  dispatch instruction.form
  return instruction

theorem getElem?_table (opcode : UInt8) :
    Instruction.table[opcode.toNat]? = some (Instruction.decode opcode) := by
  have hBound : opcode.toNat < Instruction.table.size := Instruction.size_table ▸ opcode.toNat_lt
  exact Array.getElem?_eq_getElem hBound

theorem checkedDecode_eq_ok (opcode : UInt8) :
    checkedDecode opcode = .ok (Instruction.decode opcode) := by
  unfold checkedDecode
  rw [getElem?_table]

/-- No check of the next instruction fails, whatever its opcode. -/
theorem checkedExecuteNext_eq : checkedExecuteNext = unchecked executeNext := by
  simp only [checkedExecuteNext, executeNext, checkedDecode_eq_ok, require_ok, pure_bind,
    dispatch_decode, unchecked_bind, unchecked_pure]

end Exec

end NesMachine
