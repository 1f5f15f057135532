import NesMachine.Proofs.Bus.Exchanges
import NesMachine.Proofs.Cpu.Activity
import NesMachine.Proofs.Cpu.Addressing
import NesMachine.Proofs.Word

/-!
# What a step writes

In plain memory a stray write is easily missed, but on the console it may start a transfer or change the
registers of a device. So the class of an instruction settles its writes: most make none, a store makes one, a
change makes two at one address, and a push makes one for each byte.

* `Registers.pushes`: the writes that push bytes.
* `MemoryMode.Finds`: the reads that find the address of a store or of a change.
* `Instruction.Allows`: the exchanges that an instruction may make.
* `Exec.execute_allowed`: it makes no others.
* `Cpu.writes_what_the_class_allows`: the same for a whole step, as it shows in the log of a bus.
-/

namespace NesMachine

/-! ## Pushes -/

namespace Registers

/-- The place of the stack that is `k` below the stack pointer, which wraps within its page. -/
def stackPlace (r : Registers) (k : Nat) : UInt16 :=
  -- The difference of integers may be negative; its remainder is not.
  UInt16.ofNat (0x100 + ((r.s.toNat - k : Int) % 0x100).toNat)

/-- The writes that push bytes, the first of them where the stack pointer points. -/
def pushes (r : Registers) (bytes : List UInt8) : List (UInt16 × UInt8) :=
  bytes.mapIdx fun k byte => (r.stackPlace k, byte)

variable (r : Registers)

theorem stackPlace_zero : r.stackPlace 0 = r.stackAddress := by
  have hOffset := r.s.toNat_lt
  rw [← UInt16.toNat_inj, stackAddress, Byte.toNat_stackAddress, stackPlace, UInt16.toNat_ofNat']
  omega

/-- The place after a push is the one above the next pushes. -/
theorem stackPlace_succ (k : Nat) : r.stackPlace (k + 1) = { r with s := r.s - 1 }.stackPlace k := by
  have hOffset := r.s.toNat_lt
  simp only [stackPlace, Byte.toNat_pred]
  congr 2
  omega

theorem pushes_nil : r.pushes [] = [] := rfl

theorem pushes_cons (byte : UInt8) (rest : List UInt8) :
    r.pushes (byte :: rest) = (r.stackAddress, byte) :: { r with s := r.s - 1 }.pushes rest := by
  simp only [pushes, List.mapIdx_cons, stackPlace_zero, stackPlace_succ]

end Registers

/-! ## Addresses -/

/-- The reads that find the word to which an indexed mode adds its index, and this word. -/
inductive IndexedMode.FindsBase (r : Registers) : IndexedMode → List Exchange → UInt16 → Prop
  | absoluteX {low high : UInt8} :
      FindsBase r .absoluteX [.read r.pc low, .read (r.pc + 1) high] (Word.ofBytes low high)
  | absoluteY {low high : UInt8} :
      FindsBase r .absoluteY [.read r.pc low, .read (r.pc + 1) high] (Word.ofBytes low high)
  | indirectY {pointer low high : UInt8} :
      FindsBase r .indirectY
        [.read r.pc pointer, .read pointer.toUInt16 low, .read (pointer + 1).toUInt16 high]
        (Word.ofBytes low high)

/-- The reads that find the address of a store or of a change, and this address. The program counter stands
behind the opcode; a byte that is `unused` is the answer to a dummy read. -/
inductive MemoryMode.Finds (r : Registers) : MemoryMode → List Exchange → UInt16 → Prop
  | zeroPage {operand : UInt8} : Finds r .zeroPage [.read r.pc operand] operand.toUInt16
  | zeroPageX {operand unused : UInt8} :
      Finds r .zeroPageX [.read r.pc operand, .read operand.toUInt16 unused] (operand + r.x).toUInt16
  | zeroPageY {operand unused : UInt8} :
      Finds r .zeroPageY [.read r.pc operand, .read operand.toUInt16 unused] (operand + r.y).toUInt16
  | absolute {low high : UInt8} :
      Finds r .absolute [.read r.pc low, .read (r.pc + 1) high] (Word.ofBytes low high)
  | indirectX {operand unused low high : UInt8} :
      Finds r .indirectX
        [.read r.pc operand, .read operand.toUInt16 unused, .read (operand + r.x).toUInt16 low,
          .read (operand + r.x + 1).toUInt16 high]
        (Word.ofBytes low high)
  | indexed {mode : IndexedMode} {reads : List Exchange} {base target : UInt16} {unused : UInt8} :
      mode.FindsBase r reads base → target = base + (Exec.index mode r).toUInt16 →
        Finds r (.indexed mode) (reads ++ [.read (Word.onPageOf base target) unused]) target

/-! ## Classes -/

def ModifyOp.changed (carry : Bool) (m : Nat) : ModifyOp → Nat
  | .shift .asl | .slo => 2 * m % 0x100
  | .shift .lsr | .sre => m / 2
  | .shift .rol | .rla => (2 * m + carry.toNat) % 0x100
  | .shift .ror | .rra => m / 2 + 0x80 * carry.toNat
  | .inc | .isc => (m + 1) % 0x100
  | .dec | .dcp => (m + 0xFF) % 0x100

/-- The exchanges that an instruction may make after the fetch of its opcode. The program counter stands behind
the opcode, so that the return address of `JSR` and of `BRK` is one further on. -/
def Instruction.Allows (r : Registers) (exchanges : List Exchange) : Instruction → Prop
  | .implied _ | .immediate _ | .read _ _ | .shiftAccumulator _ | .branch _ | .jmp | .jmpIndirect
  | .rts | .rti | .pla | .plp => Exchange.writes exchanges = []
  | .store op mode =>
    ∃ reads target, mode.Finds r reads target ∧ exchanges = reads ++ [.write target (op.value r)]
  | .storeUnstable op mode =>
    ∃ reads base unused, mode.FindsBase r reads base ∧
      let target := base + (Exec.index mode r).toUInt16
      let stored := UnstableOp.stored (op.value r) base
      exchanges = reads ++
        [.read (Word.onPageOf base target) unused,
          .write (UnstableOp.target stored base target) stored]
  | .modify op mode =>
    ∃ reads target old, mode.Finds r reads target ∧
      exchanges = reads ++
        [.read target old, .write target old,
          .write target (UInt8.ofNat (op.changed r.p.carry old.toNat))]
  | .pha => Exchange.writes exchanges = r.pushes [r.a]
  | .php => Exchange.writes exchanges = r.pushes [r.p.toStack true]
  | .jsr => Exchange.writes exchanges = r.pushes [Word.high (r.pc + 1), Word.low (r.pc + 1)]
  | .brk =>
    Exchange.writes exchanges =
      r.pushes [Word.high (r.pc + 1), Word.low (r.pc + 1), r.p.toStack true]

/-! ## Changed bytes -/

/-- A shift to the left doubles the byte and drops its top bit. -/
theorem Arithmetic.shiftLeft_toNat (p : Flags) (m : UInt8) :
    (shiftLeft p m).1.toNat = 2 * m.toNat % 0x100 :=
  Byte.forall_of_all (P := fun m => (m <<< 1).toNat = 2 * m.toNat % 0x100) (by decide +kernel) m

theorem Arithmetic.shiftRight_toNat (p : Flags) (m : UInt8) :
    (shiftRight p m).1.toNat = m.toNat / 2 :=
  Byte.forall_of_all (P := fun m => (m >>> 1).toNat = m.toNat / 2) (by decide +kernel) m

/-- A rotation to the left doubles the byte and adds the carry. -/
theorem Arithmetic.rotateLeft_toNat (p : Flags) (m : UInt8) :
    (rotateLeft p m).1.toNat = (2 * m.toNat + p.carry.toNat) % 0x100 := by
  have hAll := Byte.forall_of_all
    (P := fun m => ∀ carry : Bool,
      (m <<< 1 ||| carry.toUInt8).toNat = (2 * m.toNat + carry.toNat) % 0x100)
    (by decide +kernel)
  exact hAll m p.carry

/-- A rotation to the right halves the byte and puts the carry on top. -/
theorem Arithmetic.rotateRight_toNat (p : Flags) (m : UInt8) :
    (rotateRight p m).1.toNat = m.toNat / 2 + 0x80 * p.carry.toNat := by
  have hAll := Byte.forall_of_all
    (P := fun m => ∀ carry : Bool,
      (m >>> 1 ||| carry.toUInt8 <<< 7).toNat = m.toNat / 2 + 0x80 * carry.toNat)
    (by decide +kernel)
  exact hAll m p.carry

/-- The byte that is written back is the one that `changed` computes. -/
theorem ModifyOp.apply_toNat (op : ModifyOp) (m : UInt8) (r : Registers) :
    (op.apply m r).1.toNat = op.changed r.p.carry m.toNat := by
  cases op with
  | shift op =>
    cases op with
    | asl => exact Arithmetic.shiftLeft_toNat r.p m
    | lsr => exact Arithmetic.shiftRight_toNat r.p m
    | rol => exact Arithmetic.rotateLeft_toNat r.p m
    | ror => exact Arithmetic.rotateRight_toNat r.p m
  | slo => exact Arithmetic.shiftLeft_toNat r.p m
  | sre => exact Arithmetic.shiftRight_toNat r.p m
  | rla => exact Arithmetic.rotateLeft_toNat r.p m
  | rra => exact Arithmetic.rotateRight_toNat r.p m
  | inc | isc => exact UInt8.toNat_add m 1
  | dec | dcp => exact Byte.toNat_pred m

/-! ## Executions -/

namespace Exec

/-! ### Without a write -/

section Silent

variable {α β : Type}

def Silent (exec : Exec α) : Prop :=
  ∀ core, (exec core).Silent

theorem Silent.bind {exec : Exec α} {f : α → Exec β} (h : exec.Silent)
    (hNext : ∀ result, (f result).Silent) : (exec >>= f).Silent := by
  intro core
  exact (h core).bind fun final => hNext final.1 final.2

theorem Silent.ite {condition : Prop} [Decidable condition] {exec other : Exec α}
    (h : exec.Silent) (hOther : other.Silent) : (if condition then exec else other).Silent := by
  split
  · exact h
  · exact hOther

theorem base_silent (mode : IndexedMode) : (base mode).Silent := by
  intro core
  cases mode with
  | absoluteX | absoluteY => exact .read fun _ => .read fun _ => .done
  | indirectY => exact .read fun _ => .read fun _ => .read fun _ => .done

theorem indexed_silent (purpose : Purpose) (start : UInt16) (index : UInt8) :
    (indexed purpose start index).Silent :=
  .ite (fun _ => .read fun _ => .done) fun _ => .done

/-- Finding an address takes reads only. -/
theorem address_silent (purpose : Purpose) (mode : MemoryMode) : (address purpose mode).Silent := by
  cases mode with
  | zeroPage => exact fun _ => .read fun _ => .done
  | zeroPageX | zeroPageY | absolute => exact fun _ => .read fun _ => .read fun _ => .done
  | indirectX => exact fun _ => .read fun _ => .read fun _ => .read fun _ => .read fun _ => .done
  | indexed mode =>
    exact (base_silent mode).bind fun start => .bind (fun _ => .done) fun r =>
      indexed_silent purpose start (index mode r)

/-- A branch reads ahead and never writes. -/
theorem branch_silent (condition : Condition) : (branch condition).Silent := by
  have hFetch : fetch.Silent := fun _ => .read fun _ => .done
  have hRegisters : registers.Silent := fun _ => .done
  have hRead (address : UInt16) : (dummyRead address).Silent := fun _ => .read fun _ => .done
  have hJump (target : UInt16) : (setPC target).Silent := fun _ => .done
  refine hFetch.bind fun offset => hRegisters.bind fun r => .ite ?_ fun _ => .done
  -- If the branch is taken, there may be a second dummy read, from the wrong page.
  let target := r.pc + Byte.signExtend offset
  exact (hRead r.pc).bind fun _ =>
    .ite ((hRead (Word.onPageOf r.pc target)).bind fun _ => hJump target) (hJump target)

end Silent

/-! ### With the address of a store -/

variable {σ : Type} [Bus σ] (core : Core) (bus : σ)

theorem exchanges_bind {α β : Type} (exec : Exec α) (f : α → Exec β) :
    ((exec >>= f) core).exchanges bus = (exec core).exchanges bus ++
      (f ((exec core).run bus).1.1 ((exec core).run bus).1.2).exchanges ((exec core).run bus).2 :=
  Script.exchanges_bind _ _ _

/-! Finding a base or an address makes the reads of the mode, and of the registers it changes only the program
counter. -/

theorem base_finds (mode : IndexedMode) :
    let found := (base mode core).run bus
    mode.FindsBase core.toRegisters ((base mode core).exchanges bus) found.1.1 ∧
      found.1.2.toRegisters = { core.toRegisters with pc := found.1.2.pc } := by
  cases mode with
  | absoluteX => exact ⟨.absoluteX, rfl⟩
  | absoluteY => exact ⟨.absoluteY, rfl⟩
  | indirectY => exact ⟨.indirectY, rfl⟩

theorem address_finds (mode : MemoryMode) :
    let found := (address .store mode core).run bus
    mode.Finds core.toRegisters ((address .store mode core).exchanges bus) found.1.1 ∧
      found.1.2.toRegisters = { core.toRegisters with pc := found.1.2.pc } := by
  -- A store makes the dummy read on either page, so in no mode does the tree branch.
  cases mode with
  | zeroPage => exact ⟨.zeroPage, rfl⟩
  | zeroPageX => exact ⟨.zeroPageX, rfl⟩
  | zeroPageY => exact ⟨.zeroPageY, rfl⟩
  | absolute => exact ⟨.absolute, rfl⟩
  | indirectX => exact ⟨.indirectX, rfl⟩
  | indexed mode =>
    cases mode with
    | absoluteX => exact ⟨.indexed .absoluteX rfl, rfl⟩
    | absoluteY => exact ⟨.indexed .absoluteY rfl, rfl⟩
    | indirectY => exact ⟨.indexed .indirectY rfl, rfl⟩

/-- A store makes one write, at the address that was found. -/
theorem store_allowed (op : StoreOp) (mode : MemoryMode) :
    (Instruction.store op mode).Allows core.toRegisters
      ((execute (.store op mode) core).exchanges bus) := by
  have hFound := address_finds core bus mode
  refine ⟨_, _, hFound.1, ?_⟩
  -- The byte is taken from the registers that are left when the address has been found.
  rw [← StoreOp.value_pc, ← hFound.2, execute, exchanges_bind]
  rfl

/-- An unstable store makes one write, of the byte that was cut down. -/
theorem storeUnstable_allowed (op : UnstableOp) (mode : IndexedMode) :
    (Instruction.storeUnstable op mode).Allows core.toRegisters
      ((execute (.storeUnstable op mode) core).exchanges bus) := by
  have hFound := base_finds core bus mode
  let found := (base mode core).run bus
  let target := found.1.1 + (index mode core.toRegisters).toUInt16
  let unused := (Bus.read found.2 (Word.onPageOf found.1.1 target)).1
  refine ⟨_, _, unused, hFound.1, ?_⟩
  simp only [unused, target]
  rw [← UnstableOp.value_pc, ← index_pc, ← hFound.2, execute, storeUnstable, exchanges_bind]
  rfl

/-- A change makes two writes at its address: the old byte and then the new one. -/
theorem modify_allowed (op : ModifyOp) (mode : MemoryMode) :
    (Instruction.modify op mode).Allows core.toRegisters
      ((execute (.modify op mode) core).exchanges bus) := by
  have hFound := address_finds core bus mode
  let found := (address .store mode core).run bus
  let old := (Bus.read found.2 found.1.1).1
  have hFlags : found.1.2.p = core.p := (congrArg Registers.p hFound.2).trans rfl
  have hChanged : (op.apply old found.1.2.toRegisters).1 =
      UInt8.ofNat (op.changed core.p.carry old.toNat) := by
    rw [← hFlags, ← ModifyOp.apply_toNat op old found.1.2.toRegisters, UInt8.ofNat_toNat]
  refine ⟨_, _, old, hFound.1, ?_⟩
  rw [← hChanged, execute, exchanges_bind]
  rfl

/-! ### All instructions -/

/-- After the fetch of its opcode, an instruction makes the exchanges that its class allows. -/
theorem execute_allowed (instruction : Instruction) :
    instruction.Allows core.toRegisters ((execute instruction core).exchanges bus) := by
  cases instruction with
  | store op mode => exact store_allowed core bus op mode
  | modify op mode => exact modify_allowed core bus op mode
  | storeUnstable op mode => exact storeUnstable_allowed core bus op mode
  | branch condition => exact (branch_silent condition core).writes_exchanges bus
  | read op mode =>
    have hLoad (target : UInt16) :
        Silent (read target >>= fun operand => update (op.apply operand)) :=
      fun _ => .read fun _ => .done
    exact ((address_silent .load mode).bind hLoad core).writes_exchanges bus
  | pha | php | jsr | brk =>
    -- The pushes move the stack pointer, and so does the list of writes.
    simp only [Instruction.Allows, Registers.pushes_cons, Registers.pushes_nil]
    rfl
  | _ => rfl

/-- An interrupt entry pushes the program counter and the status. -/
theorem interrupt_writes (line : Interrupt) :
    Exchange.writes ((interrupt line core).exchanges bus) =
      core.toRegisters.pushes [Word.high core.pc, Word.low core.pc, core.p.toStack false] := by
  simp only [Registers.pushes_cons, Registers.pushes_nil]
  rfl

/-- The next instruction makes the exchanges of the one whose opcode is read at the program counter. -/
theorem executeNext_exchanges :
    let opcode := (Bus.read bus core.pc).1
    let fetched : Core := { core with pc := core.pc + 1, fetched := core.fetched.clear.push opcode }
    (executeNext core).exchanges bus = .read core.pc opcode ::
      (execute (Instruction.decode opcode) fetched).exchanges (Bus.read bus core.pc).2 := by
  intro opcode fetched
  let rest : Script (Instruction × Core) :=
    execute (Instruction.decode opcode) fetched >>= fun done =>
      .done (Instruction.decode opcode, done.2)
  calc
    (executeNext core).exchanges bus
        = .read core.pc opcode :: rest.exchanges (Bus.read bus core.pc).2 := rfl
    _ = _ := by rw [Script.exchanges_bind_done]

end Exec

/-! ## Steps -/

namespace Cpu

variable {σ : Type} [Bus σ]

def exchangesOn (cpu : Cpu) (bus : σ) : List Exchange :=
  (cpu.step (Bus.cycles bus)).exchanges bus

/-- An entry exchanges what its sequence exchanges. -/
theorem exchangesOn_of_entry {cpu : Cpu} {line : Interrupt} (h : cpu.activity = .entry line)
    (bus : σ) : cpu.exchangesOn bus = (Exec.interrupt line cpu.core).exchanges bus := by
  rw [exchangesOn, step_eq_perform, h]
  calc
    ((cpu.acknowledge line).enter line).exchanges bus
        = (Exec.interrupt line (cpu.acknowledge line).core).exchanges bus :=
          Script.exchanges_bind_done ..
    _ = (Exec.interrupt line cpu.core).exchanges bus := by cases line <;> rfl

/-- An instruction exchanges the fetch of its opcode and what it does after it. -/
theorem exchangesOn_of_instruction {cpu : Cpu} (h : cpu.activity = .instruction) (bus : σ) :
    cpu.exchangesOn bus = (Exec.executeNext cpu.core).exchanges bus := by
  rw [exchangesOn, step_eq_perform, h]
  exact Script.exchanges_bind_done ..

/-- **Each instruction writes exactly what its class allows.** On every bus that logs accesses, the log grows by
the accesses of the step, and these are the exchanges that the class of the instruction allows. Operations on
registers, reads, branches, jumps, pulls and returns write nothing. A store writes once, at the address that its
mode finds. A change writes twice there, first the byte that it has just read and then the changed one. A push
writes one byte, `JSR` two, and `BRK` and the interrupt entries three, downwards from the stack pointer: the
return address, high byte first, then the status. -/
theorem writes_what_the_class_allows {log : σ → List Access} (hLogs : Bus.Logs log) (cpu : Cpu)
    (bus : σ) :
    let r := cpu.registers
    let opcode := (Bus.read bus r.pc).1
    let exchanges := cpu.exchangesOn bus
    log (cpu.stepOn bus).2.2 = log bus ++ exchanges.map Exchange.access ∧
      match cpu.activity with
      | .entry _ =>
        Exchange.writes exchanges = r.pushes [Word.high r.pc, Word.low r.pc, r.p.toStack false]
      | .instruction =>
        ∃ rest, exchanges = .read r.pc opcode :: rest ∧
          (Instruction.decode opcode).Allows { r with pc := r.pc + 1 } rest := by
  intro r opcode exchanges
  refine ⟨?_, ?_⟩
  · -- The exchanges without their answers are the accesses that the bus has logged.
    rw [stepOn_bus, hLogs.foldl_after, accessesOn, ← Script.map_access_exchanges]
    rfl
  · cases hActivity : cpu.activity with
    | entry line =>
      have hEntry : exchanges = (Exec.interrupt line cpu.core).exchanges bus :=
        exchangesOn_of_entry hActivity bus
      rw [hEntry]
      exact Exec.interrupt_writes cpu.core bus line
    | instruction =>
      have hNext : exchanges = _ :=
        (exchangesOn_of_instruction hActivity bus).trans (Exec.executeNext_exchanges cpu.core bus)
      exact ⟨_, hNext, Exec.execute_allowed ..⟩

/-- `INC $10` writes the `$FF` that stands there, then the `$00` that comes after it. -/
theorem increments_with_two_writes :
    let cpu : Cpu := {}
    let bus : FlatBus := { ram := ((Ram.zero 16).setBytes 0 [0xE6, 0x10]).set 0x10 0xFF }
    Bus.Logs (fun bus : FlatBus => bus.log.toList) ∧ cpu.activity = .instruction ∧
      (cpu.stepOn bus).2.2.log.toList =
        [.read 0x00, .read 0x01, .read 0x10, .write 0x10 0xFF, .write 0x10 0x00] ∧
      ∃ rest, cpu.exchangesOn bus = .read 0 0xE6 :: rest ∧
        (Instruction.modify .inc .zeroPage).Allows { pc := 1 } rest := by
  intro cpu bus
  have hWrites := writes_what_the_class_allows FlatBus.logs cpu bus
  have hOpcode : (Bus.read bus cpu.registers.pc).1 = 0xE6 := by decide +kernel
  have hDecode : Instruction.decode 0xE6 = .modify .inc .zeroPage := by decide +kernel
  simp only [hOpcode, hDecode] at hWrites
  exact ⟨FlatBus.logs, rfl, hWrites.1.trans (by decide +kernel), hWrites.2⟩

end Cpu

end NesMachine
