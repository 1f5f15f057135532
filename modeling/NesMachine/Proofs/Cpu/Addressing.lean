import NesMachine.Proofs.Bus.Accesses
import NesMachine.Proofs.Cpu.Cycles
import NesMachine.Proofs.Safety.Dispatch
import NesMachine.Proofs.Word

/-!
# Operands and the accesses that find them

What each addressing mode comes to on a flat bus, in the arithmetic of a manual: which bytes make up the
address, where a sum wraps, and which reads are made on the way. Sums wrap at a page in page zero and at
the end of memory elsewhere, and the second byte of a jump's pointer stays on the page of the first.

* `Mode.operandOn`: the operand of a mode.
* `Mode.readsOn`: the addresses that are read to find it.
* `Exec.resolve_run`: resolving a mode yields the operand, takes its bytes into the latch and makes the reads.
* `Exec.addressing_is_exact`: the same, as it shows in the log and in the registers.
-/

namespace NesMachine

/-! ## The bytes of a flat bus -/

namespace FlatBus

def byteAt (bus : FlatBus) (address : Nat) : Nat :=
  (bus.ram.get address).toNat

def wordAt (bus : FlatBus) (low high : Nat) : Nat :=
  bus.byteAt low + 0x100 * bus.byteAt high

def afterReads (bus : FlatBus) (addresses : List Nat) : FlatBus :=
  addresses.foldl (fun bus address => (Bus.read bus (UInt16.ofNat address)).2) bus

variable (bus : FlatBus)

theorem afterReads_append (first second : List Nat) :
    bus.afterReads (first ++ second) = (bus.afterReads first).afterReads second :=
  List.foldl_append

/-- Reads change no byte. -/
theorem afterReads_ram (addresses : List Nat) : (bus.afterReads addresses).ram = bus.ram := by
  induction addresses generalizing bus with
  | nil => rfl
  | cons address rest ih => exact ih _

/-- Each read takes one cycle. -/
theorem afterReads_cycles (addresses : List Nat) :
    (bus.afterReads addresses).cycles = bus.cycles + addresses.length := by
  induction addresses generalizing bus with
  | nil => rfl
  | cons address rest ih =>
    calc
      ((Bus.read bus (UInt16.ofNat address)).2.afterReads rest).cycles
          = bus.cycles + 1 + rest.length := ih _
      _ = bus.cycles + (rest.length + 1) := by omega

/-- The reads are logged in their order. -/
theorem afterReads_log (addresses : List Nat) : (bus.afterReads addresses).log.toList =
    bus.log.toList ++ addresses.map fun address => Access.read (UInt16.ofNat address) := by
  induction addresses generalizing bus with
  | nil => exact (List.append_nil _).symm
  | cons address rest ih =>
    have hRead : (Bus.read bus (UInt16.ofNat address)).2.log.toList =
        bus.log.toList ++ [.read (UInt16.ofNat address)] := Array.toList_push
    have hRest := ih (Bus.read bus (UInt16.ofNat address)).2
    rw [hRead, List.append_assoc] at hRest
    exact hRest

end FlatBus

/-- The core once the next bytes at the program counter have been taken into the latch. -/
def Core.take (core : Core) (bus : FlatBus) : Nat → Core
  | 0 => core
  | n + 1 =>
    let before := core.take bus n
    { before with
      pc := before.pc + 1
      fetched := before.fetched.push (bus.ram.get before.pc.toNat) }

/-- Taking bytes moves the program counter past them and changes no other register. -/
theorem Core.take_registers (core : Core) (bus : FlatBus) (n : Nat) :
    (core.take bus n).toRegisters = { core.toRegisters with pc := core.pc + UInt16.ofNat n } := by
  induction n with
  | zero => simp [take]
  | succ n ih =>
    simp only [take, ih, UInt16.ofNat_add, UInt16.add_assoc]
    rfl

/-! The program counter has no part in an index or in a byte that is stored. -/

section Registers

variable (r : Registers) (pc : UInt16)

/-- No addressing mode has the program counter for its index. -/
theorem Exec.index_pc (mode : IndexedMode) : index mode { r with pc } = index mode r := by
  cases mode <;> rfl

theorem StoreOp.value_pc (op : StoreOp) : op.value { r with pc } = op.value r := by
  cases op <;> rfl

theorem UnstableOp.value_pc (op : UnstableOp) : op.value { r with pc } = op.value r := by
  cases op <;> rfl

end Registers

/-! ## Operands -/

def Exec.Operand.at (address : Nat) : Exec.Operand :=
  .address (UInt16.ofNat address)

/-- The read that adding an index costs: from the page of the base, unless the access is a plain read that
stays on it. -/
def OperandUse.carryRead (use : OperandUse) (base index : Nat) : List Nat :=
  let effective := (base + index) % 0x10000
  if base / 0x100 ≠ effective / 0x100 ∨ use ≠ .read then [base / 0x100 * 0x100 + effective % 0x100]
  else []

namespace Mode

variable (r : Registers) (bus : FlatBus)

/-- The operand of a mode, where the program counter is at the byte after the opcode. -/
def operandOn (mode : Mode) : Exec.Operand :=
  let pc := r.pc.toNat
  let byte := bus.byteAt pc
  let word := bus.wordAt pc ((pc + 1) % 0x10000)
  match mode with
  | .implied => .implied
  | .accumulator => .accumulator
  | .immediate | .relative => .value (UInt8.ofNat byte)
  | .zeroPage => .at byte
  | .zeroPageX => .at ((byte + r.x.toNat) % 0x100)
  | .zeroPageY => .at ((byte + r.y.toNat) % 0x100)
  | .absolute => .at word
  | .absoluteX => .at ((word + r.x.toNat) % 0x10000)
  | .absoluteY => .at ((word + r.y.toNat) % 0x10000)
  | .indirect => .at (bus.wordAt word (word / 0x100 * 0x100 + (word + 1) % 0x100))
  | .indirectX => .at (bus.wordAt ((byte + r.x.toNat) % 0x100) ((byte + r.x.toNat + 1) % 0x100))
  | .indirectY => .at ((bus.wordAt byte ((byte + 1) % 0x100) + r.y.toNat) % 0x10000)

def readsOn (mode : Mode) (use : OperandUse) : List Nat :=
  let pc := r.pc.toNat
  let next := (pc + 1) % 0x10000
  let byte := bus.byteAt pc
  let word := bus.wordAt pc next
  match mode with
  | .implied | .accumulator => [pc]
  | .immediate | .relative | .zeroPage => [pc]
  | .zeroPageX | .zeroPageY => [pc, byte]
  | .absolute => [pc, next]
  | .absoluteX => [pc, next] ++ use.carryRead word r.x.toNat
  | .absoluteY => [pc, next] ++ use.carryRead word r.y.toNat
  | .indirect => [pc, next, word, word / 0x100 * 0x100 + (word + 1) % 0x100]
  | .indirectX => [pc, byte, (byte + r.x.toNat) % 0x100, (byte + r.x.toNat + 1) % 0x100]
  | .indirectY =>
    [pc, byte, (byte + 1) % 0x100] ++ use.carryRead (bus.wordAt byte ((byte + 1) % 0x100)) r.y.toNat

end Mode

/-! ## Numbers and words -/

section Numbers

variable (bus : FlatBus) (w : UInt16)

theorem FlatBus.afterReads_cons (rest : List Nat) :
    bus.afterReads (w.toNat :: rest) = (Bus.read bus w).2.afterReads rest := by
  rw [afterReads, List.foldl_cons, UInt16.ofNat_toNat]
  rfl

theorem FlatBus.byteAt_toNat : bus.byteAt w.toNat = (bus.ram.get w.toNat).toUInt16.toNat :=
  (UInt8.toNat_toUInt16 _).symm

theorem FlatBus.wordAt_toNat (low high : UInt16) : bus.wordAt low.toNat high.toNat =
    (Word.ofBytes (bus.ram.get low.toNat) (bus.ram.get high.toNat)).toNat :=
  (Word.toNat_ofBytes _ _).symm

end Numbers

/-! ## Resolving a mode -/

namespace Exec

section Run

variable {σ α β : Type} [Bus σ] (core : Core) (bus : σ)

theorem run_bind (exec : Exec α) (f : α → Exec β) : ((exec >>= f) core).run bus =
    (f ((exec core).run bus).1.1 ((exec core).run bus).1.2).run ((exec core).run bus).2 :=
  Script.run_bind _ _ _

theorem run_map (f : α → β) (exec : Exec α) : ((f <$> exec) core).run bus =
    ((f ((exec core).run bus).1.1, ((exec core).run bus).1.2), ((exec core).run bus).2) :=
  Script.run_bind _ _ _

end Run

variable (use : OperandUse) (core : Core) (bus : FlatBus)

/-! ### The modes that add an index to a word -/

/-- Whatever is not a plain read is treated as a store when the address is formed. -/
theorem purposeOf_eq_store : purposeOf use = .store ↔ use ≠ .read := by
  cases use <;> decide

/-- The extra read is made for stores always and for loads when the index crosses a page. -/
theorem carryRead_toNat (start : UInt16) (index : UInt8) : use.carryRead start.toNat index.toNat =
    if purposeOf use = .store || !Word.samePage start (start + index.toUInt16) then
      [(Word.onPageOf start (start + index.toUInt16)).toNat]
    else [] := by
  have hPage : (!Word.samePage start (start + index.toUInt16)) = true ↔
      start.toNat / 0x100 ≠ (start.toNat + index.toNat) % 0x10000 / 0x100 := by
    rw [Bool.not_eq_true', Bool.eq_false_iff, ne_eq, Word.samePage_iff, Word.toNat_add_byte]
  simp only [OperandUse.carryRead, Word.toNat_onPageOf, Word.toNat_add_byte, Bool.or_eq_true,
    decide_eq_true_eq, hPage, purposeOf_eq_store, or_comm]

/-- Adding an index makes the extra read and gives the wrapped sum. -/
theorem indexed_run (start : UInt16) (index : UInt8) :
    (indexed (purposeOf use) start index core).run bus =
      ((start + index.toUInt16, core), bus.afterReads (use.carryRead start.toNat index.toNat)) := by
  rw [carryRead_toNat, indexed]
  split
  · rw [FlatBus.afterReads_cons]
    rfl
  · rfl

/-- Fetching a word reads its two bytes and takes both into the latch. -/
theorem fetchWord_run : (fetchWord core).run bus =
    ((Word.ofBytes (bus.ram.get core.pc.toNat) (bus.ram.get (core.pc + 1).toNat), core.take bus 2),
      bus.afterReads [core.pc.toNat, (core.pc + 1).toNat]) := by
  simp only [FlatBus.afterReads_cons]
  rfl

/-- The base of the indirect mode is the word at the pointer, which wraps within page zero. -/
theorem base_indirectY_run : (base .indirectY core).run bus =
    let pointer := bus.ram.get core.pc.toNat
    ((Word.ofBytes (bus.ram.get pointer.toUInt16.toNat) (bus.ram.get (pointer + 1).toUInt16.toNat),
      core.take bus 1),
      bus.afterReads [core.pc.toNat, pointer.toUInt16.toNat, (pointer + 1).toUInt16.toNat]) := by
  simp only [FlatBus.afterReads_cons]
  rfl

/-- The index is added once the word to which it is added has been read. -/
theorem address_indexed_run {mode : IndexedMode} {start : UInt16} {length : Nat} {reads : List Nat}
    (h : (base mode core).run bus = ((start, core.take bus length), bus.afterReads reads)) :
    ((Operand.address <$> address (purposeOf use) (.indexed mode)) core).run bus =
      ((.at ((start.toNat + (index mode core.toRegisters).toNat) % 0x10000), core.take bus length),
        bus.afterReads (reads ++ use.carryRead start.toNat (index mode core.toRegisters).toNat)) := by
  -- Taking bytes leaves the index registers alone.
  have hIndex : index mode (core.take bus length).toRegisters = index mode core.toRegisters := by
    rw [core.take_registers, index_pc]
  have hAddress : (address (purposeOf use) (.indexed mode) core).run bus =
      (indexed (purposeOf use) start (index mode core.toRegisters) (core.take bus length)).run
        (bus.afterReads reads) := by
    rw [address, run_bind, h, ← hIndex]
    rfl
  rw [run_map, hAddress, indexed_run, FlatBus.afterReads_append, Operand.at, ← Word.toNat_add_byte,
    UInt16.ofNat_toNat]

/-! ### All modes -/

/-- Resolving a mode yields the operand, takes its bytes, and makes the reads on the way. -/
theorem resolve_run (mode : Mode) : (resolve (purposeOf use) mode core).run bus =
    ((mode.operandOn core.toRegisters bus, core.take bus mode.operandLength),
      bus.afterReads (mode.readsOn core.toRegisters bus use)) := by
  -- In each case the numbers are brought to words; then both sides come to the same reads.
  cases mode with
  | implied | accumulator =>
    simp only [Mode.readsOn, FlatBus.afterReads_cons]
    rfl
  | immediate | relative =>
    simp only [Mode.operandOn, Mode.readsOn, FlatBus.afterReads_cons, FlatBus.byteAt, UInt8.ofNat_toNat]
    rfl
  | zeroPage | zeroPageX | zeroPageY | indirectX =>
    simp only [Mode.operandOn, Mode.readsOn, Operand.at, FlatBus.byteAt_toNat, Byte.toNat_zeroPage_add,
      Byte.toNat_zeroPage_add_next, FlatBus.wordAt_toNat, FlatBus.afterReads_cons, UInt16.ofNat_toNat]
    rfl
  | absolute | indirect =>
    simp only [Mode.operandOn, Mode.readsOn, Operand.at, Word.toNat_next, FlatBus.wordAt_toNat,
      Word.toNat_nextOnPage, FlatBus.afterReads_cons, UInt16.ofNat_toNat]
    rfl
  | absoluteX | absoluteY =>
    simp only [Mode.operandOn, Mode.readsOn, Word.toNat_next, FlatBus.wordAt_toNat]
    exact address_indexed_run use core bus (fetchWord_run core bus)
  | indirectY =>
    simp only [Mode.operandOn, Mode.readsOn, FlatBus.byteAt_toNat, Byte.toNat_zeroPage_next,
      FlatBus.wordAt_toNat]
    exact address_indexed_run use core bus (base_indirectY_run core bus)

/-- **Addressing is exact in every mode.** On any flat bus and for each use of the operand, a mode yields
the operand that the manual gives. The log grows by exactly the reads of the mode, in their order. The
memory is as it was, and of the registers only the program counter moves, past the bytes of the operand.
Every opcode finds its operand this way, by `dispatch_decode`. -/
theorem addressing_is_exact (mode : Mode) (use : OperandUse) (core : Core) (bus : FlatBus) :
    let resolved := (resolve (purposeOf use) mode core).run bus
    let reads := mode.readsOn core.toRegisters bus use
    resolved.1.1 = mode.operandOn core.toRegisters bus ∧
    resolved.2.log.toList =
      bus.log.toList ++ reads.map (fun address => Access.read (UInt16.ofNat address)) ∧
    resolved.2.cycles = bus.cycles + reads.length ∧
    resolved.2.ram = bus.ram ∧
    resolved.1.2.toRegisters =
      { core.toRegisters with pc := core.pc + UInt16.ofNat mode.operandLength } := by
  intro resolved reads
  have hRun : resolved = ((mode.operandOn core.toRegisters bus, core.take bus mode.operandLength),
      bus.afterReads reads) := resolve_run use core bus mode
  rw [hRun]
  exact ⟨rfl, bus.afterReads_log reads, bus.afterReads_cycles reads, bus.afterReads_ram reads,
    core.take_registers bus mode.operandLength⟩

-- The second byte of the pointer at `$10FF` is the one at `$1000`.
example : Mode.indirect.readsOn {} { ram := ((Ram.zero 16).set 0 0xFF).set 1 0x10 } .read =
    [0x0000, 0x0001, 0x10FF, 0x1000] := by
  decide +kernel

end Exec

end NesMachine
