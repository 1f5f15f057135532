import NesMachine.Cpu.Execute
import NesMachine.Proofs.Word

/-!
# The cycles of an instruction

The times of the 6502, by addressing mode and kind of access. Every instruction has a time of its own; a
read through an index and a branch may take longer, for reasons that only the bus knows. So the time is a
script: it reads the bytes that decide, as the instruction does, and returns a number.

* `Instruction.cycles`: the time that an instruction always takes.
* `Instruction.extraCycles`: what bytes add to it.
* `Instruction.timing`: both together.
-/

namespace NesMachine

/-! ## Bytes and words on the bus -/

namespace Script

def byteAt (address : UInt16) : Script UInt8 :=
  .read address .done

def wordAt (address : UInt16) : Script UInt16 := do
  let low ← byteAt address
  let high ← byteAt (address + 1)
  return Word.ofBytes low high

/-- The word that a pointer in page zero holds, where the pointer stands at an address. -/
def indirectWordAt (address : UInt16) : Script UInt16 := do
  let pointer ← byteAt address
  let low ← byteAt pointer.toUInt16
  let high ← byteAt (pointer + 1).toUInt16
  return Word.ofBytes low high

end Script

/-! ## Pages -/

namespace Word

def pageCross (a b : UInt16) : Nat :=
  if a.toNat / 256 = b.toNat / 256 then 0 else 1

theorem samePage_iff (a b : UInt16) : samePage a b = true ↔ a.toNat / 256 = b.toNat / 256 := by
  rw [samePage, beq_iff_eq, ← UInt8.toNat_inj, toNat_high, toNat_high]

theorem pageCross_eq (a b : UInt16) : pageCross a b = if samePage a b then 0 else 1 := by
  simp only [pageCross, samePage_iff]

theorem pageCross_le_one (a b : UInt16) : pageCross a b ≤ 1 := by
  rw [pageCross]
  split
  · exact Nat.zero_le 1
  · exact Nat.le_refl 1

end Word

/-! ## The times -/

namespace MemoryMode

/-- The cycles of a read, but for the one that crossing a page may add. -/
def readCycles : MemoryMode → Nat
  | .zeroPage => 3
  | .zeroPageX | .zeroPageY => 4
  | .absolute => 4
  | .absoluteX | .absoluteY => 4
  | .indirectX => 6
  | .indirectY => 5

def storeCycles : MemoryMode → Nat
  | .zeroPage => 3
  | .zeroPageX | .zeroPageY => 4
  | .absolute => 4
  | .absoluteX | .absoluteY => 5
  | .indirectX => 6
  | .indirectY => 6

def modifyCycles : MemoryMode → Nat
  | .zeroPage => 5
  | .zeroPageX | .zeroPageY => 6
  | .absolute => 6
  | .absoluteX | .absoluteY => 7
  | .indirectX => 8
  | .indirectY => 8

theorem readCycles_bounds (mode : MemoryMode) : 3 ≤ mode.readCycles ∧ mode.readCycles ≤ 6 := by
  rcases mode with _ | _ | _ | _ | _ | ⟨_ | _ | _⟩ <;> decide

theorem storeCycles_bounds (mode : MemoryMode) : 3 ≤ mode.storeCycles ∧ mode.storeCycles ≤ 6 := by
  rcases mode with _ | _ | _ | _ | _ | ⟨_ | _ | _⟩ <;> decide

/-- Reading the old byte and writing it back take two cycles more than a store. -/
theorem modifyCycles_eq (mode : MemoryMode) : mode.modifyCycles = mode.storeCycles + 2 := by
  rcases mode with _ | _ | _ | _ | _ | ⟨_ | _ | _⟩ <;> rfl

end MemoryMode

namespace Instruction

open Script Word

/-- The cycles of an instruction, but for those that bytes add. -/
def cycles : Instruction → Nat
  | .implied _ | .shiftAccumulator _ | .immediate _ => 2
  | .read _ mode => mode.readCycles
  | .store _ mode => mode.storeCycles
  | .storeUnstable _ mode => (MemoryMode.indexed mode).storeCycles
  | .modify _ mode => mode.modifyCycles
  | .branch _ => 2
  | .jmp => 3
  | .jmpIndirect => 5
  | .jsr | .rts | .rti => 6
  | .brk => 7
  | .pha | .php => 3
  | .pla | .plp => 4

/-- The cycles that bytes add, where `r` holds the registers before the opcode: one for a page that the
index of a read crosses, one for a branch that is taken, and one more if its target is on another page than
the next instruction. -/
def extraCycles (r : Registers) : Instruction → Script Nat
  | .read _ .absoluteX => do
    let base ← wordAt (r.pc + 1)
    return pageCross base (base + r.x.toUInt16)
  | .read _ .absoluteY => do
    let base ← wordAt (r.pc + 1)
    return pageCross base (base + r.y.toUInt16)
  | .read _ .indirectY => do
    let base ← indirectWordAt (r.pc + 1)
    return pageCross base (base + r.y.toUInt16)
  | .branch condition =>
    if condition.holds r.p then do
      let offset ← byteAt (r.pc + 1)
      let next := r.pc + 2
      return 1 + pageCross next (next + offset.toInt8.toInt16.toUInt16)
    else
      return 0
  | _ => return 0

/-- The cycles of an instruction whose opcode has been read, where `r` holds the registers before it. -/
def timing (r : Registers) (instruction : Instruction) : Script Nat := do
  return instruction.cycles + (← instruction.extraCycles r)

/-- Whether bytes have a say in the time. -/
def varies : Instruction → Bool
  | .read _ (.indexed _) | .branch _ => true
  | _ => false

variable {instruction : Instruction}

/-- Bytes have a say in the time of indexed reads and of branches only. -/
theorem varies_iff : instruction.varies = true ↔
    (∃ op mode, instruction = .read op (.indexed mode)) ∨ ∃ condition, instruction = .branch condition := by
  cases instruction with
  | read op mode => cases mode <;> simp [varies]
  | _ => simp [varies]

/-- No instruction is shorter than the fetch of its opcode and one more access, and none is longer than a
change through a pointer. -/
theorem cycles_bounds (instruction : Instruction) :
    2 ≤ instruction.cycles ∧ instruction.cycles ≤ 8 := by
  cases instruction with
  | read op mode =>
    have hRead := mode.readCycles_bounds
    simp only [cycles]
    omega
  | store op mode =>
    have hStore := mode.storeCycles_bounds
    simp only [cycles]
    omega
  | storeUnstable op mode =>
    have hStore := (MemoryMode.indexed mode).storeCycles_bounds
    simp only [cycles]
    omega
  | modify op mode =>
    have hStore := mode.storeCycles_bounds
    simp only [cycles, mode.modifyCycles_eq]
    omega
  -- The time of all others does not depend on a mode.
  | _ => exact of_decide_eq_true rfl

/-- All other instructions take no extra cycle. -/
theorem extraCycles_of_not_varies (h : instruction.varies = false) (r : Registers) :
    instruction.extraCycles r = .done 0 := by
  cases instruction with
  | read op mode =>
    cases mode with
    | indexed mode => cases h
    | _ => rfl
  | branch condition => cases h
  | _ => rfl

section Bus

variable {σ : Type} [Bus σ]

theorem timing_run (instruction : Instruction) (r : Registers) (bus : σ) :
    ((instruction.timing r).run bus).1 =
      instruction.cycles + ((instruction.extraCycles r).run bus).1 := by
  rw [timing, Script.run_bind]
  rfl

/-- No instruction takes less than two cycles. -/
theorem two_le_timing (instruction : Instruction) (r : Registers) (bus : σ) :
    2 ≤ ((instruction.timing r).run bus).1 := by
  rw [timing_run]
  exact Nat.le_add_right_of_le instruction.cycles_bounds.1

end Bus

end Instruction

end NesMachine
