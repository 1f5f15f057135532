import NesMachine.Proofs.Cpu.FlatSteps

/-!
# Combined operations

Many of the opcodes that the manual leaves out do the work of two that it has, since the circuits of both are
switched on at once. A machine that runs such an opcode is compared with one that runs the two parts, with
programs of their own, on the same registers and the same byte.

* `ModifyOp.parts?`: the parts of an operation that changes a byte and then uses it.
* `ModifyOp.apply_eq_parts`: what it does to byte, registers and flags is what its parts do, in their order.
* `FlatMachine.combined_operations_are_compositions`: the machines come to the same end.
-/

namespace NesMachine

/-- The change of a byte and the operation on the changed byte that make up a combined operation. -/
def ModifyOp.parts? : ModifyOp → Option (ModifyOp × ReadOp)
  | .slo => some (.shift .asl, .ora)
  | .rla => some (.shift .rol, .and)
  | .sre => some (.shift .lsr, .eor)
  | .rra => some (.shift .ror, .adc)
  | .dcp => some (.dec, .cmp)
  | .isc => some (.inc, .sbc)
  | .shift _ | .inc | .dec => none

/-! ## Registers and flags -/

section Operations

variable (m : UInt8) (r : Registers)

/-- The second part finds the flags that the first one leaves, with its carry. -/
theorem ModifyOp.apply_eq_parts {op first : ModifyOp} {second : ReadOp}
    (h : op.parts? = some (first, second)) :
    op.apply m r = ((first.apply m r).1, second.apply (first.apply m r).1 (first.apply m r).2) := by
  cases op with
  | shift op => cases h
  | inc => cases h
  | dec => cases h
  | _ =>
    cases h
    rfl

/-- The second part of a combined operation always reads its operand. -/
theorem ModifyOp.ne_nop_of_parts {op first : ModifyOp} {second : ReadOp}
    (h : op.parts? = some (first, second)) : second ≠ .nop := by
  rintro rfl
  cases op <;> cases h

/-- The operation `LAX` loads the byte into both registers, and its flags are those of either load. -/
theorem ReadOp.apply_lax : ReadOp.lax.apply m r = ReadOp.ldx.apply m (ReadOp.lda.apply m r) := rfl

theorem ReadOp.apply_alr :
    let masked := ReadOp.and.apply m r
    ReadOp.alr.apply m r = masked.setA (ShiftOp.lsr.apply masked.p masked.a) := rfl

/-- The operation `ANC` is the conjunction, with the carry taken from the sign of the result. -/
theorem ReadOp.apply_anc :
    let masked := ReadOp.and.apply m r
    ReadOp.anc.apply m r = { masked with p := { masked.p with carry := masked.p.negative } } := rfl

/-- The difference that goes to X, with the flags of a comparison. -/
theorem ReadOp.apply_sbx :
    let t := r.a &&& r.x
    ReadOp.sbx.apply m r =
      { r with
        x := t - m
        p := { r.p with
          carry := m.toNat ≤ t.toNat
          zero := t = m
          negative := 0x80 ≤ (t - m).toNat } } := by
  intro t
  have hZero : (t - m == 0) = decide (t = m) := by
    rw [Bool.eq_iff_iff, beq_iff_eq, decide_eq_true_iff, UInt8.sub_eq_iff_eq_add, UInt8.zero_add]
  have hNegative : Byte.isNegative (t - m) = decide (0x80 ≤ (t - m).toNat) := by
    rw [Bool.eq_iff_iff, decide_eq_true_iff, Byte.isNegative_iff]
  rw [← hZero, ← hNegative]
  rfl

end Operations

/-! ## Machines -/

namespace FlatMachine

/-- Machines with the same registers, apart from where their programs stand, and with the same byte at an
operand. -/
structure StartsAs (machine parts : FlatMachine) (operand : Exec.Operand) : Prop where
  data : machine.registers.data = parts.registers.data
  byte : operand.byteIn machine.ram = operand.byteIn parts.ram

variable {machine parts : FlatMachine} {operand : Exec.Operand}

/-- What is left of a byte that both parts use. -/
theorem modify_eq_parts {op first : ModifyOp} {second : ReadOp} {target : UInt16}
    (hStart : machine.StartsAs parts (.address target)) (hParts : op.parts? = some (first, second))
    (hOp : machine.Applies op.mnemonic (.address target))
    (hFirst : parts.Applies first.mnemonic (.address target))
    (hSecond : parts.step.Applies second.mnemonic (.address target)) :
    machine.step.registers.data = parts.step.step.registers.data ∧
      ∃ byte, machine.step.ram = machine.ram.set target.toNat byte ∧
        parts.step.step.ram = parts.ram.set target.toNat byte := by
  have hByte : machine.ram.get target.toNat = parts.ram.get target.toNat := hStart.byte
  have hMachine := hOp.modify op
  rw [hByte, hStart.data, ModifyOp.apply_eq_parts _ _ hParts] at hMachine
  have hMiddle := hFirst.modify first
  have hEnd := hSecond.read second (ModifyOp.ne_nop_of_parts hParts)
  -- The second part reads what the first one has written.
  have hWritten : (Exec.Operand.address target).byteIn parts.step.ram =
      (first.apply (parts.ram.get target.toNat) parts.registers.data).1 := by
    rw [hMiddle.2]
    exact (Ram.get_set _ _ _ _).trans (if_pos rfl)
  rw [hWritten, hMiddle.1] at hEnd
  exact ⟨hMachine.1.trans hEnd.1.symm, _, hMachine.2, hEnd.2.trans hMiddle.2⟩

/-- An `LAX` does what `LDA` and `LDX` of the same operand do. -/
theorem lax_eq_parts (hStart : machine.StartsAs parts operand) (hOp : machine.Applies .lax operand)
    (hFirst : parts.Applies .lda operand) (hSecond : parts.step.Applies .ldx operand) :
    machine.step.registers.data = parts.step.step.registers.data ∧
      machine.step.ram = machine.ram ∧ parts.step.step.ram = parts.ram := by
  have hMachine := Applies.read .lax (by decide) hOp
  have hMiddle := Applies.read .lda (by decide) hFirst
  have hEnd := Applies.read .ldx (by decide) hSecond
  rw [hMiddle.1, hMiddle.2] at hEnd
  rw [hStart.byte, hStart.data, ReadOp.apply_lax] at hMachine
  exact ⟨hMachine.1.trans hEnd.1.symm, hMachine.2, hEnd.2⟩

/-- An `ALR` does what `AND` and a shift of the accumulator do. -/
theorem alr_eq_parts (hStart : machine.StartsAs parts operand) (hOp : machine.Applies .alr operand)
    (hFirst : parts.Applies .and operand) (hSecond : parts.step.Applies .lsr .accumulator) :
    machine.step.registers.data = parts.step.step.registers.data ∧
      machine.step.ram = machine.ram ∧ parts.step.step.ram = parts.ram := by
  have hMachine := Applies.read .alr (by decide) hOp
  have hMiddle := Applies.read .and (by decide) hFirst
  have hEnd := Applies.shift .lsr hSecond
  simp only [hMiddle.1, hMiddle.2] at hEnd
  rw [hStart.byte, hStart.data, ReadOp.apply_alr] at hMachine
  exact ⟨hMachine.1.trans hEnd.1.symm, hMachine.2, hEnd.2⟩

/-- An `ANC` does what `AND` does, with the carry that a shift to the left would leave. -/
theorem anc_eq_parts (hStart : machine.StartsAs parts operand) (hOp : machine.Applies .anc operand)
    (hFirst : parts.Applies .and operand) :
    let masked := parts.step.registers.data
    machine.step.registers.data = { masked with p := { masked.p with carry := masked.p.negative } } ∧
      machine.step.ram = machine.ram ∧ parts.step.ram = parts.ram := by
  intro masked
  have hMachine := Applies.read .anc (by decide) hOp
  have hEnd : masked = _ ∧ _ := Applies.read .and (by decide) hFirst
  rw [hStart.byte, hStart.data, ReadOp.apply_anc] at hMachine
  rw [hEnd.1]
  exact ⟨hMachine.1, hMachine.2, hEnd.2⟩

/-- **Combined operations are compositions of their parts.** Take a machine on a flat bus that is about to run
a combined opcode, and a second one with the same registers and the same byte at the operand that is about to
run the parts on that operand. After the combined opcode the first one has the registers and flags that the
second one has after both parts, and the memories have changed in the same way: in the one byte at the address,
to the same value, for the operations that write it back, and not at all for the others. `SBX` has no parts: it
leaves the accumulator, and X and the flags are as after a comparison, without the carry. -/
theorem combined_operations_are_compositions (machine : FlatMachine) (operand : Exec.Operand) :
    (∀ parts : FlatMachine, machine.StartsAs parts operand →
      (∀ op first second target, ModifyOp.parts? op = some (first, second) → operand = .address target →
        machine.Applies op.mnemonic operand → parts.Applies first.mnemonic operand →
        parts.step.Applies second.mnemonic operand →
        machine.step.registers.data = parts.step.step.registers.data ∧
          ∃ byte, machine.step.ram = machine.ram.set target.toNat byte ∧
            parts.step.step.ram = parts.ram.set target.toNat byte) ∧
      (machine.Applies .lax operand → parts.Applies .lda operand → parts.step.Applies .ldx operand →
        machine.step.registers.data = parts.step.step.registers.data ∧
          machine.step.ram = machine.ram ∧ parts.step.step.ram = parts.ram) ∧
      (machine.Applies .alr operand → parts.Applies .and operand →
        parts.step.Applies .lsr .accumulator →
        machine.step.registers.data = parts.step.step.registers.data ∧
          machine.step.ram = machine.ram ∧ parts.step.step.ram = parts.ram) ∧
      (machine.Applies .anc operand → parts.Applies .and operand →
        let masked := parts.step.registers.data
        machine.step.registers.data =
            { masked with p := { masked.p with carry := masked.p.negative } } ∧
          machine.step.ram = machine.ram ∧ parts.step.ram = parts.ram)) ∧
    (machine.Applies .sbx operand →
      let r := machine.registers.data
      let m := operand.byteIn machine.ram
      let t := r.a &&& r.x
      machine.step.registers.data =
          { r with
            x := t - m
            p := { r.p with
              carry := m.toNat ≤ t.toNat
              zero := t = m
              negative := 0x80 ≤ (t - m).toNat } } ∧
        machine.step.ram = machine.ram) := by
  refine ⟨fun parts hStart => ⟨?_, lax_eq_parts hStart, alr_eq_parts hStart, anc_eq_parts hStart⟩, ?_⟩
  · rintro op first second target hParts rfl hOp hFirst hSecond
    exact modify_eq_parts hStart hParts hOp hFirst hSecond
  · -- `SBX` has no parts to be compared with, so its result is stated outright.
    intro h r m t
    have hStep := Applies.read .sbx (by decide) h
    rw [ReadOp.apply_sbx] at hStep
    exact hStep

def rotatingAndAdding (program : List UInt8) : FlatMachine :=
  { cpu := { core := { a := 0x7F, p := { carry := true } } }
    bus := { ram := ((Ram.zero 16).setBytes 0 program).set 0x10 0x81 } }

/-- `RRA $10` against `ROR $10` and `ADC $10`: the bit that is rotated out is the carry of the addition. -/
theorem rotates_and_adds_as_its_parts :
    let machine := rotatingAndAdding [0x67, 0x10]
    let parts := rotatingAndAdding [0x66, 0x10, 0x65, 0x10]
    machine.StartsAs parts (.address 0x10) ∧ machine.Applies .rra (.address 0x10) ∧
      parts.Applies .ror (.address 0x10) ∧ parts.step.Applies .adc (.address 0x10) ∧
      machine.step.registers.data = parts.step.step.registers.data ∧ machine.step.registers.a = 0x40 := by
  intro machine parts
  have hStart : machine.StartsAs parts (.address 0x10) := ⟨by decide, by decide +kernel⟩
  have hOp : machine.Applies .rra (.address 0x10) := ⟨by decide, by decide +kernel, by decide +kernel⟩
  have hFirst : parts.Applies .ror (.address 0x10) := ⟨by decide, by decide +kernel, by decide +kernel⟩
  have hSecond : parts.step.Applies .adc (.address 0x10) :=
    ⟨by decide +kernel, by decide +kernel, by decide +kernel⟩
  have hEnd := ((combined_operations_are_compositions machine (.address 0x10)).1 parts hStart).1
    .rra (.shift .ror) .adc 0x10 rfl rfl hOp hFirst hSecond
  exact ⟨hStart, hOp, hFirst, hSecond, hEnd.1, by decide +kernel⟩

end FlatMachine

end NesMachine
