import NesMachine.Proofs.Cpu.FlatSteps

/-!
# Binary arithmetic

Additions and subtractions against the arithmetic of the numbers that the bytes stand for, without a sign
and with one. A subtraction adds the complement, so its laws are those of an addition once the complement is
turned back into a difference.

* `Registers.HoldsSum`: what registers hold after an addition or a subtraction.
* `Arithmetic.add_holds`, `Arithmetic.subtract_holds`: the two operations.
* `FlatMachine.adds_and_subtracts_in_binary`: every instruction that adds or subtracts.
-/

namespace NesMachine

/-- The registers `next` hold the outcome of an addition or a subtraction on `r`: its value without a sign is
`unsigned`, its value with a sign is `signed`, and the carry is set if and only if `carry`. -/
structure Registers.HoldsSum (r next : Registers) (unsigned signed : Int) (carry : Prop) : Prop where
  a : (next.a.toNat : Int) = unsigned % 0x100
  carry : next.p.carry = true ↔ carry
  overflow : next.p.overflow = true ↔ signed < -128 ∨ 127 < signed
  zero : next.p.zero = true ↔ next.a = 0
  negative : next.p.negative = true ↔ 0x80 ≤ next.a.toNat
  x : next.x = r.x
  y : next.y = r.y
  s : next.s = r.s
  interruptDisable : next.p.interruptDisable = r.p.interruptDisable
  decimal : next.p.decimal = r.p.decimal
  breakFlag : next.p.breakFlag = r.p.breakFlag
  unused : next.p.unused = r.p.unused

/-- Sums that agree where the registers can tell are held alike. -/
theorem Registers.HoldsSum.congr {r next : Registers} {unsigned signed unsigned' signed' : Int}
    {carry carry' : Prop} (h : r.HoldsSum next unsigned signed carry)
    (hUnsigned : unsigned % 0x100 = unsigned' % 0x100) (hSigned : signed = signed')
    (hCarry : carry ↔ carry') : r.HoldsSum next unsigned' signed' carry' :=
  { h with
    a := h.a.trans hUnsigned
    carry := h.carry.trans hCarry
    overflow := hSigned ▸ h.overflow }

/-- The program counter has no part in it. -/
theorem Registers.HoldsSum.of_data {r next : Registers} {unsigned signed : Int} {carry : Prop}
    (h : r.data.HoldsSum next.data unsigned signed carry) : r.HoldsSum next unsigned signed carry :=
  ⟨h.a, h.carry, h.overflow, h.zero, h.negative, h.x, h.y, h.s, h.interruptDisable, h.decimal,
    h.breakFlag, h.unused⟩

namespace Arithmetic

variable (p : Flags) (a m : UInt8)

/-- The sum of the unsigned values is held up to a multiple of `$100`. -/
theorem add_toNat : (add p a m).1.toNat = (a.toNat + m.toNat + p.carry.toNat) % 0x100 :=
  UInt8.toNat_ofNat'

/-- The operands have a sign that the result has not if and only if the sum is out of range. -/
theorem add_overflow :
    let sum := a.toInt8.toInt + m.toInt8.toInt + p.carry.toNat
    (add p a m).2.overflow = true ↔ sum < -128 ∨ 127 < sum := by
  intro sum
  have hOverflow : (add p a m).2.overflow = true ↔
      (0x80 ≤ a.toNat ↔ 0x80 ≤ m.toNat) ∧ ¬(0x80 ≤ a.toNat ↔ 0x80 ≤ (add p a m).1.toNat) := by
    simp only [← Byte.isNegative_iff, ← Bool.eq_iff_iff]
    simp [add]
  have hA := a.toNat_lt
  have hM := m.toNat_lt
  have hCarry : p.carry.toNat ≤ 1 := Bool.toNat_le _
  have hSum : sum = a.toInt8.toInt + m.toInt8.toInt + p.carry.toNat := rfl
  rw [Byte.toInt_eq, Byte.toInt_eq] at hSum
  rw [hOverflow, add_toNat]
  -- One case for each pair of signs.
  split at hSum <;> split at hSum <;> omega

variable (r : Registers)

/-- Addition holds the sum of both operands and the carry. -/
theorem add_holds : r.HoldsSum (r.setA (add r.p r.a m))
    (r.a.toNat + m.toNat + r.p.carry.toNat)
    (r.a.toInt8.toInt + m.toInt8.toInt + r.p.carry.toNat)
    (255 < r.a.toNat + m.toNat + r.p.carry.toNat) where
  a := by
    have hResult : (r.setA (add r.p r.a m)).a.toNat = _ := add_toNat r.p r.a m
    omega
  carry := decide_eq_true_iff
  overflow := add_overflow r.p r.a m
  zero := beq_iff_eq
  negative := Byte.isNegative_iff _
  x := rfl
  y := rfl
  s := rfl
  interruptDisable := rfl
  decimal := rfl
  breakFlag := rfl
  unused := rfl

/-- Adding the complement takes the byte away, and one more unless there is a carry. -/
theorem subtract_holds : r.HoldsSum (r.setA (subtract r.p r.a m))
    (r.a.toNat - m.toNat - (1 - r.p.carry.toNat))
    (r.a.toInt8.toInt - m.toInt8.toInt - (1 - r.p.carry.toNat))
    (0 ≤ (r.a.toNat : Int) - m.toNat - (1 - r.p.carry.toNat)) := by
  -- The complement is `255 - m` without a sign and `-1 - m` with one.
  have hUnsigned := Byte.toNat_complement m
  have hSigned := Byte.toInt_complement m
  refine (add_holds (~~~m) r).congr ?_ ?_ ?_ <;> omega

end Arithmetic

/-! ## Every instruction that adds or subtracts -/

/-- **Additions and subtractions are binary, with exact flags.** On any flat bus, in every state and for every
opcode that adds or subtracts, whatever its addressing mode finds as the operand: the accumulator gets the sum
or the difference modulo 256, the carry tells whether the sum is too large for a byte or the difference not
negative, the overflow flag tells whether the value with a sign is out of range, and the zero and the negative
flag follow the accumulator. The decimal flag has no say. Other registers and flags, and the memory, are as
they were. -/
theorem FlatMachine.adds_and_subtracts_in_binary (machine : FlatMachine) (operand : Exec.Operand) :
    let r := machine.registers
    let a := r.a
    let m := operand.byteIn machine.ram
    let c := r.p.carry.toNat
    let next := machine.step
    (machine.Applies .adc operand →
      r.HoldsSum next.registers (a.toNat + m.toNat + c) (a.toInt8.toInt + m.toInt8.toInt + c)
          (255 < a.toNat + m.toNat + c) ∧
        next.ram = machine.ram) ∧
    (machine.Applies .sbc operand →
      r.HoldsSum next.registers (a.toNat - m.toNat - (1 - c))
          (a.toInt8.toInt - m.toInt8.toInt - (1 - c)) (0 ≤ (a.toNat : Int) - m.toNat - (1 - c)) ∧
        next.ram = machine.ram) := by
  intro r a m c next
  refine ⟨fun h => ?_, fun h => ?_⟩
  · -- On the bus this is one operation on the accumulator; the arithmetic is a fact about bytes.
    have hStep := Applies.read .adc (by decide) h
    refine ⟨Registers.HoldsSum.of_data ?_, hStep.2⟩
    rw [hStep.1]
    exact Arithmetic.add_holds m r.data
  · have hStep := Applies.read .sbc (by decide) h
    refine ⟨Registers.HoldsSum.of_data ?_, hStep.2⟩
    rw [hStep.1]
    exact Arithmetic.subtract_holds m r.data

def FlatMachine.subtractingInDecimalMode : FlatMachine :=
  { cpu := { core := { a := 0x50, p := { carry := true, decimal := true } } }
    bus := { ram := ((Ram.zero 16).set 0 0xEB).set 1 0xB0 } }

/-- The difference of 80 and -80 is no signed byte, and the difference of 80 and 176 is a borrow. -/
theorem FlatMachine.subtracts_over_the_range :
    let machine := subtractingInDecimalMode
    let next := machine.step.registers
    machine.Applies .sbc (.value 0xB0) ∧ next.a = 0xA0 ∧ next.p.overflow = true ∧
      next.p.carry = false ∧ next.p.decimal = true := by
  intro machine next
  have hApplies : machine.Applies .sbc (.value 0xB0) :=
    ⟨by decide, by decide +kernel, by decide +kernel⟩
  have hHolds := ((adds_and_subtracts_in_binary machine (.value 0xB0)).2 hApplies).1
  refine ⟨hApplies, UInt8.toNat_inj.mp ?_, hHolds.overflow.mpr ?_, ?_, hHolds.decimal⟩
  · exact Int.ofNat_inj.mp hHolds.a
  · decide
  · exact Bool.eq_false_iff.mpr fun hCarry => absurd (hHolds.carry.mp hCarry) (by decide)

end NesMachine
