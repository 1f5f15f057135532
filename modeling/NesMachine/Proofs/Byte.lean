import NesMachine.Word

/-!
# The bits of a byte

`Byte.bit` through the operations on bytes, and the sign bit in the numbers that a byte stands for.
-/

namespace NesMachine.Byte

theorem bit_eq_getLsbD (byte : UInt8) (i : Nat) : bit byte i = byte.toBitVec.getLsbD i := rfl

@[simp] theorem bit_and (a b : UInt8) (i : Nat) : bit (a &&& b) i = (bit a i && bit b i) := by
  simp [bit_eq_getLsbD]

@[simp] theorem bit_or (a b : UInt8) (i : Nat) : bit (a ||| b) i = (bit a i || bit b i) := by
  simp [bit_eq_getLsbD]

theorem bit_not (a : UInt8) {i : Nat} (h : i < 8) : bit (~~~a) i = !bit a i := by
  simp [bit_eq_getLsbD, h]

theorem bit_ofBits : ∀ (b0 b1 b2 b3 b4 b5 b6 b7 : Bool) (i : Fin 8),
    bit (ofBits b0 b1 b2 b3 b4 b5 b6 b7) i = #v[b0, b1, b2, b3, b4, b5, b6, b7].get i := by
  decide +kernel

/-- What holds of the 256 bytes, one by one, holds of every byte. -/
theorem forall_of_all {P : UInt8 → Prop} (h : ∀ n : Fin 256, P (UInt8.ofNat n)) (byte : UInt8) : P byte := by
  have hByte := h ⟨byte.toNat, byte.toNat_lt⟩
  rwa [UInt8.ofNat_toNat] at hByte

/-- Extending the sign keeps the signed value. -/
theorem signExtend_eq (byte : UInt8) : signExtend byte = byte.toInt8.toInt16.toUInt16 :=
  forall_of_all (P := fun byte => signExtend byte = byte.toInt8.toInt16.toUInt16) (by decide +kernel) byte

/-- Going down from zero wraps to `$FF`. -/
theorem toNat_pred (byte : UInt8) : (byte - 1).toNat = (byte.toNat + 0xFF) % 0x100 :=
  forall_of_all (P := fun byte => (byte - 1).toNat = (byte.toNat + 0xFF) % 0x100) (by decide +kernel) byte

/-! ## Numbers with a sign -/

theorem isNegative_iff (byte : UInt8) : isNegative byte = true ↔ 0x80 ≤ byte.toNat :=
  forall_of_all (P := fun byte => isNegative byte = true ↔ 0x80 ≤ byte.toNat) (by decide +kernel) byte

/-- The signed value is the unsigned one, less `$100` in the upper half. -/
theorem toInt_eq (byte : UInt8) :
    byte.toInt8.toInt = if 0x80 ≤ byte.toNat then (byte.toNat : Int) - 0x100 else byte.toNat :=
  forall_of_all
    (P := fun byte =>
      byte.toInt8.toInt = if 0x80 ≤ byte.toNat then (byte.toNat : Int) - 0x100 else byte.toNat)
    (by decide +kernel) byte

theorem toNat_complement (byte : UInt8) : ((~~~byte).toNat : Int) = 0xFF - byte.toNat :=
  forall_of_all (P := fun byte => ((~~~byte).toNat : Int) = 0xFF - byte.toNat) (by decide +kernel) byte

/-- The complement of a byte is one less than its negative, which is why a subtraction can be an
addition. -/
theorem toInt_complement (byte : UInt8) : (~~~byte).toInt8.toInt = -1 - byte.toInt8.toInt :=
  forall_of_all (P := fun byte => (~~~byte).toInt8.toInt = -1 - byte.toInt8.toInt) (by decide +kernel) byte

end NesMachine.Byte
