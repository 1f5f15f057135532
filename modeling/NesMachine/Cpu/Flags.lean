import NesMachine.Word

/-!
# Processor status

The status register P is eight flags. `breakFlag` and `unused` have no circuit of their own in the
processor: they matter in the copies that go to the stack, where `unused` is always set and
`breakFlag` tells `BRK` and `PHP` from a hardware interrupt.
-/

namespace NesMachine

structure Flags where
  carry : Bool := false
  zero : Bool := false
  interruptDisable : Bool := false
  /-- Stored and pushed; arithmetic is binary whatever it says. -/
  decimal : Bool := false
  breakFlag : Bool := false
  unused : Bool := false
  overflow : Bool := false
  negative : Bool := false
  deriving DecidableEq, Repr

namespace Flags

/-- Packs the flags as `NV_BDIZC`, with carry in bit 0. -/
def toByte (p : Flags) : UInt8 :=
  Byte.ofBits p.carry p.zero p.interruptDisable p.decimal p.breakFlag p.unused p.overflow p.negative

def ofByte (byte : UInt8) : Flags where
  carry := byte &&& 0x01 != 0
  zero := byte &&& 0x02 != 0
  interruptDisable := byte &&& 0x04 != 0
  decimal := byte &&& 0x08 != 0
  breakFlag := byte &&& 0x10 != 0
  unused := byte &&& 0x20 != 0
  overflow := byte &&& 0x40 != 0
  negative := byte &&& 0x80 != 0

/-- Interrupts disabled, unused bit set. -/
def powerOn : Flags :=
  { interruptDisable := true, unused := true }

theorem ofByte_toByte_mk : ∀ c z i d b u v n : Bool,
    ofByte (toByte ⟨c, z, i, d, b, u, v, n⟩) = ⟨c, z, i, d, b, u, v, n⟩ := by
  decide +kernel

/-- Packing the flags loses none of them. -/
@[simp] theorem ofByte_toByte (p : Flags) : ofByte p.toByte = p :=
  ofByte_toByte_mk ..

theorem toByte_ofByte_ofNat : ∀ n : Fin 256, (ofByte (UInt8.ofNat n)).toByte = UInt8.ofNat n := by
  decide +kernel

/-- Every byte is the packing of its flags. -/
@[simp] theorem toByte_ofByte (byte : UInt8) : (ofByte byte).toByte = byte := by
  have packed := toByte_ofByte_ofNat ⟨byte.toNat, byte.toNat_lt⟩
  rwa [UInt8.ofNat_toNat] at packed

instance : Inhabited Flags := ⟨powerOn⟩

def setZN (p : Flags) (result : UInt8) : Flags :=
  { p with zero := result == 0, negative := Byte.isNegative result }

/-- The copy that goes to the stack: from `BRK` or `PHP` if `isBreak`, else from an interrupt. -/
def toStack (p : Flags) (isBreak : Bool) : UInt8 :=
  toByte { p with unused := true, breakFlag := isBreak }

def ofStack (byte : UInt8) : Flags :=
  { ofByte byte with unused := true, breakFlag := false }

end Flags

end NesMachine
