import NesMachine.Proofs.Byte

/-!
# The numbers of words

What the ways to take words apart and to put them together do to their numbers, and the wrapping sums of
addresses as sums of numbers.
-/

namespace NesMachine

namespace Word

variable (word : UInt16)

theorem toNat_low : (low word).toNat = word.toNat % 0x100 := by
  simp [low]

theorem toNat_high : (high word).toNat = word.toNat / 0x100 := by
  have hWord := word.toNat_lt
  simp [high]
  omega

/-- A word is its low byte and so many pages as its high byte says. -/
theorem toNat_ofBytes (low high : UInt8) : (ofBytes low high).toNat = low.toNat + 0x100 * high.toNat := by
  have hLow := low.toNat_lt
  have hHigh := high.toNat_lt
  simp [ofBytes]
  omega

/-- Moving a word to another page keeps its offset. -/
theorem toNat_onPageOf (page : UInt16) :
    (onPageOf page word).toNat = page.toNat / 0x100 * 0x100 + word.toNat % 0x100 := by
  rw [onPageOf, toNat_ofBytes, toNat_low, toNat_high]
  omega

/-! ## Sums -/

theorem toNat_next : (word.toNat + 1) % 0x10000 = (word + 1).toNat := by
  simp

theorem toNat_skip : (word.toNat + 2) % 0x10000 = (word + 1 + 1).toNat := by
  simp [UInt16.add_assoc]

/-- On its page the next address wraps from the last place to the first. -/
theorem toNat_nextOnPage :
    word.toNat / 0x100 * 0x100 + (word.toNat + 1) % 0x100 = (onPageOf word (word + 1)).toNat := by
  rw [toNat_onPageOf, ← toNat_next]
  omega

theorem toNat_add_byte (byte : UInt8) :
    (word + byte.toUInt16).toNat = (word.toNat + byte.toNat) % 0x10000 := by
  simp

/-- A signed offset goes forward or backward and wraps around the address space. -/
theorem toNat_add_signExtend (byte : UInt8) :
    (word + Byte.signExtend byte).toNat = ((word.toNat + byte.toInt8.toInt) % 0x10000).toNat := by
  have hByte : ((Byte.signExtend byte).toNat : Int) = byte.toInt8.toInt % 0x10000 :=
    Byte.forall_of_all
      (P := fun byte => ((Byte.signExtend byte).toNat : Int) = byte.toInt8.toInt % 0x10000)
      (by decide +kernel) byte
  rw [UInt16.toNat_add]
  omega

end Word

/-! ## Page zero and the stack -/

namespace Byte

variable (a b : UInt8)

theorem toNat_zeroPage_next : (a.toUInt16.toNat + 1) % 0x100 = (a + 1).toUInt16.toNat := by
  simp

theorem toNat_zeroPage_add : (a.toUInt16.toNat + b.toNat) % 0x100 = (a + b).toUInt16.toNat := by
  simp

theorem toNat_zeroPage_add_next :
    (a.toUInt16.toNat + b.toNat + 1) % 0x100 = (a + b + 1).toUInt16.toNat := by
  simp

/-- A stack address is the pointer on page 1, without a carry. -/
theorem toNat_stackAddress : (0x100 + a.toUInt16).toNat = 0x100 + a.toNat := by
  have hOffset := a.toNat_lt
  simp
  omega

end Byte

end NesMachine
