import NesMachine.Proofs.Byte
import NesMachine.Proofs.Safety.Drawing

/-!
# The picture, pixel by pixel

What a pixel of the picture is, in the numbers of the video bus, and what drawing makes of the buffer that it
is lent.

* `Ppu.tileNumber`, `Ppu.paletteNumber`, `Ppu.patternNumber`: what video memory says of a pixel.
* `Ppu.shownColor_eq`: so the picture unit takes it.
* `Ppu.paint`: drawing into a lent buffer, tile by tile.
* `Ppu.paint_sets_each_pixel`: every pixel is drawn, and nothing else is changed.
-/

namespace NesMachine.Ppu

open Picture

/-! ## Pixels in numbers -/

section Numbers

variable (ppu : Ppu) (x y : Nat)

def videoByte (address : Nat) : Nat :=
  (Vram.read ppu.vram (UInt16.ofNat address)).toNat

def nametableStart : Nat :=
  0x2000 + 0x400 * (ppu.latches.control.byte.toNat % 4)

def patternStart : Nat :=
  if ppu.latches.control.byte.toNat.testBit 4 then 0x1000 else 0

/-- The tile that a pixel is part of: one of 32 by 30, each of eight by eight pixels. -/
def tileNumber : Nat :=
  ppu.videoByte (ppu.nametableStart + y / 8 * 32 + x / 8)

/-- The palette of a pixel: two bits of an attribute byte, which has such a pair for each quarter of a square
of 32 by 32 pixels. -/
def paletteNumber : Nat :=
  ppu.videoByte (ppu.nametableStart + 0x3C0 + y / 32 * 8 + x / 32) >>>
    (4 * (y / 16 % 2) + 2 * (x / 16 % 2)) % 4

def planeBit (plane : Nat) : Nat :=
  ppu.videoByte (ppu.patternStart + 16 * ppu.tileNumber x y + y % 8 + 8 * plane) >>> (7 - x % 8) % 2

def patternNumber : Nat :=
  ppu.planeBit x y 0 + 2 * ppu.planeBit x y 1

/-- The colour of a pixel: black, or the entry of the fixed table that its palette and its value select. -/
def shownColor : Option Color :=
  if ppu.patternNumber x y = 0 then some Color.black
  else Color.table[4 * ppu.paletteNumber x y + ppu.patternNumber x y]?

end Numbers

variable (ppu : Ppu) (x y : Nat)

/-! ## The picture unit takes these numbers -/

theorem control_select : (ppu.latches.control.byte &&& 0x03).toNat =
    ppu.latches.control.byte.toNat % 4 := by
  rw [UInt8.toNat_and]
  exact Nat.and_two_pow_sub_one_eq_mod _ 2

/-- The two lowest bits of the control register choose one of four nametables. -/
theorem nametable_eq : ppu.latches.control.nametable = UInt16.ofNat ppu.nametableStart := by
  have hStart : ppu.latches.control.nametable.toNat = ppu.nametableStart := by
    rw [ppu.nametable_toNat.1, control_select, nametableStart, Nat.mul_comm]
  rw [← hStart, UInt16.ofNat_toNat]

/-- One bit of the control register chooses the pattern table. -/
theorem backgroundTable_eq :
    ppu.latches.control.backgroundTable = UInt16.ofNat ppu.patternStart := by
  have hBit (byte : UInt8) : (byte &&& 0x10 != 0) = byte.toNat.testBit 4 :=
    Byte.forall_of_all (P := fun byte => (byte &&& 0x10 != 0) = byte.toNat.testBit 4)
      (by decide +kernel) byte
  rw [Control.backgroundTable, hBit, patternStart]
  split <;> rfl

/-- The tile at a pixel is the number that stands in the nametable. -/
theorem tileAt_toNat : (ppu.tileAt x y).toNat = ppu.tileNumber x y := by
  rw [tileAt, nametable_eq, ← UInt16.ofNat_add, ← Nat.add_assoc]
  rfl

/-- The palette at a pixel is a pair of bits of the attribute byte. -/
theorem paletteAt_eq : ppu.paletteAt x y = ppu.paletteNumber x y := by
  have hAddress : ppu.latches.control.nametable + 0x3C0 + UInt16.ofNat (y / 32 * 8 + x / 32) =
      UInt16.ofNat (ppu.nametableStart + 0x3C0 + y / 32 * 8 + x / 32) := by
    rw [nametable_eq, Nat.add_assoc _ (y / 32 * 8), UInt16.ofNat_add (ppu.nametableStart + 0x3C0),
      UInt16.ofNat_add ppu.nametableStart]
    rfl
  rw [paletteAt, hAddress, Nat.mul_comm _ 4, Nat.mul_comm _ 2]
  rfl

-- The rows of the first plane stand before those of the second one.
theorem planeBit_eq {address : UInt16} (plane : Nat)
    (h : address = UInt16.ofNat (ppu.patternStart + 16 * ppu.tileNumber x y + y % 8 + 8 * plane)) :
    (Byte.bit (Vram.read ppu.vram address) (7 - x % 8)).toNat = ppu.planeBit x y plane := by
  rw [Byte.bit, Nat.toNat_testBit, planeBit, videoByte, h, Nat.shiftRight_eq_div_pow]

/-- The value at a pixel is put together from both planes. -/
theorem patternAt_eq : ppu.patternAt x y = ppu.patternNumber x y := by
  have hRow : ppu.latches.control.backgroundTable + (ppu.tileAt x y).toUInt16 * 16 +
      UInt16.ofNat (y % 8) =
        UInt16.ofNat (ppu.patternStart + 16 * ppu.tileNumber x y + y % 8) := by
    have hTile : (ppu.tileAt x y).toUInt16 = UInt16.ofNat (ppu.tileNumber x y) := by
      rw [← tileAt_toNat, ← UInt8.toNat_toUInt16, UInt16.ofNat_toNat]
    rw [backgroundTable_eq, hTile, UInt16.ofNat_add, UInt16.ofNat_add, UInt16.ofNat_mul, UInt16.mul_comm]
    rfl
  have hLow := ppu.planeBit_eq x y 0 hRow
  have hHigh := ppu.planeBit_eq x y 1
    ((congrArg (· + 8) hRow).trans (UInt16.ofNat_add _ 8).symm)
  simp only [patternAt, hLow, hHigh, patternNumber]

theorem planeBit_lt (plane : Nat) : ppu.planeBit x y plane < 2 :=
  Nat.mod_lt _ (by decide)

/-- The colour of a pixel of the picture is the one that video memory shows there, and it is in the table. -/
theorem shownColor_eq : ppu.shownColor x y = some (ppu.pixel x y) := by
  have hLow := ppu.planeBit_lt x y 0
  have hHigh := ppu.planeBit_lt x y 1
  have hPalette : ppu.paletteNumber x y < 4 := Nat.mod_lt _ (by decide)
  have hValue : ppu.patternNumber x y < 4 := by
    rw [patternNumber]
    omega
  have hIndex : 4 * ppu.paletteNumber x y + ppu.patternNumber x y < 16 := by omega
  rw [shownColor, pixel, patternAt_eq, paletteAt_eq, Nat.mul_comm _ 4]
  split
  · rfl
  · rw [Color.ofIndex, Vector.getElem?_eq_getElem hIndex]
    simp only [Nat.mod_eq_of_lt hIndex]

/-! ## The buffer -/

/-- Draws into the buffer that the caller lends, tile by tile and with all checks. The caller gets it back, with
the reason if it was refused. -/
def paint (buffer : Array UInt8) : Checked (Array UInt8 × Option RenderError) := do
  match ← ppu.checkedRenderInto buffer with
  | .ok drawn => return (drawn, none)
  | .error reason => return (buffer, some reason)

section Paint

variable {ppu} {buffer : Array UInt8}

/-- A buffer that is too small comes back as it was, with the reason. -/
theorem paint_of_small (h : buffer.size < byteCount) :
    ppu.paint buffer = .ok (buffer, some (.bufferTooSmall byteCount buffer.size)) := by
  rw [paint, checkedRenderInto_eq, renderInto, if_pos h]
  rfl

/-- A buffer that is large enough is drawn into, and no check fails. -/
theorem paint_of_large (h : byteCount ≤ buffer.size) :
    ppu.paint buffer = .ok (ppu.drawn buffer, none) := by
  rw [paint, checkedRenderInto_eq, renderInto, if_neg (Nat.not_lt_of_le h)]
  rfl

theorem size_drawn (h : byteCount ≤ buffer.size) : (ppu.drawn buffer).size = buffer.size := by
  rw [drawn, Array.size_append, size_picture, Array.size_extract, Nat.min_self]
  exact Nat.add_sub_cancel' h

/-- The picture hides what was in the buffer before. -/
theorem getElem?_drawn_of_lt {i : Nat} (h : i < byteCount) (other : Array UInt8) :
    (ppu.drawn buffer)[i]? = (ppu.drawn other)[i]? := by
  have hPicture : i < ppu.picture.size := by
    rw [size_picture]
    exact h
  rw [drawn, drawn, Array.getElem?_append_left hPicture, Array.getElem?_append_left hPicture]

end Paint

/-- **Drawing sets each pixel.** A buffer that is too small is refused and comes back as it was. In any other
one the three bytes of each pixel are those of the colour that video memory shows there, the bytes past the
picture are untouched, and of the bytes before it nothing shows through. -/
theorem paint_sets_each_pixel (ppu : Ppu) (buffer : Array UInt8) :
    (buffer.size < 184320 →
      ppu.paint buffer = .ok (buffer, some (.bufferTooSmall 184320 buffer.size)) ∧
      ppu.renderInto buffer = .error (.bufferTooSmall 184320 buffer.size)) ∧
    (184320 ≤ buffer.size → ∃ after,
      ppu.paint buffer = .ok (after, none) ∧ ppu.renderInto buffer = .ok after ∧
      after.size = buffer.size ∧
      (∀ i, 184320 ≤ i → after[i]? = buffer[i]?) ∧
      (∀ x y, x < 256 → y < 240 → ∃ color, ppu.shownColor x y = some color ∧
        after[(y * 256 + x) * 3]? = some color.red ∧
        after[(y * 256 + x) * 3 + 1]? = some color.green ∧
        after[(y * 256 + x) * 3 + 2]? = some color.blue) ∧
      ∀ other, 184320 ≤ other.size → ∃ afterOther, ppu.paint other = .ok (afterOther, none) ∧
        ∀ i < 184320, afterOther[i]? = after[i]?) := by
  constructor
  · intro hSmall
    exact ⟨paint_of_small hSmall, if_pos hSmall⟩
  · intro hLarge
    refine ⟨ppu.drawn buffer, paint_of_large hLarge, if_neg (Nat.not_lt_of_le hLarge),
      size_drawn hLarge, ?_, ?_, ?_⟩
    · intro i hPast
      exact (ppu.getElem?_drawn_of_le hLarge hPast).symm
    · intro x y hX hY
      have hByte (k : Nat) (hK : k < 3) := ppu.getElem?_drawn buffer hX hY hK
      exact ⟨_, ppu.shownColor_eq x y, hByte 0 (by decide), hByte 1 (by decide), hByte 2 (by decide)⟩
    · -- What a pixel becomes does not depend on the buffer, so nothing of it shows through.
      intro other hOther
      exact ⟨_, paint_of_large hOther, fun i hInside => getElem?_drawn_of_lt hInside buffer⟩

end NesMachine.Ppu
