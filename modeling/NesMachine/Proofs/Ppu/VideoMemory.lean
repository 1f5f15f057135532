import NesMachine.Ppu.Vram
import NesMachine.Proofs.Ram

/-!
# Bytes of video memory

What a read of video memory returns after a write, after a clearing, and after a run of bytes was loaded.

* `Vram.read_write`: a write shows at every address of its cell.
* `Vram.read_clearWork`: a clearing leaves the patterns.
* `Vram.read_load`: the loaded patterns stand at their own addresses.
-/

namespace NesMachine.Vram

attribute [local instance (high)] instPowNat

/-- The storage of the video bus is a quarter of the address space. -/
theorem cell_lt (address : UInt16) : cell address < 0x4000 := by
  have hFolded : address.toNat % 0x4000 < 0x4000 := Nat.mod_lt _ (by decide)
  simp only [cell]
  split
  · omega
  · split <;> omega

theorem cell_mod (address : UInt16) : cell address % 2 ^ (16 : Nat) = cell address :=
  Nat.mod_eq_of_lt (Nat.lt_trans (cell_lt address) (by decide))

theorem cell_of_lt {address : UInt16} (h : address.toNat < 0x3000) : cell address = address.toNat := by
  have hFolded : address.toNat % 0x4000 = address.toNat := Nat.mod_eq_of_lt (by omega)
  simp [cell, hFolded, h]

/-- The patterns have the lowest cells, at their own addresses in each repeat. -/
theorem cell_lt_patterns_iff (address : UInt16) :
    cell address < 0x2000 ↔ address.toNat % 0x4000 < 0x2000 := by
  simp only [cell]
  split
  · exact Iff.rfl
  · split <;> omega

/-- The video bus has 14 lines, and so only those of an address count. -/
theorem read_folded (cells : Ram 16) (address : UInt16) :
    read cells (UInt16.ofNat (address.toNat % 0x4000)) = read cells address := by
  have hBound : address.toNat % 0x4000 < 2 ^ 16 :=
    Nat.lt_trans (Nat.mod_lt _ (by decide)) (by decide)
  have hFolded : (UInt16.ofNat (address.toNat % 0x4000)).toNat = address.toNat % 0x4000 :=
    UInt16.toNat_ofNat_of_lt' hBound
  simp only [read, cell, hFolded, Nat.mod_mod]

/-- A byte that is written is read at all addresses of its cell and at no other ones. -/
theorem read_write (cells : Ram 16) (a b : UInt16) (value : UInt8) :
    read (write cells a value) b = if cell a = cell b then value else read cells b := by
  simp only [read, write, Ram.get_set, cell_mod]

/-- A clearing zeroes all but the patterns. -/
theorem read_clearWork (cells : Ram 16) (address : UInt16) :
    read (clearWork cells) address =
      if address.toNat % 0x4000 < 0x2000 then read cells address else 0 := by
  have hOnBus := cell_lt address
  simp only [read, clearWork, Ram.get_overlay, Ram.get_zero, cell_mod]
  by_cases hPatterns : address.toNat % 0x4000 < 0x2000
  · have hCell := (cell_lt_patterns_iff address).mpr hPatterns
    have hBelow : ¬(0x2000 ≤ cell address ∧ cell address < 0x4000) := by omega
    simp only [hPatterns, hBelow, if_true, if_false]
  · have hCell : 0x2000 ≤ cell address :=
      Nat.le_of_not_lt fun hBelow => hPatterns ((cell_lt_patterns_iff address).mp hBelow)
    simp only [hPatterns, hCell, hOnBus, and_self, if_true, if_false]

/-- Below the redirection every address has its own cell, so that a run of bytes is stored as it stands. -/
theorem load_eq_setBytes (cells : Ram 16) (start : UInt16) {bytes : List UInt8}
    (h : start.toNat + bytes.length ≤ 0x3000) :
    load cells start bytes = cells.setBytes start.toNat bytes := by
  induction bytes generalizing cells start with
  | nil => rfl
  | cons byte rest ih =>
    have hLength : (byte :: rest).length = rest.length + 1 := rfl
    have hCell : cell start = start.toNat := cell_of_lt (by omega)
    have hNext : (start + 1).toNat = start.toNat + 1 := by
      rw [UInt16.toNat_add]
      exact Nat.mod_eq_of_lt (by simp; omega)
    have hRest := ih (write cells start byte) (start + 1) (by omega)
    rw [hNext] at hRest
    rw [load, hRest, write, hCell]
    rfl

/-- Patterns that are loaded at the start of the bus are read back there. -/
theorem read_load (cells : Ram 16) {bytes : List UInt8} (h : bytes.length ≤ 0x3000) (address : UInt16)
    (hAddress : address.toNat < 0x3000) :
    read (load cells 0 bytes) address = bytes.getD address.toNat (read cells address) := by
  have hOnBus : address.toNat < 2 ^ 16 := address.toNat_lt
  have hStart : (0 : UInt16).toNat + bytes.length ≤ 0x3000 := by simpa using h
  have hFits : 0 + bytes.length ≤ 2 ^ 16 := by
    have hBound : (0x3000 : Nat) ≤ 2 ^ 16 := by decide
    omega
  have hGet := Ram.get_setBytes cells 0 bytes address.toNat hFits hOnBus
  rw [read, read, load_eq_setBytes cells 0 hStart, cell_of_lt hAddress]
  simpa using hGet

end NesMachine.Vram
