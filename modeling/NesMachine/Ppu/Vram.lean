import NesMachine.AddressSpace.Basic

/-!
# Video memory

The video bus reaches 8 KiB of patterns, four nametables and 32 bytes of palette. Each nametable is 960
tile numbers and 64 attribute bytes. The nametables show again at `$3000` as far as the palette, the
palette fills its page, and the whole repeats every 16 KiB.

`layout` says so as an address space; `cell` is the same map as arithmetic. Every address
of the video bus reaches a cell: that is `locate_layout`.
-/

namespace NesMachine.Vram

def nametable (start : Nat) (fits : start + 0x400 ≤ busEnd := by decide) : Layout :=
  .composite <|
    .cons (.block
      { start, stop := start + 0x3C0
        start_lt_stop := by omega
        stop_le_busEnd := by omega }) <|
    .last <| .block
      { start := start + 0x3C0, stop := start + 0x400
        start_lt_stop := by omega
        stop_le_busEnd := fits }

def layout : Layout :=
  .repeated
    (.composite <|
      .cons (.block { start := 0x0000, stop := 0x2000 }) <|
      .cons (nametable 0x2000) <|
      .cons (nametable 0x2400) <|
      .cons (nametable 0x2800) <|
      .cons (nametable 0x2C00) <|
      .cons (.redirect { start := 0x3000, stop := 0x3F00 } 0x2000) <|
      .last <| .repeated (.block { start := 0x3F00, stop := 0x3F20 }) 8)
    4

def cell (address : UInt16) : Nat :=
  let folded := address.toNat % 0x4000
  if folded < 0x3000 then folded
  else if folded < 0x3F00 then folded - 0x1000
  else 0x3F00 + folded % 0x20

theorem stop_layout : layout.stop = busEnd := by decide

/-- Where a walk ends: patterns and nametables stand for themselves, the copy of the nametables is
redirected to them, and the palette is found by the five lowest bits. -/
theorem walk_layout (address : Nat) :
    layout.walk address =
      if address % 0x4000 < 0x3000 then .place (.cell (address % 0x4000))
      else if address % 0x4000 < 0x3F00 then .redirect (address % 0x4000 - 0x1000)
      else .place (.cell (0x3F00 + address % 0x4000 % 0x20)) := by
  have bound : address % 0x4000 < 0x4000 := Nat.mod_lt _ (by decide)
  simp only [layout, nametable, Layout.walk, Tiling.walk, Layout.start, Layout.stop, Tiling.start,
    Tiling.stop]
  simp only [Nat.sub_zero, Nat.zero_add]
  generalize address % 0x4000 = folded at *
  by_cases patterns : folded < 0x3000
  · -- The five windows in front of the palette make two cases: all of them shown, or the last one
    -- redirected.
    simp [patterns]
  · have h1 : ¬ folded < 0x2000 := by omega
    have h2 : ¬ folded < 0x2400 := by omega
    have h3 : ¬ folded < 0x2800 := by omega
    have h4 : ¬ folded < 0x2C00 := by omega
    by_cases names : folded < 0x3F00
    · have shown : 0x2000 + (folded - 0x3000) = folded - 0x1000 := by omega
      simp [patterns, names, h1, h2, h3, h4, shown]
    · have wrapped : (folded - 0x3F00) % 0x20 = folded % 0x20 := by omega
      simp [patterns, names, h1, h2, h3, h4, wrapped]

theorem land_layout (address : Nat) (inside : address < busEnd) :
    layout.land address = .ok (layout.walk address) :=
  if_pos ⟨Nat.zero_le _, stop_layout ▸ inside⟩

/-- What a redirection leads to is storage, so it never leads to another redirection. -/
theorem walk_layout_nametables (address : Nat) (inside : address < 0x3000) :
    layout.walk address = .place (.cell address) := by
  have folded : address % 0x4000 = address := Nat.mod_eq_of_lt (by omega)
  rw [walk_layout, folded, if_pos inside]

/-- Every address of the video bus reaches a cell. -/
theorem locate_layout (address : UInt16) :
    layout.locate address.toNat = .ok (.cell (cell address)) := by
  have inside : address.toNat < busEnd := address.toNat_lt
  have landed := land_layout _ inside
  rw [walk_layout] at landed
  by_cases patterns : address.toNat % 0x4000 < 0x3000
  · rw [if_pos patterns] at landed
    rw [Layout.locate_of_place landed, cell, if_pos patterns]
  · by_cases names : address.toNat % 0x4000 < 0x3F00
    · have low : address.toNat % 0x4000 - 0x1000 < 0x3000 := by omega
      rw [if_neg patterns, if_pos names] at landed
      have again := land_layout _ (Nat.lt_trans low (by decide))
      rw [walk_layout_nametables _ low] at again
      rw [Layout.locate_of_redirect landed again, cell]
      simp only [if_neg patterns, if_pos names]
    · rw [if_neg patterns, if_neg names] at landed
      rw [Layout.locate_of_place landed, cell, if_neg patterns, if_neg names]

def read (cells : Ram 16) (address : UInt16) : UInt8 :=
  cells.get (cell address)

def write (cells : Ram 16) (address : UInt16) (value : UInt8) : Ram 16 :=
  cells.set (cell address) value

/-- Stores consecutive bytes from `start` on, where `$0000` follows `$FFFF`. -/
def load (cells : Ram 16) (start : UInt16) : List UInt8 → Ram 16
  | [] => cells
  | byte :: rest => load (write cells start byte) (start + 1) rest

/-- Clears the nametables and the palette; the patterns stay. -/
def clearWork (cells : Ram 16) : Ram 16 :=
  cells.overlay (Ram.zero 16) 0x2000 0x4000

end NesMachine.Vram
