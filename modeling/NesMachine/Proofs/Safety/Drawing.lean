import NesMachine.Ppu.Picture
import NesMachine.Proofs.Safety.Lookup

/-!
# Drawing with checks

The picture is drawn tile by tile, row by row and pixel by pixel into a buffer: addresses are sums of
words, bits are shifted out of bytes, and each pixel is a slice of the buffer. `Ppu.picture` gives the
same bytes in closed form.

* `Ppu.checkedTile_eq`, `Ppu.checkedPlanes_eq`: the addresses of a tile fit their words, whatever the
  control register holds.
* `Picture.Draws.loop`: a loop that draws its parts draws them all.
* `Ppu.checkedRenderInto_eq`: no check of drawing fails, and the buffer holds the picture.
-/

namespace NesMachine

/-! ## Addresses -/

namespace Ppu

def checkedNametable (ppu : Ppu) : Checked Nat := do
  let offset ← Checked.fit UInt16.size ((ppu.latches.control.byte &&& 0x03).toNat * 0x400)
  Checked.fit UInt16.size (0x2000 + offset)

def checkedTile (ppu : Ppu) (nametable attributes tx ty : Nat) : Checked (UInt8 × Nat) := do
  let tileAddress ← Checked.fit UInt16.size (nametable + (ty * 32 + tx))
  let tile ← ppu.memory.checkedRead (UInt16.ofNat tileAddress)
  let attributeAddress ← Checked.fit UInt16.size (attributes + (ty / 4 * 8 + tx / 4))
  let byte ← ppu.memory.checkedRead (UInt16.ofNat attributeAddress)
  let amount := ty % 4 / 2 * 4 + tx % 4 / 2 * 2
  Checked.shift amount 8
  return (tile, byte.toNat >>> amount % 4)

def checkedPlanes (ppu : Ppu) (tile : UInt8) (row : Nat) : Checked (UInt8 × UInt8) := do
  let offset ← Checked.fit UInt16.size (tile.toNat * 16)
  let start ← Checked.fit UInt16.size (ppu.latches.control.backgroundTable.toNat + offset)
  let address ← Checked.fit UInt16.size (start + row)
  let low ← ppu.memory.checkedRead (UInt16.ofNat address)
  let above ← Checked.fit UInt16.size (address + 8)
  let high ← ppu.memory.checkedRead (UInt16.ofNat above)
  return (low, high)

variable (ppu : Ppu)

/-- The four nametables start at `$2000` and lie `$400` apart. -/
theorem nametable_toNat : ppu.latches.control.nametable.toNat =
    0x2000 + (ppu.latches.control.byte &&& 0x03).toNat * 0x400 ∧
      (ppu.latches.control.byte &&& 0x03).toNat ≤ 3 := by
  have hSelect : (ppu.latches.control.byte &&& 0x03).toNat ≤ 3 := by
    rw [UInt8.toNat_and]
    exact Nat.and_le_right
  refine ⟨?_, hSelect⟩
  rw [Control.nametable, UInt16.toNat_add, UInt16.toNat_mul, UInt8.toNat_toUInt16]
  simp only [UInt16.reduceToNat]
  omega

theorem backgroundTable_le : ppu.latches.control.backgroundTable.toNat ≤ 0x1000 := by
  rw [Control.backgroundTable]
  split <;> decide

theorem checkedNametable_eq :
    ppu.checkedNametable = .ok ppu.latches.control.nametable.toNat := by
  obtain ⟨hNametable, hSelect⟩ := ppu.nametable_toNat
  rw [checkedNametable, Checked.fit_word_eq_ok (by omega), Checked.ok_bind,
    Checked.fit_word_eq_ok (by omega), hNametable]

-- A sum of words that fits is the sum of their numbers.
theorem ofNat_toNat_add (word : UInt16) (n : Nat) :
    UInt16.ofNat (word.toNat + n) = word + UInt16.ofNat n := by
  rw [UInt16.ofNat_add, UInt16.ofNat_toNat]

/-- The tile and its palette are found without a fault on every pixel of the picture. -/
theorem checkedTile_eq {x y : Nat} (hX : x < Picture.width) (hY : y < Picture.height) :
    ppu.checkedTile ppu.latches.control.nametable.toNat
        (ppu.latches.control.nametable.toNat + 0x3C0) (x / 8) (y / 8) =
      .ok (ppu.tileAt x y, ppu.paletteAt x y) := by
  obtain ⟨hNametable, hSelect⟩ := ppu.nametable_toNat
  simp only [Picture.width, Picture.height] at hX hY
  have hTile := Checked.fit_word_eq_ok
    (n := ppu.latches.control.nametable.toNat + (y / 8 * 32 + x / 8)) (by omega)
  have hAttributes := Checked.fit_word_eq_ok
    (n := ppu.latches.control.nametable.toNat + 0x3C0 + (y / 8 / 4 * 8 + x / 8 / 4)) (by omega)
  have hAmount : y / 8 % 4 / 2 * 4 + x / 8 % 4 / 2 * 2 < 8 := by omega
  -- Squares of two by two tiles, and of four by four, counted in tiles and in pixels.
  have hSquare : y / 8 / 4 * 8 + x / 8 / 4 = y / 32 * 8 + x / 32 := by omega
  have hShift : y / 8 % 4 / 2 * 4 + x / 8 % 4 / 2 * 2 = y / 16 % 2 * 4 + x / 16 % 2 * 2 := by omega
  have hAddress : UInt16.ofNat (ppu.latches.control.nametable.toNat + 0x3C0 +
      (y / 32 * 8 + x / 32)) =
        ppu.latches.control.nametable + 0x3C0 + UInt16.ofNat (y / 32 * 8 + x / 32) := by
    rw [UInt16.ofNat_add, ofNat_toNat_add]
    rfl
  simp only [checkedTile, hTile, hAttributes, Checked.shift_eq_ok hAmount, checkedRead_memory, Checked.ok_bind, Checked.pure_eq_ok]
  rw [hSquare, hShift, hAddress, ofNat_toNat_add]
  rfl

/-- The planes of a tile lie within the pattern tables. -/
theorem checkedPlanes_eq (tile : UInt8) {row : Nat} (hRow : row < 8) :
    ppu.checkedPlanes tile row =
      .ok (Vram.read ppu.vram
          (ppu.latches.control.backgroundTable + tile.toUInt16 * 16 + UInt16.ofNat row),
        Vram.read ppu.vram
          (ppu.latches.control.backgroundTable + tile.toUInt16 * 16 + UInt16.ofNat row + 8)) := by
  -- Every sum on the way fits a word, since the tables end below `$2000`.
  have hTable := ppu.backgroundTable_le
  have hTile := tile.toNat_lt
  have hOffset := Checked.fit_word_eq_ok (n := tile.toNat * 16) (by omega)
  have hStart := Checked.fit_word_eq_ok
    (n := ppu.latches.control.backgroundTable.toNat + tile.toNat * 16) (by omega)
  have hLow := Checked.fit_word_eq_ok
    (n := ppu.latches.control.backgroundTable.toNat + tile.toNat * 16 + row) (by omega)
  have hHigh := Checked.fit_word_eq_ok
    (n := ppu.latches.control.backgroundTable.toNat + tile.toNat * 16 + row + 8) (by omega)
  have hWord : UInt16.ofNat (tile.toNat * 16) = tile.toUInt16 * 16 := by
    rw [UInt16.ofNat_mul, ← UInt8.toNat_toUInt16, UInt16.ofNat_toNat]
    rfl
  simp only [checkedPlanes, hOffset, hStart, hLow, hHigh, checkedRead_memory, Checked.ok_bind,
    Checked.pure_eq_ok, UInt16.ofNat_add, UInt16.ofNat_toNat, hWord]
  rfl

end Ppu

/-! ## Pixels -/

def Color.checkedOfPlanes (palette : Nat) (low high : UInt8) (column : Nat) : Checked Color := do
  let bit ← Checked.sub 7 column
  Checked.shift bit 8
  let value := (Byte.bit low bit).toNat + 2 * (Byte.bit high bit).toNat
  if value = 0 then
    return black
  else do
    Checked.index ((palette * 4 + value) % 16) 16
    return ofIndex (palette * 4 + value)

/-- The colour index stays within the table. -/
theorem Color.checkedOfPlanes_eq (palette : Nat) (low high : UInt8) {column : Nat}
    (hColumn : column < 8) : Color.checkedOfPlanes palette low high column =
      let value := (Byte.bit low (7 - column)).toNat + 2 * (Byte.bit high (7 - column)).toNat
      .ok (if value = 0 then black else ofIndex (palette * 4 + value)) := by
  have hBit : 7 - column < 8 := Nat.lt_succ_of_le (Nat.sub_le 7 column)
  simp only [checkedOfPlanes, Checked.sub_eq_ok (Nat.le_of_lt_succ hColumn),
    Checked.shift_eq_ok hBit, Checked.index_eq_ok (Nat.mod_lt _ (by decide : 0 < 16)),
    Checked.ok_bind, Checked.pure_eq_ok]
  split <;> rfl

namespace Picture

def offset (x y : Nat) : Nat :=
  (y * width + x) * 3

def plot (buffer : Array UInt8) (x y : Nat) (color : Color) : Array UInt8 :=
  ((buffer.setIfInBounds (offset x y) color.red).setIfInBounds (offset x y + 1)
    color.green).setIfInBounds (offset x y + 2) color.blue

def checkedPlot (buffer : Array UInt8) (x y : Nat) (color : Color) : Checked (Array UInt8) := do
  let stop ← Checked.fit UInt64.size (offset x y + 3)
  Checked.slice stop buffer.size
  return plot buffer x y color

/-! ## What drawing does to a buffer -/

/-- The size stays, and so do the bytes that are already those of the target. -/
structure Improves (target before after : Array UInt8) : Prop where
  size : after.size = before.size
  keeps : ∀ i : Nat, before[i]? = target[i]? → after[i]? = target[i]?

/-- The buffer has the bytes of a pixel of the target. -/
def Shows (target : Array UInt8) (x y : Nat) (buffer : Array UInt8) : Prop :=
  ∀ k < 3, buffer[offset x y + k]? = target[offset x y + k]?

/-- What holds of a buffer holds after more of the target has been drawn. -/
def Stable (target : Array UInt8) (done : Array UInt8 → Prop) : Prop :=
  ∀ before after, Improves target before after → done before → done after

/-- No check fails, the buffer comes closer to the target, and a part of it is done. -/
def Draws (target : Array UInt8) (draw : Array UInt8 → Checked (Array UInt8))
    (done : Array UInt8 → Prop) : Prop :=
  ∀ buffer : Array UInt8, byteCount ≤ buffer.size →
    ∃ after, draw buffer = .ok after ∧ Improves target buffer after ∧ done after

variable {target : Array UInt8}

theorem Improves.refl (buffer : Array UInt8) : Improves target buffer buffer :=
  ⟨rfl, fun _ h => h⟩

theorem Improves.trans {first second third : Array UInt8} (h : Improves target first second)
    (hNext : Improves target second third) : Improves target first third :=
  ⟨hNext.size.trans h.size, fun i hOld => hNext.keeps i (h.keeps i hOld)⟩

theorem shows_stable (x y : Nat) : Stable target (Shows target x y) := by
  intro before after hImproves hShows k hK
  exact hImproves.keeps _ (hShows k hK)

/-- What is done stays done, for any number of parts. -/
theorem Stable.all {count : Nat} {done : Nat → Array UInt8 → Prop}
    (h : ∀ i, Stable target (done i)) : Stable target fun buffer => ∀ i < count, done i buffer := by
  intro before after hImproves hDone i hLt
  exact h i before after hImproves (hDone i hLt)

/-- A loop whose rounds draw their parts draws all of them. -/
theorem Draws.loop {count : Nat} {round : Nat → Array UInt8 → Checked (Array UInt8)}
    {done : Nat → Array UInt8 → Prop} (hStable : ∀ i, Stable target (done i))
    (h : ∀ i < count, Draws target (round i) (done i)) :
    Draws target (Checked.loop count round) fun buffer => ∀ i < count, done i buffer := by
  induction count with
  | zero =>
    intro buffer hSize
    exact ⟨buffer, rfl, .refl buffer, fun i hLt => absurd hLt (Nat.not_lt_zero i)⟩
  | succ count ih =>
    intro buffer hSize
    obtain ⟨middle, hLoop, hFirst, hDone⟩ := ih (fun i hLt => h i (Nat.lt_succ_of_lt hLt)) buffer hSize
    obtain ⟨after, hRound, hLast, hHere⟩ :=
      h count (Nat.lt_succ_self count) middle (hFirst.size ▸ hSize)
    refine ⟨after, ?_, hFirst.trans hLast, ?_⟩
    · rw [Checked.loop, hLoop, Checked.ok_bind, hRound]
    · intro i hLt
      rcases Nat.lt_succ_iff_lt_or_eq.mp hLt with hBefore | rfl
      · exact hStable i middle after hLast (hDone i hBefore)
      · exact hHere

/-- A pixel that is plotted has its three bytes. -/
theorem getElem?_plot {buffer : Array UInt8} {x y : Nat} (hSize : offset x y + 3 ≤ buffer.size)
    (color : Color) {k : Nat} (hK : k < 3) :
    (plot buffer x y color)[offset x y + k]? = some (color.component k) := by
  rcases Nat.lt_succ_iff_lt_or_eq.mp hK with hLow | rfl
  · rcases Nat.lt_succ_iff_lt_or_eq.mp hLow with hFirst | rfl
    · have hZero : k = 0 := Nat.lt_one_iff.mp hFirst
      simp [plot, Array.getElem?_setIfInBounds, hZero, Color.component]
      omega
    · simp [plot, Array.getElem?_setIfInBounds, Color.component]
      omega
  · simp [plot, Array.getElem?_setIfInBounds, Color.component]
    omega

/-- Plotting a pixel changes no other byte. -/
theorem getElem?_plot_of_ne (buffer : Array UInt8) {x y i : Nat} (color : Color)
    (h : ∀ k < 3, i ≠ offset x y + k) : (plot buffer x y color)[i]? = buffer[i]? := by
  have hRed := (h 0 (by decide)).symm
  have hGreen := (h 1 (by decide)).symm
  have hBlue := (h 2 (by decide)).symm
  simp only [plot, Array.getElem?_setIfInBounds, if_neg hBlue, if_neg hGreen]
  exact if_neg hRed

/-- A pixel of the target is drawn by its colour. -/
theorem plot_draws {x y : Nat} (hX : x < width) (hY : y < height) {color : Color}
    (hColor : ∀ k < 3, target[offset x y + k]? = some (color.component k)) :
    Draws target (fun buffer => checkedPlot buffer x y color) (Shows target x y) := by
  intro buffer hSize
  have hEnd : offset x y + 3 ≤ byteCount := by
    simp only [width, height] at hX hY
    simp only [offset, byteCount, width, height]
    omega
  have hInside : offset x y + 3 ≤ buffer.size := Nat.le_trans hEnd hSize
  have hFits : offset x y + 3 < UInt64.size := Nat.lt_of_le_of_lt hEnd (by decide)
  refine ⟨plot buffer x y color, ?_, ⟨?_, ?_⟩, ?_⟩
  · simp only [checkedPlot, Checked.fit_eq_ok hFits, Checked.slice_eq_ok hInside, Checked.ok_bind]
    rfl
  · simp [plot]
  · intro i hOld
    -- A byte is one of the three that were plotted, or is as before.
    by_cases hHere : ∃ k < 3, i = offset x y + k
    · obtain ⟨k, hK, rfl⟩ := hHere
      rw [getElem?_plot hInside color hK, hColor k hK]
    · have hElsewhere : ∀ k < 3, i ≠ offset x y + k := fun k hK hEq => hHere ⟨k, hK, hEq⟩
      rw [getElem?_plot_of_ne buffer color hElsewhere, hOld]
  · intro k hK
    rw [getElem?_plot hInside color hK, hColor k hK]

/-- Every byte of the picture is one of three of some pixel. -/
theorem exists_offset {i : Nat} (h : i < byteCount) :
    ∃ x y k, x < width ∧ y < height ∧ k < 3 ∧ i = offset x y + k := by
  simp only [byteCount, width, height] at h
  refine ⟨i / 3 % width, i / 3 / width, i % 3, Nat.mod_lt _ (by decide), ?_,
    Nat.mod_lt _ (by decide), ?_⟩
  · simp only [width, height]
    omega
  · simp only [offset, width]
    omega

/-- Every pixel is one of a tile, so the rows of the tiles cover the picture. -/
theorem shows_of_tiles {buffer : Array UInt8} (h : ∀ ty < 30, ∀ tx < 32, ∀ row < 8, ∀ column < 8,
      Shows target (tx * 8 + column) (ty * 8 + row) buffer) {x y : Nat} (hX : x < width)
    (hY : y < height) : Shows target x y buffer := by
  simp only [width, height] at hX hY
  have hShows := h (y / 8) (by omega) (x / 8) (by omega) (y % 8) (by omega) (x % 8) (by omega)
  rwa [Nat.div_add_mod', Nat.div_add_mod'] at hShows

end Picture

/-! ## The picture -/

namespace Ppu

def checkedDrawRow (ppu : Ppu) (tile : UInt8) (palette tx ty row : Nat) (buffer : Array UInt8) :
    Checked (Array UInt8) := do
  let (low, high) ← ppu.checkedPlanes tile row
  Checked.loop 8 (fun column buffer => do
    let color ← Color.checkedOfPlanes palette low high column
    Picture.checkedPlot buffer (tx * 8 + column) (ty * 8 + row) color) buffer

def checkedDrawTile (ppu : Ppu) (nametable attributes tx ty : Nat) (buffer : Array UInt8) :
    Checked (Array UInt8) := do
  let (tile, palette) ← ppu.checkedTile nametable attributes tx ty
  Checked.loop 8 (ppu.checkedDrawRow tile palette tx ty) buffer

def checkedRenderInto (ppu : Ppu) (buffer : Array UInt8) :
    Checked (Except RenderError (Array UInt8)) :=
  if buffer.size < Picture.byteCount then
    return .error (.bufferTooSmall Picture.byteCount buffer.size)
  else do
    let nametable ← ppu.checkedNametable
    let attributes ← Checked.fit UInt16.size (nametable + 0x3C0)
    let drawn ← Checked.loop 30 (fun ty =>
      Checked.loop 32 fun tx => ppu.checkedDrawTile nametable attributes tx ty) buffer
    return .ok drawn

def drawn (ppu : Ppu) (buffer : Array UInt8) : Array UInt8 :=
  ppu.picture ++ buffer.extract Picture.byteCount buffer.size

open Picture

variable {ppu : Ppu} {target : Array UInt8}

theorem size_picture (ppu : Ppu) : ppu.picture.size = byteCount := by
  simp [picture]

/-- The target has the picture's pixels at their places. -/
theorem getElem?_drawn (ppu : Ppu) (buffer : Array UInt8) {x y k : Nat} (hX : x < width)
    (hY : y < height) (hK : k < 3) :
    (ppu.drawn buffer)[offset x y + k]? = some ((ppu.pixel x y).component k) := by
  simp only [width, height] at hX hY
  have hInside : offset x y + k < byteCount := by
    simp only [offset, byteCount, width, height]
    omega
  -- The number of a byte is read back into its pixel and its component.
  have hPixel : (offset x y + k) / 3 = y * width + x := by
    simp only [offset, width]
    omega
  have hByte : (offset x y + k) % 3 = k := by
    simp only [offset, width]
    omega
  have hColumn : (y * width + x) % width = x := by
    simp only [width]
    omega
  have hRow : (y * width + x) / width = y := by
    simp only [width]
    omega
  rw [drawn, Array.getElem?_append_left (by rw [size_picture]; exact hInside), picture,
    Array.getElem?_ofFn, dif_pos hInside]
  simp only [hPixel, hByte, hColumn, hRow]

section Tile

variable {tx ty row column : Nat} (hRow : row < 8) (hColumn : column < 8)

include hRow hColumn in
theorem tileAt_of_lt : ppu.tileAt (tx * 8 + column) (ty * 8 + row) = ppu.tileAt (tx * 8) (ty * 8) := by
  have hX : (tx * 8 + column) / 8 = tx * 8 / 8 := by omega
  have hY : (ty * 8 + row) / 8 = ty * 8 / 8 := by omega
  rw [tileAt, hX, hY]
  rfl

include hRow hColumn in
theorem paletteAt_of_lt :
    ppu.paletteAt (tx * 8 + column) (ty * 8 + row) = ppu.paletteAt (tx * 8) (ty * 8) := by
  have hX : (tx * 8 + column) / 32 = tx * 8 / 32 := by omega
  have hY : (ty * 8 + row) / 32 = ty * 8 / 32 := by omega
  have hRight : (tx * 8 + column) / 16 % 2 = tx * 8 / 16 % 2 := by omega
  have hBottom : (ty * 8 + row) / 16 % 2 = ty * 8 / 16 % 2 := by omega
  simp only [paletteAt, hX, hY, hRight, hBottom]

include hRow hColumn in
/-- The colour that is drawn is that of the pixel. -/
theorem checkedOfPlanes_pixel {low high : UInt8}
    (hPlanes : ppu.checkedPlanes (ppu.tileAt (tx * 8) (ty * 8)) row = .ok (low, high)) :
    Color.checkedOfPlanes (ppu.paletteAt (tx * 8) (ty * 8)) low high column =
      .ok (ppu.pixel (tx * 8 + column) (ty * 8 + row)) := by
  rw [checkedPlanes_eq _ _ hRow] at hPlanes
  cases hPlanes
  have hX : (tx * 8 + column) % 8 = column := by omega
  have hY : (ty * 8 + row) % 8 = row := by omega
  rw [Color.checkedOfPlanes_eq _ _ _ hColumn, pixel, patternAt, tileAt_of_lt hRow hColumn,
    paletteAt_of_lt hRow hColumn, hX, hY]

end Tile

section Target

variable (hTarget : ∀ x y, x < width → y < height → ∀ k < 3,
  target[offset x y + k]? = some ((ppu.pixel x y).component k))

include hTarget in
/-- Drawing a row of a tile shows its eight pixels. -/
theorem drawRow_draws {tx ty row : Nat} (hTx : tx < 32) (hTy : ty < 30) (hRow : row < 8) :
    Draws target
      (ppu.checkedDrawRow (ppu.tileAt (tx * 8) (ty * 8)) (ppu.paletteAt (tx * 8) (ty * 8)) tx ty row)
      fun buffer => ∀ column < 8, Shows target (tx * 8 + column) (ty * 8 + row) buffer := by
  obtain ⟨low, high, hPlanes⟩ : ∃ low high,
      ppu.checkedPlanes (ppu.tileAt (tx * 8) (ty * 8)) row = .ok (low, high) :=
    ⟨_, _, ppu.checkedPlanes_eq _ hRow⟩
  have hY : ty * 8 + row < height := by
    simp only [height]
    omega
  have hLoop : Draws target
      (Checked.loop 8 fun column buffer => do
        let color ← Color.checkedOfPlanes (ppu.paletteAt (tx * 8) (ty * 8)) low high column
        checkedPlot buffer (tx * 8 + column) (ty * 8 + row) color)
      fun buffer => ∀ column < 8, Shows target (tx * 8 + column) (ty * 8 + row) buffer := by
    refine Draws.loop (fun column => shows_stable _ _) ?_
    intro column hColumn
    have hX : tx * 8 + column < width := by
      simp only [width]
      omega
    -- The loop draws with the planes that were read once before it.
    simp only [checkedOfPlanes_pixel hRow hColumn hPlanes, Checked.ok_bind]
    exact plot_draws hX hY (hTarget _ _ hX hY)
  intro buffer hSize
  obtain ⟨after, hAfter, hDone⟩ := hLoop buffer hSize
  refine ⟨after, ?_, hDone⟩
  rw [checkedDrawRow, hPlanes, Checked.ok_bind]
  exact hAfter

include hTarget in
/-- Drawing a tile shows its eight rows. -/
theorem drawTile_draws {tx ty : Nat} (hTx : tx < 32) (hTy : ty < 30) :
    Draws target
      (ppu.checkedDrawTile ppu.latches.control.nametable.toNat
        (ppu.latches.control.nametable.toNat + 0x3C0) tx ty)
      fun buffer => ∀ row < 8, ∀ column < 8,
        Shows target (tx * 8 + column) (ty * 8 + row) buffer := by
  have hX : tx * 8 < width := by
    simp only [width]
    omega
  have hY : ty * 8 < height := by
    simp only [height]
    omega
  have hTile := ppu.checkedTile_eq hX hY
  rw [Nat.mul_div_cancel tx (by decide), Nat.mul_div_cancel ty (by decide)] at hTile
  have hLoop := Draws.loop (fun row => Stable.all fun column => shows_stable _ _)
    fun row hRow => drawRow_draws hTarget hTx hTy hRow
  intro buffer hSize
  obtain ⟨after, hAfter, hDone⟩ := hLoop buffer hSize
  refine ⟨after, ?_, hDone⟩
  rw [checkedDrawTile, hTile, Checked.ok_bind]
  exact hAfter

end Target

/-- Past the picture the buffer is left alone. -/
theorem getElem?_drawn_of_le (ppu : Ppu) {buffer : Array UInt8} (hSize : byteCount ≤ buffer.size)
    {i : Nat} (h : byteCount ≤ i) : buffer[i]? = (ppu.drawn buffer)[i]? := by
  have hPast : ppu.picture.size ≤ i := by
    rw [size_picture]
    exact h
  rw [drawn, Array.getElem?_append_right hPast, size_picture, Array.getElem?_extract,
    Nat.add_sub_cancel' h]
  by_cases hInside : i < buffer.size
  · rw [if_pos (by omega)]
  · rw [if_neg (by omega)]
    exact Array.getElem?_eq_none (Nat.le_of_not_lt hInside)

/-- Drawing fails no check: a buffer that is large enough gets the picture, and another one is refused. -/
theorem checkedRenderInto_eq (ppu : Ppu) (buffer : Array UInt8) :
    ppu.checkedRenderInto buffer = .ok (ppu.renderInto buffer) := by
  by_cases hSmall : buffer.size < byteCount
  · rw [checkedRenderInto, if_pos hSmall, renderInto, if_pos hSmall]
    rfl
  · have hSize : byteCount ≤ buffer.size := Nat.le_of_not_lt hSmall
    have hTarget : ∀ x y, x < width → y < height → ∀ k < 3,
        (ppu.drawn buffer)[offset x y + k]? = some ((ppu.pixel x y).component k) :=
      fun _ _ hX hY _ hK => ppu.getElem?_drawn buffer hX hY hK
    have hDraws := Draws.loop
      (fun ty => Stable.all fun tx => Stable.all fun row => Stable.all fun column => shows_stable _ _)
      fun ty hTy => Draws.loop
        (fun tx => Stable.all fun row => Stable.all fun column => shows_stable _ _)
        fun tx hTx => drawTile_draws hTarget hTx hTy
    obtain ⟨after, hAfter, hImproves, hShows⟩ := hDraws buffer hSize
    -- Inside the picture every byte is shown, and past it none has changed.
    have hEq : after = ppu.drawn buffer := by
      refine Array.ext_getElem? fun i => ?_
      by_cases hPicture : i < byteCount
      · obtain ⟨x, y, k, hX, hY, hK, rfl⟩ := exists_offset hPicture
        exact shows_of_tiles hShows hX hY k hK
      · exact hImproves.keeps i (ppu.getElem?_drawn_of_le hSize (Nat.le_of_not_lt hPicture))
    have hNametable := ppu.nametable_toNat
    have hAttributes := Checked.fit_word_eq_ok
      (n := ppu.latches.control.nametable.toNat + 0x3C0) (by omega)
    rw [checkedRenderInto, if_neg hSmall, checkedNametable_eq, Checked.ok_bind, hAttributes,
      Checked.ok_bind, hAfter, Checked.ok_bind, renderInto,
      if_neg hSmall, hEq]
    rfl

end Ppu

end NesMachine
