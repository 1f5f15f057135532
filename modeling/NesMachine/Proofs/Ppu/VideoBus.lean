import Mathlib.Tactic.SplitIfs
import NesMachine.Proofs.AddressSpace.Constructors
import NesMachine.Proofs.Ppu.VideoMemory

/-!
# The map of the video bus

The video bus is put together from windows: the patterns, four nametables, a redirection and the palette,
the whole repeated four times. This module builds the tree with the constructors that check it, and says
what the tree makes of an address: addresses that fold to the same one share a byte, and others do not.

* `Vram.build_eq`: the windows are accepted, and the tree is the layout that the picture unit uses.
* `Vram.canonical`: the address that stands for all those with the same byte.
* `Vram.video_bus_implements_map`: reads and writes at any addresses, after any writes.
-/

namespace NesMachine.Vram

/-! ## Construction -/

/-- The nametable from `start` on: tile numbers, then attributes. -/
def buildNametable (start : Nat) : Except LayoutError AddressSpace := do
  let tiles ← AddressSpace.block start 0x3C0
  let attributes ← AddressSpace.block (start + 0x3C0) 0x40
  AddressSpace.composite [tiles, attributes]

def build : Except LayoutError AddressSpace := do
  let patterns ← AddressSpace.block 0x0000 0x2000
  let nametables ← (List.range 4).mapM fun index => buildNametable (0x2000 + index * 0x400)
  let shown ← AddressSpace.redirect 0x2000 0x3000 0xF00
  let colours ← AddressSpace.block 0x3F00 0x20
  let palette ← AddressSpace.repeated colours 8
  let page ← AddressSpace.composite (patterns :: nametables ++ [shown, palette])
  AddressSpace.repeated page 4

def space (cells : Ram 16) : AddressSpace :=
  { layout, cells }

theorem buildNametable_eq (start : Nat) (fits : start + 0x400 ≤ busEnd) :
    buildNametable start = .ok (.ofLayout (nametable start fits)) := by
  let tiles : Layout := .block ⟨start, start + 0x3C0, by omega, by omega⟩
  let attributes : Layout := .block ⟨start + 0x3C0, start + 0x400, by omega, fits⟩
  have hTiles : AddressSpace.block start 0x3C0 = .ok (.ofLayout tiles) :=
    AddressSpace.block_eq_ok rfl rfl
  have hAttributes : AddressSpace.block (start + 0x3C0) 0x40 = .ok (.ofLayout attributes) :=
    AddressSpace.block_eq_ok rfl rfl
  have hParts : Layout.ofParts [tiles, attributes] = .ok (nametable start fits) := by
    refine (Layout.ofParts_eq_ok_iff ?_).mpr ⟨_, _, rfl, List.isChain_pair.mpr rfl, rfl⟩
    intro part hMem
    rcases List.mem_pair.mp hMem with rfl | rfl
    · trivial
    · trivial
  have hJoined := AddressSpace.composite_eq_ok hParts
  exact bind_eq_ok_iff.mpr ⟨_, hTiles, bind_eq_ok_iff.mpr ⟨_, hAttributes, hJoined⟩⟩

/-- Every window is accepted, and together they are the layout of the video bus, cleared. -/
theorem build_eq : build = .ok (space (Ram.zero 16)) := by
  let patterns : Layout := .block { start := 0x0000, stop := 0x2000 }
  let nametables : List Layout :=
    [nametable 0x2000, nametable 0x2400, nametable 0x2800, nametable 0x2C00]
  let shown : Layout := .redirect { start := 0x3000, stop := 0x3F00 } 0x2000
  let colours : Layout := .block { start := 0x3F00, stop := 0x3F20 }
  let palette : Layout := .repeated colours 8
  let page : Layout := .composite (Layout.tile patterns (nametables ++ [shown, palette]))
  have hPatterns : AddressSpace.block 0x0000 0x2000 = .ok (.ofLayout patterns) :=
    AddressSpace.block_eq_ok rfl rfl
  have hNametables : (List.range 4).mapM (fun index => buildNametable (0x2000 + index * 0x400)) =
      .ok (nametables.map .ofLayout) := by
    have hRange : List.range 4 = [0, 1, 2, 3] := rfl
    simp only [hRange, List.mapM_cons, List.mapM_nil]
    rw [buildNametable_eq _ (by decide), buildNametable_eq _ (by decide),
      buildNametable_eq _ (by decide), buildNametable_eq _ (by decide)]
    rfl
  have hShown : AddressSpace.redirect 0x2000 0x3000 0xF00 = .ok (.ofLayout shown) := rfl
  have hColours : AddressSpace.block 0x3F00 0x20 = .ok (.ofLayout colours) :=
    AddressSpace.block_eq_ok rfl rfl
  -- What the checks of the outer constructors compare are closed numbers.
  have hEight : Layout.ofRepeated colours 8 = .ok palette := by decide
  have hParts : Layout.ofParts (patterns :: nametables ++ [shown, palette]) = .ok page := by decide
  have hFour : Layout.ofRepeated page 4 = .ok layout := by decide
  have hPalette := AddressSpace.repeated_eq_ok hEight
  have hPage := AddressSpace.composite_eq_ok hParts
  simp only [List.map_append, List.map_cons, List.map_nil] at hPage
  have hWhole : AddressSpace.repeated (.ofLayout page) 4 = .ok (space (Ram.zero 16)) :=
    AddressSpace.repeated_eq_ok hFour
  exact bind_eq_ok_iff.mpr ⟨_, hPatterns, bind_eq_ok_iff.mpr ⟨_, hNametables,
    bind_eq_ok_iff.mpr ⟨_, hShown, bind_eq_ok_iff.mpr ⟨_, hColours,
      bind_eq_ok_iff.mpr ⟨_, hPalette, bind_eq_ok_iff.mpr ⟨_, hPage, hWhole⟩⟩⟩⟩⟩⟩

/-! ## Canonical addresses -/

/-- The address that stands for all those with the same byte. -/
def canonical (address : UInt16) : UInt16 :=
  let folded := address % 0x4000
  if folded < 0x3000 then folded
  else if folded < 0x3F00 then folded - 0x1000
  else 0x3F00 + folded % 32

/-- A byte is stored in the cell of its canonical address. -/
theorem toNat_canonical (address : UInt16) : (canonical address).toNat = cell address := by
  have hFolded : (address % 0x4000).toNat = address.toNat % 0x4000 := UInt16.toNat_mod ..
  have hDirect : address % 0x4000 < 0x3000 ↔ address.toNat % 0x4000 < 0x3000 := by
    rw [UInt16.lt_iff_toNat_lt, hFolded]
    rfl
  have hShown : address % 0x4000 < 0x3F00 ↔ address.toNat % 0x4000 < 0x3F00 := by
    rw [UInt16.lt_iff_toNat_lt, hFolded]
    rfl
  simp only [canonical, cell, hDirect, hShown]
  -- Below the mirror of the nametables, in it, and in the colours.
  split_ifs with hBelow hNames
  · exact hFolded
  · have hLe : (0x1000 : UInt16) ≤ address % 0x4000 := by
      rw [UInt16.le_iff_toNat_le, hFolded]
      exact Nat.le_trans (by decide) (Nat.le_of_not_lt hBelow)
    rw [UInt16.toNat_sub_of_le _ _ hLe, hFolded]
    rfl
  · have hColour : (address % 0x4000 % 32).toNat = address.toNat % 0x4000 % 32 := by
      rw [UInt16.toNat_mod, hFolded]
      rfl
    have hLt : address.toNat % 0x4000 % 32 < 32 := Nat.mod_lt _ (by decide)
    rw [UInt16.toNat_add, hColour]
    exact Nat.mod_eq_of_lt (by simp; omega)

example : [0x2FFF, 0x3EFF, 0x3F00, 0xFFFF].map canonical = [0x2FFF, 0x2EFF, 0x3F00, 0x3F1F] := by
  decide

/-- An address and its canonical one share a cell. -/
theorem cell_canonical (address : UInt16) : cell (canonical address) = cell address := by
  have hBound : address.toNat % 0x4000 < 0x4000 := Nat.mod_lt _ (by decide)
  have hCell := toNat_canonical address
  simp only [cell] at hCell ⊢
  rw [hCell]
  split_ifs <;> omega

/-- There is one canonical address for each cell. -/
theorem canonical_eq_iff (a b : UInt16) : canonical a = canonical b ↔ cell a = cell b := by
  rw [← toNat_canonical, ← toNat_canonical, UInt16.toNat_inj]

/-! ## Accesses -/

section Access

variable (cells : Ram 16) (address : UInt16) (value : UInt8)

theorem locate_space : (space cells).locate address = .ok (.cell (cell address)) :=
  locate_layout address

theorem read_space : (space cells).read address = .ok (read cells address) := by
  rw [AddressSpace.read, locate_space]
  rfl

/-- A write through the tree is a write to the flat storage. -/
theorem write_space : (space cells).write address value = .ok (space (write cells address value)) := by
  rw [AddressSpace.write, locate_space]
  rfl

theorem read_canonical : read cells (canonical address) = read cells address := by
  rw [read, read, cell_canonical]

def writeAll (cells : Ram 16) (writes : List (UInt16 × UInt8)) : Ram 16 :=
  writes.foldl (fun cells entry => write cells entry.1 entry.2) cells

/-- Writes elsewhere leave a byte. -/
theorem read_writeAll_of_outside {writes : List (UInt16 × UInt8)}
    (h : ∀ entry ∈ writes, cell entry.1 ≠ cell address) :
    read (writeAll cells writes) address = read cells address := by
  induction writes generalizing cells with
  | nil => rfl
  | cons first rest ih =>
    have hRest := ih (write cells first.1 first.2) fun entry hMem => h entry (List.mem_cons_of_mem first hMem)
    have hFirst := read_write cells first.1 address first.2
    rw [if_neg (h first List.mem_cons_self)] at hFirst
    exact hRest.trans hFirst

/-- A byte that is written is found again, if no other one is written to its cell. -/
theorem read_writeAll_of_mem {writes : List (UInt16 × UInt8)}
    (hApart : writes.Pairwise fun entry other => cell entry.1 ≠ cell other.1)
    {entry : UInt16 × UInt8} (h : entry ∈ writes) :
    read (writeAll cells writes) entry.1 = entry.2 := by
  induction writes generalizing cells with
  | nil => cases h
  | cons first rest ih =>
    obtain ⟨hFirst, hRest⟩ := List.pairwise_cons.mp hApart
    rcases List.mem_cons.mp h with rfl | hMem
    · have hLater := read_writeAll_of_outside (write cells entry.1 entry.2) entry.1
        fun other hOther => (hFirst other hOther).symm
      have hWritten := read_write cells entry.1 entry.1 entry.2
      rw [if_pos rfl] at hWritten
      exact hLater.trans hWritten
    · exact ih (write cells first.1 first.2) hRest hMem

/-- Writes to the tree are writes to video memory. -/
theorem foldlM_write_space (writes : List (UInt16 × UInt8)) :
    writes.foldlM (fun tree entry => tree.write entry.1 entry.2) (space cells) =
      .ok (space (writeAll cells writes)) := by
  induction writes generalizing cells with
  | nil => rfl
  | cons first rest ih =>
    rw [List.foldlM_cons, write_space]
    exact ih (write cells first.1 first.2)

end Access

/-- **The video bus implements its map.** The tree is built, and any writes to it succeed and store what
they store in video memory. From then on no access fails or reaches a device, at any address; an address
reads as its canonical address does; and a write shows at the addresses with the same canonical address
and nowhere else. -/
theorem video_bus_implements_map (writes : List (UInt16 × UInt8)) :
    ∃ built tree, build = .ok built ∧
      writes.foldlM (fun tree entry => tree.write entry.1 entry.2) built = .ok tree ∧
      tree = space (writeAll (Ram.zero 16) writes) ∧
      (∀ (δ : Type) [Device δ] (device : δ) (a : UInt16) (value : UInt8),
        tree.readVia a device = .ok (read tree.cells a, device) ∧
        tree.writeVia a value device = .ok (space (write tree.cells a value), device)) ∧
      (∀ a : UInt16, ∃ byte, tree.read a = .ok byte ∧ tree.read (canonical a) = .ok byte) ∧
      ∀ (a b : UInt16) (value : UInt8), ∃ written, tree.write a value = .ok written ∧
        written.read b = if canonical b = canonical a then .ok value else tree.read b := by
  refine ⟨_, _, build_eq, foldlM_write_space _ writes, rfl, ?_, ?_, ?_⟩
  · -- The writes leave a tree of the same shape, so its places are those of the built one.
    intro δ _ device a value
    have hPlace := locate_space (writeAll (Ram.zero 16) writes) a
    exact ⟨AddressSpace.readVia_of_cell hPlace device,
      AddressSpace.writeVia_of_cell hPlace value device⟩
  · intro a
    refine ⟨_, read_space _ a, ?_⟩
    rw [read_space, read_canonical]
  · intro a b value
    refine ⟨_, write_space _ a value, ?_⟩
    have hCells : canonical b = canonical a ↔ cell a = cell b := by
      rw [canonical_eq_iff, eq_comm]
    rw [read_space, read_space, read_write]
    by_cases hSame : cell a = cell b
    · rw [if_pos hSame, if_pos (hCells.mpr hSame)]
    · rw [if_neg hSame, if_neg (mt hCells.mp hSame)]

end NesMachine.Vram
