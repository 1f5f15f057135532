import NesMachine.Proofs.AddressSpace.Constructors

/-!
# What a write changes

A write and a read of one address come to the same place, and a write changes one cell or makes one
access to the device, never both.

* `Layout.Resolves.cell_mem`, `Layout.Resolves.device_mem`: the place lies in the window that serves it.
* `AddressSpace.readVia_set_of_resolves`, `AddressSpace.readVia_set_of_not_resolves`: which addresses see
  a changed cell.
* `AddressSpace.write_reaches_one_place`: all that a write can do.
-/

namespace NesMachine

namespace Layout

variable {layout : Layout} {address : Nat} {window : Window}

/-- A walk that ends at storage ends in a block of the layout, at a cell of its window. -/
theorem Serves.cell_mem {cell : Nat} (h : layout.Serves address window (.cell cell)) :
    window ∈ layout.blocks ∧ cell ∈ window := by
  cases h with
  | cell hArrives =>
    have hLeaf : window ∈ (Layout.block window).blocks := List.mem_singleton.mpr rfl
    exact ⟨hArrives.mem_blocks hLeaf, hArrives.node_covers⟩

/-- A walk that ends at a device hands it an address of the window of its own. -/
theorem Serves.device_mem {folded : Nat} (h : layout.Serves address window (.device folded)) :
    folded ∈ window := by
  cases h with
  | device hArrives => exact hArrives.node_covers

/-- An access is served by a block of the layout, redirected or not. -/
theorem Resolves.cell_mem {cell : Nat} (h : layout.Resolves address window (.cell cell)) :
    window ∈ layout.blocks ∧ cell ∈ window := by
  cases h with
  | direct hServes => exact hServes.cell_mem
  | redirected _ hServes => exact hServes.cell_mem

/-- A redirected access, too, hands a device an address of its own window. -/
theorem Resolves.device_mem {folded : Nat} (h : layout.Resolves address window (.device folded)) :
    folded ∈ window := by
  cases h with
  | direct hServes => exact hServes.device_mem
  | redirected _ hServes => exact hServes.device_mem

/-- The cell alone tells which block serves an access. -/
theorem Resolves.of_locate_eq (hWellFormed : layout.WellFormed) {cell : Nat}
    (hMem : window ∈ layout.blocks) (hCell : cell ∈ window)
    (hLocate : layout.locate address = .ok (.cell cell)) :
    layout.Resolves address window (.cell cell) := by
  rcases (locate_eq_ok_iff hWellFormed).mp hLocate with ⟨other, hResolves⟩
  rcases hResolves.cell_mem with ⟨hOther, hIn⟩
  have hSame := hWellFormed.block_unique hMem hOther hCell hIn
  rw [hSame]
  exact hResolves

end Layout

namespace AddressSpace

theorem lt_of_mem_window {window : Window} {cell : Nat} (h : cell ∈ window) : cell < busEnd := by
  have hIn : window.start ≤ cell ∧ cell < window.stop := h
  exact Nat.lt_of_lt_of_le hIn.2 window.stop_le_busEnd

section Write

variable {δ : Type} [Device δ] {space : AddressSpace} {window : Window} {cell : Nat}

/-- Every address that resolves to a changed cell sees the change. -/
theorem readVia_set_of_resolves (hWellFormed : space.layout.WellFormed) {other : UInt16}
    (h : space.layout.Resolves other.toNat window (.cell cell)) (value : UInt8) (device : δ) :
    ({ space with cells := space.cells.set cell value } : AddressSpace).readVia other device =
      .ok (value, device) := by
  have hLocate : ({ space with cells := space.cells.set cell value } : AddressSpace).locate other =
      .ok (.cell cell) := h.locate_eq hWellFormed
  rw [readVia_of_cell hLocate, Ram.get_set, if_pos rfl]

/-- No other address does. -/
theorem readVia_set_of_not_resolves (hWellFormed : space.layout.WellFormed)
    (hMem : window ∈ space.layout.blocks) (hCell : cell ∈ window) {other : UInt16}
    (h : ¬space.layout.Resolves other.toNat window (.cell cell)) (value : UInt8) (device : δ) :
    ({ space with cells := space.cells.set cell value } : AddressSpace).readVia other device =
      space.readVia other device := by
  have hSame : ({ space with cells := space.cells.set cell value } : AddressSpace).locate other =
      space.locate other := rfl
  cases hPlace : space.locate other with
  | error fault =>
    rw [readVia_eq_error_iff.mpr hPlace, readVia_eq_error_iff.mpr (hSame.trans hPlace)]
  | ok place =>
    cases place with
    | device folded => rw [readVia_of_device hPlace, readVia_of_device (hSame.trans hPlace)]
    | cell seen =>
      rcases (Layout.locate_eq_ok_iff hWellFormed).mp hPlace with ⟨served, hResolves⟩
      have hModCell : cell % 2 ^ 16 = cell := Nat.mod_eq_of_lt (lt_of_mem_window hCell)
      have hModSeen : seen % 2 ^ 16 = seen :=
        Nat.mod_eq_of_lt (lt_of_mem_window hResolves.cell_mem.2)
      -- One cell stands behind one block only, so another place is another cell.
      have hNe : ¬cell = seen := by
        rintro rfl
        exact h (Layout.Resolves.of_locate_eq hWellFormed hMem hCell hPlace)
      rw [readVia_of_cell hPlace, readVia_of_cell (hSame.trans hPlace), Ram.get_set,
        hModCell, hModSeen, if_neg hNe]

/-- A byte that cannot be written stops a load before anything is changed. -/
theorem load_of_writeVia_error {address : UInt16} {value : UInt8} {device : δ} {fault : Fault}
    (h : space.writeVia address value device = .error fault) (rest : List UInt8) :
    space.load address (value :: rest) = (space, some fault) := by
  have hWrite : space.write address value = .error fault := by
    rw [write, writeVia_eq_error_iff.mp h]
    rfl
  rw [load, hWrite]

end Write

/-- **A write reaches one place.** It goes where a read of the address goes. At a cell it changes what
the addresses of this cell read, and nothing else; at a device it is one access, at an address of the
device's own window, and changes no byte; and it fails exactly as a read does, with all bytes kept.

Reads and writes look an address up by the same `locate` and part only at the place it gives, so what is
proved of the way there is about `locate` on the tree. A write that fails gives no space at all; that all
bytes are kept is what `load` makes of it, which goes on with the space it had. -/
theorem write_reaches_one_place {space : AddressSpace} (hBuilt : space.Built) {δ : Type} [Device δ]
    (device : δ) (address : UInt16) (value : UInt8) :
    ((∃ window place, space.layout.Resolves address.toNat window place) ∨
      ∃ fault, space.layout.Fails address.toNat fault) ∧
    (∀ window cell, space.layout.Resolves address.toNat window (.cell cell) →
      window ∈ space.layout.blocks ∧ cell ∈ window ∧
      ∃ written, space.writeVia address value device = .ok (written, device) ∧
        written.layout = space.layout ∧
        (∀ other (seer : δ), space.layout.Resolves other.toNat window (.cell cell) →
          written.readVia other seer = .ok (value, seer)) ∧
        (∀ other (seer : δ), ¬space.layout.Resolves other.toNat window (.cell cell) →
          written.readVia other seer = space.readVia other seer)) ∧
    (∀ window folded, space.layout.Resolves address.toNat window (.device folded) →
      folded ∈ window ∧ (UInt16.ofNat folded).toNat = folded ∧
      space.writeVia address value device =
        .ok (space, Device.write device (UInt16.ofNat folded) value) ∧
      ∀ seer : δ, space.readVia address seer =
        .ok (Device.read seer (UInt16.ofNat folded))) ∧
    (∀ fault, (space.writeVia address value device = .error fault ↔
        space.readVia address device = .error fault) ∧
      (space.writeVia address value device = .error fault →
        ∀ rest, space.load address (value :: rest) = (space, some fault))) := by
  have hWellFormed := hBuilt.wellFormed
  refine ⟨hWellFormed.resolves_or_fails _, ?_, ?_, ?_⟩
  · -- A cell.
    intro window cell hResolves
    rcases hResolves.cell_mem with ⟨hMem, hCell⟩
    refine ⟨hMem, hCell, { space with cells := space.cells.set cell value }, ?_, rfl, ?_, ?_⟩
    · exact writeVia_of_cell (hResolves.locate_eq hWellFormed) value device
    · intro other seer hOther
      exact readVia_set_of_resolves hWellFormed hOther value seer
    · intro other seer hOther
      exact readVia_set_of_not_resolves hWellFormed hMem hCell hOther value seer
  · -- A device.
    intro window folded hResolves
    have hFolded := hResolves.device_mem
    have hLocate : space.locate address = .ok (.device folded) :=
      hResolves.locate_eq hWellFormed
    refine ⟨hFolded, ?_, writeVia_of_device hLocate value device, readVia_of_device hLocate⟩
    rw [UInt16.toNat_ofNat']
    exact Nat.mod_eq_of_lt (lt_of_mem_window hFolded)
  · -- A fault.
    intro fault
    constructor
    · rw [writeVia_eq_error_iff, readVia_eq_error_iff]
    · intro hFails rest
      exact load_of_writeVia_error hFails rest

/-- A byte that is written to one repeat of a block is read in another one. -/
theorem write_reaches_all_repeats :
    ∃ base space, block 0 0x800 = .ok base ∧ repeated base 4 = .ok space ∧
      ∀ (δ : Type) [Device δ] (device : δ), ∃ written,
        space.writeVia 0x801 7 device = .ok (written, device) ∧
        written.readVia 0x1801 device = .ok (7, device) := by
  have hBase : block 0 0x800 = .ok (ofLayout (.block ⟨0, 0x800, by decide, by decide⟩)) := rfl
  have hSpace : repeated (ofLayout (.block ⟨0, 0x800, by decide, by decide⟩)) 4 =
      .ok (ofLayout (.repeated (.block ⟨0, 0x800, by decide, by decide⟩) 4)) := rfl
  refine ⟨_, _, hBase, hSpace, ?_⟩
  intro δ _ device
  -- Both addresses fold to `$0001`, so they share a cell.
  have hLow : (Layout.repeated (.block ⟨0, 0x800, by decide, by decide⟩) 4).Resolves
      (0x801 : UInt16).toNat ⟨0, 0x800, by decide, by decide⟩ (.cell 1) :=
    .direct (.cell (.repeated ⟨by decide, by decide⟩ (by decide) (.block ⟨by decide, by decide⟩)))
  have hHigh : (Layout.repeated (.block ⟨0, 0x800, by decide, by decide⟩) 4).Resolves
      (0x1801 : UInt16).toNat ⟨0, 0x800, by decide, by decide⟩ (.cell 1) :=
    .direct (.cell (.repeated ⟨by decide, by decide⟩ (by decide) (.block ⟨by decide, by decide⟩)))
  obtain ⟨-, hCell, -, -⟩ :=
    write_reaches_one_place (.repeated (.block hBase) hSpace) device 0x801 7
  rcases hCell _ 1 hLow with ⟨-, -, written, hWrite, -, hSeen, -⟩
  exact ⟨written, hWrite, hSeen 0x1801 device hHigh⟩

end AddressSpace

end NesMachine
