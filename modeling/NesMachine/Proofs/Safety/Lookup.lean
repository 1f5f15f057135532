import NesMachine.Console.MainMemory
import NesMachine.Ppu.Basic
import NesMachine.Proofs.AddressSpace.Walk
import NesMachine.Proofs.Safety.Checked

/-!
# Checked look-up

`Layout.walk` trusts the layout. `Layout.checkedWalk` does not: every node checks that the access is in
its window, a block checks its index, a row checks that a part was found, and folded addresses are cut
to the width of the bus.

* `Layout.WellFormed.checkedWalk_eq`: in a well-formed layout no check of a walk fails, and the walk is
  that of `Layout.walk`.
* `Layout.WellFormed.checkedLocate_eq`: nor does one fail when an access is redirected.
* `AddressSpace.checkedRead_eq`, `AddressSpace.checkedWrite_eq`: plain accesses to storage.
* `MainMemory.layout_wellFormed`, `Vram.layout_wellFormed`: the two layouts of the machine.
-/

namespace NesMachine

/-! ## Walks -/

def Layout.checkCovers (layout : Layout) (address : Nat) : Checked Unit :=
  if layout.start ≤ address ∧ address < layout.stop then .ok ()
  else .error (.fault (.outside address layout.start layout.stop))

mutual

def Layout.checkedWalk (address : Nat) : Layout → Checked Landing
  | .block window => do
    (Layout.block window).checkCovers address
    let offset ← Checked.sub address window.start
    Checked.index offset window.length
    return .place (.cell address)
  | .composite parts => do
    (Layout.composite parts).checkCovers address
    parts.checkedWalk address 0
  | .repeated base times => do
    (Layout.repeated base times).checkCovers address
    let offset ← Checked.sub address base.start
    let length ← Checked.sub base.stop base.start
    let folded ← Checked.mod offset length
    let sum ← Checked.fit UInt32.size (base.start + folded)
    base.checkedWalk (sum % busEnd)
  | .redirect window target => do
    (Layout.redirect window target).checkCovers address
    let offset ← Checked.sub address window.start
    let sum ← Checked.fit UInt32.size (target + offset)
    return .redirect (sum % busEnd)
  | .device window => do
    (Layout.device window).checkCovers address
    return .place (.device address)

/-- Walks down into the first part that stops past the address, after `passed` parts that do not. Past
the last part there is none. -/
def Tiling.checkedWalk (address passed : Nat) : Tiling → Checked Landing
  | .last part =>
    if address < part.stop then part.checkedWalk address
    else .error (.outOfBounds (passed + 1) (passed + 1))
  | .cons part rest =>
    if address < part.stop then part.checkedWalk address
    else rest.checkedWalk address (passed + 1)

end

theorem Layout.checkCovers_eq_ok {layout : Layout} {address : Nat} (h : layout.Covers address) :
    layout.checkCovers address = .ok () :=
  if_pos h

open Checked in
mutual

/-- No check of a walk through a well-formed layout fails. -/
theorem Layout.WellFormed.checkedWalk_eq : ∀ {layout : Layout}, layout.WellFormed →
    ∀ {address : Nat}, layout.Covers address →
      layout.checkedWalk address = .ok (layout.walk address)
  | .block window, _, address, hCovers => by
    have hIn : window.start ≤ address ∧ address < window.stop := hCovers
    have hIndex : address - window.start < window.length := by
      simp only [Window.length]
      omega
    simp only [Layout.checkedWalk, Layout.checkCovers_eq_ok hCovers, sub_eq_ok hIn.1,
      index_eq_ok hIndex, ok_bind, pure_eq_ok, Layout.walk]
  | .composite parts, h, address, hCovers => by
    have hParts : parts.WellFormed := h
    have hRow := hParts.checkedWalk_eq 0 hCovers.1 hCovers.2
    simp only [Layout.checkedWalk, Layout.checkCovers_eq_ok hCovers, ok_bind, hRow, Layout.walk]
  | .repeated base times, h, address, hCovers => by
    have hStart : base.start ≤ address := hCovers.1
    have hBase := h.1.start_lt_stop
    have hFold := Layout.covers_fold h.1 address
    have hEnd := h.1.stop_le_busEnd
    -- The folded address is one of the base, so that neither width cuts it.
    have hOnBus : base.start + (address - base.start) % (base.stop - base.start) < busEnd :=
      Nat.lt_of_lt_of_le hFold.2 hEnd
    have hFits : base.start + (address - base.start) % (base.stop - base.start) < UInt32.size :=
      Nat.lt_trans hOnBus (by decide)
    simp only [Layout.checkedWalk, Layout.checkCovers_eq_ok hCovers, sub_eq_ok hStart,
      sub_eq_ok (Nat.le_of_lt hBase), mod_eq_ok (Nat.sub_pos_of_lt hBase), fit_eq_ok hFits, ok_bind,
      Nat.mod_eq_of_lt hOnBus, Layout.walk]
    exact Layout.WellFormed.checkedWalk_eq h.1 hFold
  | .redirect window target, h, address, hCovers => by
    have hIn : window.start ≤ address ∧ address < window.stop := hCovers
    have hTarget : target + window.length ≤ busEnd := h.1
    have hOnBus : target + (address - window.start) < busEnd := by
      simp only [Window.length] at hTarget
      omega
    have hFits : target + (address - window.start) < UInt32.size := Nat.lt_trans hOnBus (by decide)
    simp only [Layout.checkedWalk, Layout.checkCovers_eq_ok hCovers, sub_eq_ok hIn.1,
      fit_eq_ok hFits, ok_bind, pure_eq_ok, Nat.mod_eq_of_lt hOnBus, Layout.walk]
  | .device window, _, address, hCovers => by
    simp only [Layout.checkedWalk, Layout.checkCovers_eq_ok hCovers, ok_bind, pure_eq_ok, Layout.walk]

/-- Nor does one of a walk through a row. -/
theorem Tiling.WellFormed.checkedWalk_eq : ∀ {parts : Tiling}, parts.WellFormed →
    ∀ {address : Nat} (passed : Nat), parts.start ≤ address → address < parts.stop →
      parts.checkedWalk address passed = .ok (parts.walk address)
  | .last part, h, address, passed, hStart, hStop => by
    have hPart : address < part.stop := hStop
    rw [Tiling.checkedWalk, if_pos hPart, Tiling.walk]
    exact Layout.WellFormed.checkedWalk_eq h ⟨hStart, hPart⟩
  | .cons part rest, h, address, passed, hStart, hStop => by
    rw [Tiling.checkedWalk, Tiling.walk]
    by_cases hHere : address < part.stop
    · rw [if_pos hHere, if_pos hHere]
      exact Layout.WellFormed.checkedWalk_eq h.1 ⟨hStart, hHere⟩
    · -- The rest starts where this part stops.
      have hMeet : part.stop = rest.start := h.2.1
      rw [if_neg hHere, if_neg hHere]
      exact Tiling.WellFormed.checkedWalk_eq h.2.2 (passed + 1)
        (hMeet ▸ Nat.le_of_not_lt hHere) hStop

end

/-! ## Redirected accesses -/

namespace Layout

def checkedLocate (layout : Layout) (address : Nat) : Checked Place := do
  match ← layout.checkedWalk address with
  | .place place => return place
  | .redirect next =>
    match ← layout.checkedWalk next with
    | .place place => return place
    | .redirect _ => throw (.fault (.chainedRedirect address next))

/-- What lands was covered. -/
theorem covers_of_land {layout : Layout} {address : Nat} {landing : Landing}
    (h : layout.land address = .ok landing) :
    layout.Covers address ∧ layout.walk address = landing := by
  by_cases hCovers : layout.Covers address
  · rw [land_of_covers hCovers] at h
    cases h
    exact ⟨hCovers, rfl⟩
  · rw [land_of_not_covers hCovers] at h
    cases h

/-- A walk that lands fails no check on its way. -/
theorem WellFormed.checkedWalk_of_land {layout : Layout} (hWellFormed : layout.WellFormed)
    {address : Nat} {landing : Landing} (h : layout.land address = .ok landing) :
    layout.checkedWalk address = .ok landing := by
  obtain ⟨hCovers, hWalk⟩ := covers_of_land h
  rw [hWellFormed.checkedWalk_eq hCovers, hWalk]

/-- An access that has a place reaches it with no check failing. -/
theorem WellFormed.checkedLocate_eq {layout : Layout} (hWellFormed : layout.WellFormed)
    {address : Nat} {place : Place} (h : layout.locate address = .ok place) :
    layout.checkedLocate address = .ok place := by
  cases hLand : layout.land address with
  | error fault =>
    rw [locate, hLand] at h
    cases h
  | ok landing =>
    rw [checkedLocate, hWellFormed.checkedWalk_of_land hLand, Checked.ok_bind]
    -- The walk ends at a place or at one redirection, which is followed once.
    cases landing with
    | place other =>
      rw [locate_of_place hLand] at h
      cases h
      rfl
    | redirect next =>
      cases hNext : layout.land next with
      | error fault =>
        simp only [locate, hLand, hNext] at h
        cases h
      | ok again =>
        simp only [hWellFormed.checkedWalk_of_land hNext, Checked.ok_bind]
        cases again with
        | place other =>
          rw [locate_of_redirect hLand hNext] at h
          cases h
          rfl
        | redirect further =>
          simp only [locate, hLand, hNext] at h
          cases h

end Layout

/-! ## Plain accesses -/

namespace AddressSpace

def checkedRead (space : AddressSpace) (address : UInt16) : Checked UInt8 := do
  match ← space.layout.checkedLocate address.toNat with
  | .cell cell => return space.cells.get cell
  | .device folded => throw (.fault (.detachedRead folded))

def checkedWrite (space : AddressSpace) (address : UInt16) (value : UInt8) :
    Checked AddressSpace := do
  match ← space.layout.checkedLocate address.toNat with
  | .cell cell => return { space with cells := space.cells.set cell value }
  | .device folded => throw (.fault (.detachedWrite folded))

variable {space : AddressSpace} {address : UInt16}

/-- A plain access to a well-formed space passes its checks when it is served at all. -/
theorem checkedRead_eq (hWellFormed : space.layout.WellFormed) {value : UInt8}
    (h : space.read address = .ok value) : space.checkedRead address = .ok value := by
  obtain ⟨place, hLocate, hPlace⟩ := bind_eq_ok_iff.mp h
  rw [checkedRead, hWellFormed.checkedLocate_eq hLocate, Checked.ok_bind]
  cases place with
  | cell cell =>
    cases hPlace
    rfl
  | device folded => cases hPlace

/-- A write that is served fails no check. -/
theorem checkedWrite_eq (hWellFormed : space.layout.WellFormed) {value : UInt8}
    {written : AddressSpace} (h : space.write address value = .ok written) :
    space.checkedWrite address value = .ok written := by
  obtain ⟨place, hLocate, hPlace⟩ := bind_eq_ok_iff.mp h
  rw [checkedWrite, hWellFormed.checkedLocate_eq hLocate, Checked.ok_bind]
  cases place with
  | cell cell =>
    cases hPlace
    rfl
  | device folded => cases hPlace

end AddressSpace

/-! ## The layouts of the machine -/

theorem MainMemory.layout_wellFormed : MainMemory.layout.WellFormed := by
  simp only [MainMemory.layout, Layout.WellFormed, Tiling.WellFormed]
  decide

theorem Vram.layout_wellFormed : Vram.layout.WellFormed := by
  simp only [Vram.layout, Vram.nametable, Layout.WellFormed, Tiling.WellFormed]
  decide

/-- Every address of the processor's bus has its place. -/
theorem MainMemory.checkedLocate_layout (address : UInt16) :
    MainMemory.layout.checkedLocate address.toNat = .ok (MainMemory.place address) :=
  MainMemory.layout_wellFormed.checkedLocate_eq (MainMemory.locate_layout address)

/-- A plain read outside the registers meets no device. -/
theorem MainMemory.checkedRead_space (memory : MainMemory) {address : UInt16}
    {value : UInt8} (h : memory.space.read address = .ok value) :
    memory.space.checkedRead address = .ok value :=
  AddressSpace.checkedRead_eq MainMemory.layout_wellFormed h

theorem Ppu.checkedRead_memory (ppu : Ppu) (address : UInt16) :
    ppu.memory.checkedRead address = .ok (Vram.read ppu.vram address) :=
  AddressSpace.checkedRead_eq Vram.layout_wellFormed (ppu.read_memory address)

theorem Ppu.checkedWrite_memory (ppu : Ppu) (address : UInt16) (value : UInt8) :
    ppu.memory.checkedWrite address value =
      .ok { ppu with vram := Vram.write ppu.vram address value }.memory :=
  AddressSpace.checkedWrite_eq Vram.layout_wellFormed (ppu.write_memory address value)

end NesMachine
