import NesMachine.Proofs.AddressSpace.Walk
import NesMachine.Proofs.Ram

/-!
# What the constructors accept, and what they promise

The constructors of `AddressSpace` accept exactly the windows and rows that the look-up can rely on, and
an access to a space that they built fails only by leaving the root or by a redirection that leads out
of it or into another one.

* `AddressSpace.exists_block_iff`, `exists_composite_iff`, `exists_repeated_iff`, …: what is accepted.
* `AddressSpace.Sound`: what holds of every space that was built.
-/

namespace NesMachine

namespace AddressSpace

def contents (space : AddressSpace) (window : Window) : List UInt8 :=
  space.cells.slice window.start window.length

@[simp] theorem length_contents (space : AddressSpace) (window : Window) :
    (space.contents window).length = window.length := by
  simp [contents, Ram.slice]

/-- A store in a window changes the byte of its address there, and no other one. -/
theorem contents_set (space : AddressSpace) {window : Window} {cell : Nat} (hCell : cell ∈ window)
    (value : UInt8) :
    ({ space with cells := space.cells.set cell value } : AddressSpace).contents window =
      (space.contents window).set (cell - window.start) value := by
  have hIn : window.start ≤ cell ∧ cell < window.stop := hCell
  have hStop : window.start + window.length = window.stop :=
    Nat.add_sub_cancel' (Nat.le_of_lt window.start_lt_stop)
  refine Ram.slice_set space.cells value ?_ hIn.1 ?_
  · rw [hStop]
    exact window.stop_le_busEnd
  · rw [hStop]
    exact hIn.2

/-! ## Acceptance -/

/-- Clearing the storage of a layout cannot fail, so only the check of the layout counts. -/
theorem exists_ofLayout_iff {checked : Except LayoutError Layout} :
    (∃ space, ofLayout <$> checked = .ok space) ↔ ∃ layout, checked = .ok layout := by
  cases checked with
  | error reason =>
    constructor
    · rintro ⟨space, h⟩
      cases h
    · rintro ⟨layout, h⟩
      cases h
  | ok layout => exact ⟨fun _ => ⟨layout, rfl⟩, fun _ => ⟨ofLayout layout, rfl⟩⟩

-- Blocks, bytes and devices make the same check of their window.
theorem exists_map_ofLength_iff (node : Window → Layout) {start length : Nat} :
    (∃ layout, node <$> Window.ofLength start length = .ok layout) ↔
      0 < length ∧ start + length ≤ busEnd := by
  rw [← Window.exists_ofLength_iff]
  constructor
  · rintro ⟨layout, h⟩
    rcases map_eq_ok_iff.mp h with ⟨window, hWindow, -⟩
    exact ⟨window, hWindow⟩
  · rintro ⟨window, hWindow⟩
    exact ⟨node window, by rw [hWindow]; rfl⟩

theorem exists_block_iff {start length : Nat} :
    (∃ space, block start length = .ok space) ↔ 0 < length ∧ start + length ≤ busEnd := by
  rw [block, exists_ofLayout_iff, Layout.ofBlock, exists_map_ofLength_iff]

theorem exists_device_iff {start length : Nat} :
    (∃ space, device start length = .ok space) ↔ 0 < length ∧ start + length ≤ busEnd := by
  rw [device, exists_ofLayout_iff, Layout.ofDevice, exists_map_ofLength_iff]

/-- Given bytes are accepted when a block of their number is. -/
theorem exists_ofBytes_iff {start : Nat} {bytes : List UInt8} :
    (∃ space, ofBytes start bytes = .ok space) ↔
      0 < bytes.length ∧ start + bytes.length ≤ busEnd := by
  rw [← exists_map_ofLength_iff Layout.block]
  constructor
  · rintro ⟨space, h⟩
    exact ⟨space.layout, layout_of_ofBytes h⟩
  · rintro ⟨layout, h⟩
    exact ⟨_, bind_eq_ok_iff.mpr ⟨layout, h, rfl⟩⟩

/-- A block has a window of the given length and starts cleared. -/
theorem contents_of_block {start length : Nat} {space : AddressSpace}
    (h : block start length = .ok space) :
    ∃ window, space.layout = .block window ∧ window.start = start ∧ window.length = length ∧
      space.contents window = List.replicate length 0 := by
  rcases map_eq_ok_iff.mp h with ⟨layout, hLayout, rfl⟩
  rcases map_eq_ok_iff.mp hLayout with ⟨window, hWindow, rfl⟩
  have hEq := Window.ofLength_eq_ok_iff.mp hWindow
  have hLength := Window.length_of_ofLength hWindow
  refine ⟨window, rfl, hEq.1, hLength, List.eq_replicate_iff.mpr ⟨?_, ?_⟩⟩
  · rw [length_contents, hLength]
  · intro byte hMem
    rcases List.mem_map.mp hMem with ⟨i, -, rfl⟩
    exact Ram.get_zero 16 _

/-- A block that is made of bytes has a window of their number and holds them. -/
theorem contents_of_ofBytes {start : Nat} {bytes : List UInt8} {space : AddressSpace}
    (h : ofBytes start bytes = .ok space) :
    ∃ window, space.layout = .block window ∧ window.start = start ∧
      window.length = bytes.length ∧ space.contents window = bytes := by
  rcases bind_eq_ok_iff.mp h with ⟨layout, hLayout, hSpace⟩
  rcases map_eq_ok_iff.mp hLayout with ⟨window, hWindow, rfl⟩
  cases hSpace
  have hEq := Window.ofLength_eq_ok_iff.mp hWindow
  have hLength := Window.length_of_ofLength hWindow
  have hFits : start + bytes.length ≤ 2 ^ 16 := by
    rw [← hEq.2]
    exact window.stop_le_busEnd
  refine ⟨window, rfl, hEq.1, hLength, ?_⟩
  rw [contents, hLength, hEq.1]
  exact Ram.slice_setBytes (Ram.zero 16) start bytes hFits

/-! ## Joined and repeated contents -/

/-- Only the cells of a window matter for what it holds. -/
theorem contents_congr {space other : AddressSpace} {window : Window}
    (hSame : ∀ cell ∈ window, space.cells.get cell = other.cells.get cell) :
    space.contents window = other.contents window := by
  refine List.map_congr_left ?_
  intro i hMem
  have hLt : i < window.stop - window.start := List.mem_range.mp hMem
  have hCell : window.start + i ∈ window := ⟨Nat.le_add_right _ _, by omega⟩
  exact hSame _ hCell

/-- Joining spaces leaves the cells outside their windows alone. -/
theorem get_foldl_overlay_of_outside (parts : List AddressSpace) (cells : Ram 16) {cell : Nat}
    (hCell : cell < busEnd) (hOutside : ∀ part ∈ parts, ¬part.layout.Covers cell) :
    (parts.foldl (fun cells part =>
      cells.overlay part.cells part.layout.start part.layout.stop) cells).get cell =
        cells.get cell := by
  have hMod : cell % 2 ^ 16 = cell := Nat.mod_eq_of_lt hCell
  induction parts generalizing cells with
  | nil => rfl
  | cons first rest ih =>
    have hFirst := hOutside first List.mem_cons_self
    have hRest := fun part hMem => hOutside part (List.mem_cons_of_mem first hMem)
    rw [List.foldl_cons, ih _ hRest, Ram.get_overlay, hMod]
    exact if_neg hFirst

/-- Joining spaces that stand apart takes each cell from the one that covers it. -/
theorem get_foldl_overlay_of_covers {parts : List AddressSpace} (cells : Ram 16) {cell : Nat}
    (hCell : cell < busEnd)
    (hApart : parts.Pairwise fun left right => left.layout.stop ≤ right.layout.start)
    {part : AddressSpace} (hMem : part ∈ parts) (hCovers : part.layout.Covers cell) :
    (parts.foldl (fun cells part =>
      cells.overlay part.cells part.layout.start part.layout.stop) cells).get cell =
        part.cells.get cell := by
  have hMod : cell % 2 ^ 16 = cell := Nat.mod_eq_of_lt hCell
  induction parts generalizing cells with
  | nil => cases hMem
  | cons first rest ih =>
    have hRow := List.pairwise_cons.mp hApart
    rw [List.foldl_cons]
    rcases List.mem_cons.mp hMem with rfl | hTail
    · -- The spaces that follow start past the cell.
      have hOutside : ∀ other ∈ rest, ¬other.layout.Covers cell := by
        intro other hOther hAlso
        have hOrder := hRow.1 other hOther
        have hIn : part.layout.start ≤ cell ∧ cell < part.layout.stop := hCovers
        have hInAlso : other.layout.start ≤ cell ∧ cell < other.layout.stop := hAlso
        omega
      rw [get_foldl_overlay_of_outside rest _ hCell hOutside, Ram.get_overlay, hMod]
      exact if_pos hCovers
    · exact ih _ hRow.2 hTail

/-- Spaces that follow one another stand apart. -/
theorem pairwise_of_isChain {parts : List AddressSpace} (hParts : ∀ part ∈ parts, part.Built)
    (hChain : parts.IsChain fun left right => left.layout.stop = right.layout.start) :
    parts.Pairwise fun left right => left.layout.stop ≤ right.layout.start := by
  induction parts with
  | nil => exact .nil
  | cons first rest ih =>
    have hRest := ih (fun part hMem => hParts part (List.mem_cons_of_mem first hMem)) hChain.tail
    refine List.pairwise_cons.mpr ⟨?_, hRest⟩
    intro other hOther
    cases rest with
    | nil => cases hOther
    | cons second others =>
      have hMeet : first.layout.stop = second.layout.start := hChain.rel
      rcases List.mem_cons.mp hOther with rfl | hTail
      · exact Nat.le_of_eq hMeet
      · -- Later spaces start beyond the second one, which is not empty.
        have hSecond := hParts second (List.mem_cons_of_mem first List.mem_cons_self)
        have hLt := hSecond.wellFormed.start_lt_stop
        have hOrder := (List.pairwise_cons.mp hRest).1 other hTail
        omega

/-- Spaces can be joined exactly when there is one and each stops where the next one starts. -/
theorem exists_composite_iff {parts : List AddressSpace} (hParts : ∀ part ∈ parts, part.Built) :
    (∃ space, composite parts = .ok space) ↔ parts ≠ [] ∧
      parts.IsChain (fun left right => left.layout.stop = right.layout.start) := by
  have hLayouts : ∀ layout ∈ parts.map (·.layout), layout.WellFormed :=
    List.forall_mem_map.mpr fun part hMem => (hParts part hMem).wellFormed
  constructor
  · rintro ⟨space, h⟩
    obtain ⟨first, rest, hCons, hChain, -⟩ :=
      (Layout.ofParts_eq_ok_iff hLayouts).mp (layout_of_composite h)
    constructor
    · -- An empty row has no first part.
      rintro rfl
      cases hCons
    · exact (List.isChain_map _).mp hChain
  · rintro ⟨hNonempty, hChain⟩
    rcases List.exists_cons_of_ne_nil hNonempty with ⟨first, rest, rfl⟩
    have hOk : Layout.ofParts ((first :: rest).map (·.layout)) =
        .ok (.composite (Layout.tile first.layout (rest.map (·.layout)))) :=
      (Layout.ofParts_eq_ok_iff hLayouts).mpr
        ⟨first.layout, rest.map (·.layout), rfl, (List.isChain_map _).mpr hChain, rfl⟩
    exact ⟨_, bind_eq_ok_iff.mpr ⟨_, hOk, rfl⟩⟩

/-- A joined space has the blocks of its parts. -/
theorem blocks_of_composite {parts : List AddressSpace} (hParts : ∀ part ∈ parts, part.Built)
    {space : AddressSpace} (h : composite parts = .ok space) :
    space.layout.blocks = parts.flatMap fun part => part.layout.blocks := by
  have hLayouts : ∀ layout ∈ parts.map (·.layout), layout.WellFormed :=
    List.forall_mem_map.mpr fun part hMem => (hParts part hMem).wellFormed
  obtain ⟨first, rest, hCons, -, hLayout⟩ :=
    (Layout.ofParts_eq_ok_iff hLayouts).mp (layout_of_composite h)
  calc
    space.layout.blocks = (Layout.tile first rest).blocks := congrArg Layout.blocks hLayout
    _ = (parts.map (·.layout)).flatMap Layout.blocks := by rw [Layout.blocks_tile, hCons]
    _ = parts.flatMap fun part => part.layout.blocks := List.flatMap_map _ _ parts

/-- A joined space holds the bytes of its parts. -/
theorem contents_of_composite {parts : List AddressSpace} (hParts : ∀ part ∈ parts, part.Built)
    {space : AddressSpace} (h : composite parts = .ok space) {part : AddressSpace}
    (hMem : part ∈ parts) {window : Window} (hWindow : window ∈ part.layout.blocks) :
    space.contents window = part.contents window := by
  -- The parts stand apart, so each cell was taken over once, from the part that covers it.
  have hChain := ((exists_composite_iff hParts).mp ⟨space, h⟩).2
  rcases bind_eq_ok_iff.mp h with ⟨layout, hLayout, hSpace⟩
  cases hSpace
  have hPart := (hParts part hMem).wellFormed
  have hBounds := Layout.mem_blocks_bounds hPart window hWindow
  refine contents_congr ?_
  intro cell hCell
  have hIn : window.start ≤ cell ∧ cell < window.stop := hCell
  have hOnBus : cell < busEnd := Nat.lt_of_lt_of_le hIn.2 window.stop_le_busEnd
  have hCovers : part.layout.Covers cell :=
    ⟨Nat.le_trans hBounds.1 hIn.1, Nat.lt_of_lt_of_le hIn.2 hBounds.2⟩
  exact get_foldl_overlay_of_covers _ hOnBus (pairwise_of_isChain hParts hChain) hMem hCovers

/-- A repeated space holds the bytes of its base. -/
theorem contents_of_repeated {base space : AddressSpace} {times : Nat}
    (h : repeated base times = .ok space) (window : Window) :
    space.contents window = base.contents window := by
  rcases bind_eq_ok_iff.mp h with ⟨layout, hLayout, hSpace⟩
  cases hSpace
  rfl

/-- A repeated space has the blocks of its base, each of them once. -/
theorem blocks_of_repeated {base space : AddressSpace} (hBase : base.Built) {times : Nat}
    (h : repeated base times = .ok space) : space.layout.blocks = base.layout.blocks := by
  obtain ⟨-, -, hLayout⟩ :=
    (Layout.ofRepeated_eq_ok_iff hBase.wellFormed).mp (layout_of_repeated h)
  rw [hLayout, Layout.blocks]

/-- A space can be repeated exactly when it is shown at all and all of it stays on the bus. -/
theorem exists_repeated_iff {base : AddressSpace} (hBase : base.Built) {times : Nat} :
    (∃ space, repeated base times = .ok space) ↔ 1 ≤ times ∧
      base.layout.start + times * (base.layout.stop - base.layout.start) ≤ busEnd := by
  constructor
  · rintro ⟨space, h⟩
    obtain ⟨hTimes, hFits, -⟩ :=
      (Layout.ofRepeated_eq_ok_iff hBase.wellFormed).mp (layout_of_repeated h)
    exact ⟨hTimes, hFits⟩
  · rintro ⟨hTimes, hFits⟩
    have hOk := (Layout.ofRepeated_eq_ok_iff hBase.wellFormed).mpr ⟨hTimes, hFits, rfl⟩
    exact ⟨_, bind_eq_ok_iff.mpr ⟨_, hOk, rfl⟩⟩

/-- A window can be redirected exactly when it and its target are windows without a common address. -/
theorem exists_redirect_iff {target start length : Nat} :
    (∃ space, redirect target start length = .ok space) ↔
      0 < length ∧ start + length ≤ busEnd ∧ target + length ≤ busEnd ∧
        (start + length ≤ target ∨ target + length ≤ start) := by
  rw [redirect, exists_ofLayout_iff]
  constructor
  · rintro ⟨layout, h⟩
    rcases Layout.ofRedirect_eq_ok_iff.mp h with ⟨window, hStart, hStop, hTarget, hApart, -⟩
    have hLt := window.start_lt_stop
    have hLe := window.stop_le_busEnd
    exact ⟨by omega, by omega, hTarget, hApart⟩
  · rintro ⟨hLength, hFits, hTarget, hApart⟩
    have hLt : start < start + length := Nat.lt_add_of_pos_right hLength
    exact ⟨_, Layout.ofRedirect_eq_ok_iff.mpr
      ⟨⟨start, start + length, hLt, hFits⟩, rfl, rfl, hTarget, hApart, rfl⟩⟩

/-! ## What is built

Storage starts cleared, and joining or repeating cleared spaces stores nothing. -/

section Window

variable {window : Window} {start length : Nat}

theorem block_eq_ok (hStart : window.start = start) (hStop : window.stop = start + length) :
    block start length = .ok (ofLayout (.block window)) := by
  rw [block, Layout.ofBlock, Window.ofLength_eq_ok_iff.mpr ⟨hStart, hStop⟩]
  rfl

theorem device_eq_ok (hStart : window.start = start) (hStop : window.stop = start + length) :
    device start length = .ok (ofLayout (.device window)) := by
  rw [device, Layout.ofDevice, Window.ofLength_eq_ok_iff.mpr ⟨hStart, hStop⟩]
  rfl

theorem ofBytes_eq_ok {bytes : List UInt8} (hStart : window.start = start)
    (hStop : window.stop = start + bytes.length) :
    ofBytes start bytes =
      .ok { layout := .block window, cells := (Ram.zero 16).setBytes start bytes } := by
  rw [ofBytes, Layout.ofBlock, Window.ofLength_eq_ok_iff.mpr ⟨hStart, hStop⟩]
  rfl

end Window

/-- Joining cleared spaces stores nothing. -/
theorem foldl_overlay_ofLayout (layouts : List Layout) :
    (layouts.map ofLayout).foldl (fun cells part =>
      cells.overlay part.cells part.layout.start part.layout.stop) (Ram.zero 16) = Ram.zero 16 := by
  induction layouts with
  | nil => rfl
  | cons first rest ih =>
    rw [List.map_cons, List.foldl_cons, ofLayout, Ram.overlay_self]
    exact ih

/-- Joined spaces without bytes make a space without bytes. -/
theorem composite_eq_ok {layouts : List Layout} {layout : Layout}
    (h : Layout.ofParts layouts = .ok layout) :
    composite (layouts.map ofLayout) = .ok (ofLayout layout) := by
  have hLayouts : (layouts.map ofLayout).map (·.layout) = layouts := by
    rw [List.map_map]
    exact List.map_id layouts
  rw [composite, hLayouts, foldl_overlay_ofLayout]
  exact bind_eq_ok_iff.mpr ⟨layout, h, rfl⟩

theorem repeated_eq_ok {base layout : Layout} {times : Nat}
    (h : Layout.ofRepeated base times = .ok layout) :
    repeated (ofLayout base) times = .ok (ofLayout layout) :=
  bind_eq_ok_iff.mpr ⟨layout, h, rfl⟩

/-! ## What every space promises -/

/-- The tree is well formed, each block has one byte of its own for each of its addresses, which a store
to the address changes alone, no check on the way of an access fails, no address leaves the bus, and
accesses fail in the documented ways only. -/
structure Sound (space : AddressSpace) : Prop where
  wellFormed : space.layout.WellFormed
  bytes : ∀ window ∈ space.layout.blocks,
    (space.contents window).length = window.length ∧
    ∀ cell ∈ window, ∀ value,
      ({ space with cells := space.cells.set cell value } : AddressSpace).contents window =
        (space.contents window).set (cell - window.start) value
  blocks_apart : space.layout.blocks.Pairwise fun left right => left.stop ≤ right.start
  arrives : ∀ address, space.layout.Covers address →
    ∃ node folded, space.layout.Arrives address node folded ∧
      space.layout.walk address = node.walk folded
  folded_lt : ∀ address node folded, space.layout.Arrives address node folded → folded < busEnd
  shown_lt : ∀ address shown target folded,
    space.layout.Arrives address (.redirect shown target) folded →
      target + (folded - shown.start) < busEnd
  read_fails : ∀ (δ : Type) [Device δ] (device : δ) (address : UInt16) (fault : Fault),
    space.readVia address device = .error fault ↔ space.layout.Fails address.toNat fault
  write_fails : ∀ (δ : Type) [Device δ] (device : δ) (address : UInt16) (value : UInt8)
    (fault : Fault),
      space.writeVia address value device = .error fault ↔
        space.layout.Fails address.toNat fault

section Access

variable {δ : Type} [Device δ]

theorem readVia_of_cell {space : AddressSpace} {address : UInt16} {cell : Nat}
    (h : space.locate address = .ok (.cell cell)) (device : δ) :
    space.readVia address device = .ok (space.cells.get cell, device) := by
  rw [readVia, h]
  rfl

/-- A read that comes to a device is answered by the device, at the address as its window shows it. -/
theorem readVia_of_device {space : AddressSpace} {address : UInt16} {folded : Nat}
    (h : space.locate address = .ok (.device folded)) (device : δ) :
    space.readVia address device = .ok (Device.read device (UInt16.ofNat folded)) := by
  rw [readVia, h]
  rfl

theorem writeVia_of_cell {space : AddressSpace} {address : UInt16} {cell : Nat}
    (h : space.locate address = .ok (.cell cell)) (value : UInt8) (device : δ) :
    space.writeVia address value device =
      .ok ({ space with cells := space.cells.set cell value }, device) := by
  rw [writeVia, h]
  rfl

theorem writeVia_of_device {space : AddressSpace} {address : UInt16} {folded : Nat}
    (h : space.locate address = .ok (.device folded)) (value : UInt8) (device : δ) :
    space.writeVia address value device =
      .ok (space, Device.write device (UInt16.ofNat folded) value) := by
  rw [writeVia, h]
  rfl

/-- A read fails when the look-up does. -/
theorem readVia_eq_error_iff {space : AddressSpace} {address : UInt16} {device : δ}
    {fault : Fault} :
    space.readVia address device = .error fault ↔ space.locate address = .error fault := by
  cases hPlace : space.locate address with
  | error reason =>
    rw [readVia, hPlace]
    constructor
    · intro h
      cases h
      rfl
    · intro h
      cases h
      rfl
  | ok place =>
    cases place with
    | cell cell => simp [readVia_of_cell hPlace]
    | device folded => simp [readVia_of_device hPlace]

/-- A write fails when the look-up does. -/
theorem writeVia_eq_error_iff {space : AddressSpace} {address : UInt16} {value : UInt8}
    {device : δ} {fault : Fault} :
    space.writeVia address value device = .error fault ↔ space.locate address = .error fault := by
  cases hPlace : space.locate address with
  | error reason =>
    rw [writeVia, hPlace]
    constructor
    · intro h
      cases h
      rfl
    · intro h
      cases h
      rfl
  | ok place =>
    cases place with
    | cell cell => simp [writeVia_of_cell hPlace]
    | device folded => simp [writeVia_of_device hPlace]

end Access

/-- A space with a well-formed layout keeps every promise. -/
theorem sound_of_wellFormed {space : AddressSpace} (h : space.layout.WellFormed) :
    space.Sound where
  wellFormed := h
  bytes := fun window _ =>
    ⟨space.length_contents window, fun _ hCell value => space.contents_set hCell value⟩
  blocks_apart := Layout.pairwise_blocks h
  arrives := fun _ hCovers => h.arrives hCovers
  folded_lt := by
    intro address node folded hArrives
    exact Nat.lt_of_lt_of_le hArrives.node_covers.2 (hArrives.node_wellFormed h).stop_le_busEnd
  shown_lt := by
    -- What a redirected window shows is as long as the window and lies on the bus.
    intro address shown target folded hArrives
    have hNode := (hArrives.node_wellFormed h).1
    have hLength : shown.length = shown.stop - shown.start := rfl
    have hIn : shown.start ≤ folded ∧ folded < shown.stop := hArrives.node_covers
    omega
  read_fails := by
    intro δ _ device address fault
    rw [readVia_eq_error_iff]
    exact Layout.locate_eq_error_iff h
  write_fails := by
    intro δ _ device address value fault
    rw [writeVia_eq_error_iff]
    exact Layout.locate_eq_error_iff h

/-- **The constructors are sound and exact.** Every space that they build keeps the promises of `Sound`,
and each of them accepts exactly the arguments for which it can. A new block holds zeros or the bytes that it
was given, one for each address, and joined and repeated spaces have the blocks that they were made of, with
these bytes. -/
theorem constructors_sound_and_exact :
    (∀ space : AddressSpace, space.Built → space.Sound) ∧
    (∀ start length, (∃ space, block start length = .ok space) ↔
      0 < length ∧ start + length ≤ busEnd) ∧
    (∀ start length space, block start length = .ok space →
      ∃ window, space.layout = .block window ∧ window.start = start ∧ window.length = length ∧
        space.contents window = List.replicate length 0) ∧
    (∀ start bytes, (∃ space, ofBytes start bytes = .ok space) ↔
      0 < bytes.length ∧ start + bytes.length ≤ busEnd) ∧
    (∀ start bytes space, ofBytes start bytes = .ok space →
      ∃ window, space.layout = .block window ∧ window.start = start ∧
        window.length = bytes.length ∧ space.contents window = bytes) ∧
    (∀ parts : List AddressSpace, (∀ part ∈ parts, part.Built) →
      ∀ space, composite parts = .ok space →
        (space.layout.blocks = parts.flatMap fun part => part.layout.blocks) ∧
        ∀ part ∈ parts, ∀ window ∈ part.layout.blocks,
          space.contents window = part.contents window) ∧
    (∀ base times space, base.Built → repeated base times = .ok space →
      space.layout.blocks = base.layout.blocks) ∧
    (∀ base times space, repeated base times = .ok space → ∀ window,
      space.contents window = base.contents window) ∧
    (∀ start length, (∃ space, device start length = .ok space) ↔
      0 < length ∧ start + length ≤ busEnd) ∧
    (∀ parts : List AddressSpace, (∀ part ∈ parts, part.Built) →
      ((∃ space, composite parts = .ok space) ↔ parts ≠ [] ∧
        parts.IsChain fun left right => left.layout.stop = right.layout.start)) ∧
    (∀ base times, base.Built → ((∃ space, repeated base times = .ok space) ↔
      1 ≤ times ∧
        base.layout.start + times * (base.layout.stop - base.layout.start) ≤ busEnd)) ∧
    (∀ target start length, (∃ space, redirect target start length = .ok space) ↔
      0 < length ∧ start + length ≤ busEnd ∧ target + length ≤ busEnd ∧
        (start + length ≤ target ∨ target + length ≤ start)) := by
  refine ⟨?_, fun _ _ => exists_block_iff, fun _ _ _ => contents_of_block,
    fun _ _ => exists_ofBytes_iff, fun _ _ _ => contents_of_ofBytes,
    fun _ hParts _ h => ⟨blocks_of_composite hParts h,
      fun _ hMem _ hWindow => contents_of_composite hParts h hMem hWindow⟩,
    fun _ _ _ hBase h => blocks_of_repeated hBase h,
    fun _ _ _ h window => contents_of_repeated h window, fun _ _ => exists_device_iff,
    fun _ => exists_composite_iff, fun _ _ hBase => exists_repeated_iff hBase,
    fun _ _ _ => exists_redirect_iff⟩
  -- The constructors keep the tree well formed, and all promises follow from that.
  intro space hBuilt
  exact sound_of_wellFormed hBuilt.wellFormed

/-- Two windows that show each other are accepted, and an access to them never settles. -/
theorem constructors_accept_facing_redirects :
    ∃ left right space, redirect 0x100 0 0x100 = .ok left ∧ redirect 0 0x100 0x100 = .ok right ∧
      composite [left, right] = .ok space ∧ space.Sound ∧
      space.read 0x42 = .error (.chainedRedirect 0x42 0x142) := by
  rcases constructors_sound_and_exact with ⟨hSound, -, -, -, -, -, -, -, -, hComposite, -, -⟩
  have hLeft : redirect 0x100 0 0x100 =
      .ok (ofLayout (.redirect ⟨0, 0x100, by decide, by decide⟩ 0x100)) := rfl
  have hRight : redirect 0 0x100 0x100 =
      .ok (ofLayout (.redirect ⟨0x100, 0x200, by decide, by decide⟩ 0)) := rfl
  have hParts : ∀ part ∈ [ofLayout (.redirect ⟨0, 0x100, by decide, by decide⟩ 0x100),
      ofLayout (.redirect ⟨0x100, 0x200, by decide, by decide⟩ 0)], part.Built := by
    intro part hMem
    rcases List.mem_pair.mp hMem with rfl | rfl
    · exact .redirect hLeft
    · exact .redirect hRight
  have hMeet : [ofLayout (.redirect ⟨0, 0x100, by decide, by decide⟩ 0x100),
      ofLayout (.redirect ⟨0x100, 0x200, by decide, by decide⟩ 0)].IsChain
        (fun left right => left.layout.stop = right.layout.start) :=
    List.isChain_pair.mpr rfl
  rcases (hComposite _ hParts).mpr ⟨List.cons_ne_nil _ _, hMeet⟩ with ⟨space, hSpace⟩
  have hLayout := layout_of_composite hSpace
  -- Each window leads to the other one, and one redirection is the limit.
  have hLocate : space.locate 0x42 = .error (.chainedRedirect 0x42 0x142) := by
    rw [locate, ← Except.ok.inj hLayout]
    rfl
  refine ⟨_, _, space, hLeft, hRight, hSpace, hSound space (.composite hParts hSpace), ?_⟩
  rw [read, hLocate]
  rfl

end AddressSpace

end NesMachine
