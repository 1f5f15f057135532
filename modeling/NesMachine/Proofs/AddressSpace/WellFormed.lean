import Mathlib.Data.List.Chain
import NesMachine.AddressSpace.Basic
import NesMachine.Proofs.Refusal

/-!
# Well-formed layouts

The look-up of an address relies on numbers that no node of a layout checks again: the parts of a
composite follow one another, a repeated base fills its window a whole number of times, and what a
redirected window shows lies on the bus. `Layout.WellFormed` says so for every node of a tree.

* `Layout.WellFormed.start_lt_stop`, `Layout.WellFormed.stop_le_busEnd`: a well-formed layout covers a
  window of the bus.
* `Layout.pairwise_blocks`: two blocks of a tree never share a cell.
* `exists_block_iff` and its companions: the constructors accept exactly what is well formed.
* `AddressSpace.Built.wellFormed`: so every tree that they build is.
-/

namespace NesMachine

/-! ## Induction over a tree -/

/-- Induction over a layout, with a hypothesis for each part of a composite. -/
theorem Layout.tree_induction {motive : Layout → Prop}
    (block : ∀ window, motive (.block window))
    (composite : ∀ parts : Tiling, (∀ part ∈ parts.toList, motive part) → motive (.composite parts))
    (repeated : ∀ base times, motive base → motive (.repeated base times))
    (redirect : ∀ window target, motive (.redirect window target))
    (device : ∀ window, motive (.device window)) (layout : Layout) : motive layout := by
  -- The second motive turns the recursor of a row into a statement about its members.
  refine @Layout.rec motive (fun parts => ∀ part ∈ parts.toList, motive part)
    block composite repeated redirect device ?_ ?_ layout
  · intro part hPart other hMem
    have hEq : other = part := by simpa [Tiling.toList] using hMem
    rw [hEq]
    exact hPart
  · intro part rest hPart hRest other hMem
    have hOr : other = part ∨ other ∈ rest.toList := by simpa [Tiling.toList] using hMem
    rcases hOr with hEq | hTail
    · rw [hEq]
      exact hPart
    · exact hRest other hTail

/-! ## The predicate -/

mutual

/-- What the look-up relies on, at every node of a layout. -/
def Layout.WellFormed : Layout → Prop
  | .block _ => True
  | .composite parts => parts.WellFormed
  | .repeated base times =>
    base.WellFormed ∧ 0 < times ∧
      (Layout.repeated base times).stop - base.start = times * (base.stop - base.start) ∧
      (Layout.repeated base times).stop ≤ busEnd
  | .redirect window target =>
    target + window.length ≤ busEnd ∧
      (window.stop ≤ target ∨ target + window.length ≤ window.start)
  | .device _ => True

/-- The parts are well formed, and each starts where the one before it stops. -/
def Tiling.WellFormed : Tiling → Prop
  | .last part => part.WellFormed
  | .cons part rest => part.WellFormed ∧ part.stop = rest.start ∧ rest.WellFormed

end

mutual

/-- A well-formed layout covers a nonempty window of the bus. -/
theorem Layout.WellFormed.bounds : ∀ {layout : Layout}, layout.WellFormed →
    layout.start < layout.stop ∧ layout.stop ≤ busEnd
  | .block window, _ => ⟨window.start_lt_stop, window.stop_le_busEnd⟩
  | .composite _, h => Tiling.WellFormed.bounds h
  | .repeated base times, h => by
    have hBase := Layout.WellFormed.bounds h.1
    refine ⟨?_, h.2.2.2⟩
    exact Nat.lt_of_lt_of_le hBase.1 (Nat.le_add_right base.stop _)
  | .redirect window _, _ => ⟨window.start_lt_stop, window.stop_le_busEnd⟩
  | .device window, _ => ⟨window.start_lt_stop, window.stop_le_busEnd⟩

/-- So does a well-formed row. -/
theorem Tiling.WellFormed.bounds : ∀ {parts : Tiling}, parts.WellFormed →
    parts.start < parts.stop ∧ parts.stop ≤ busEnd
  | .last _, h => Layout.WellFormed.bounds h
  | .cons part rest, h => by
    have hPart := Layout.WellFormed.bounds h.1
    have hRest := Tiling.WellFormed.bounds h.2.2
    refine ⟨?_, hRest.2⟩
    calc
      part.start < part.stop := hPart.1
      _ = rest.start := h.2.1
      _ < rest.stop := hRest.1

end

theorem Layout.WellFormed.start_lt_stop {layout : Layout} (h : layout.WellFormed) :
    layout.start < layout.stop :=
  h.bounds.1

theorem Layout.WellFormed.stop_le_busEnd {layout : Layout} (h : layout.WellFormed) :
    layout.stop ≤ busEnd :=
  h.bounds.2

/-! ## Rows as lists -/

namespace Tiling

/-- A row is well formed when its parts are and follow one another without gap or overlap. -/
theorem wellFormed_iff : ∀ parts : Tiling, parts.WellFormed ↔
    (∀ part ∈ parts.toList, part.WellFormed) ∧
      parts.toList.IsChain (fun left right => left.stop = right.start)
  | .last part => by simp [WellFormed, toList]
  | .cons part (.last next) => by
    simp [WellFormed, toList, start]
    tauto
  | .cons part (.cons next rest) => by
    have ih := wellFormed_iff (.cons next rest)
    rw [WellFormed, ih]
    simp [toList, start]
    tauto

end Tiling

/-! ## Windows -/

namespace Window

/-- The only window between two bounds is the one that has them. -/
theorem ofBounds_eq_ok_iff {start stop : Nat} {window : Window} :
    ofBounds start stop = .ok window ↔ window.start = start ∧ window.stop = stop := by
  constructor
  · intro h
    by_cases hBounds : start < stop ∧ stop ≤ busEnd
    · rw [ofBounds, dif_pos hBounds] at h
      cases h
      exact ⟨rfl, rfl⟩
    · rw [ofBounds, dif_neg hBounds] at h
      cases h
  · rintro ⟨rfl, rfl⟩
    exact dif_pos ⟨window.start_lt_stop, window.stop_le_busEnd⟩

/-- The window of a length starts at the given address and stops so many addresses later. -/
theorem ofLength_eq_ok_iff {start length : Nat} {window : Window} :
    ofLength start length = .ok window ↔
      window.start = start ∧ window.stop = start + length := by
  have hStop := window.stop_le_busEnd
  -- An end that is cut down was beyond the bus, and no window stops there.
  rw [ofLength, ofBounds_eq_ok_iff]
  simp only [busEnd, reportedEndMax] at *
  omega

theorem length_of_ofLength {start length : Nat} {window : Window}
    (h : ofLength start length = .ok window) : window.length = length := by
  have hEq := ofLength_eq_ok_iff.mp h
  rw [Window.length, hEq.1, hEq.2, Nat.add_sub_cancel_left]

/-- A window is accepted exactly when it is nonempty and on the bus. -/
theorem exists_ofLength_iff {start length : Nat} :
    (∃ window, ofLength start length = .ok window) ↔ 0 < length ∧ start + length ≤ busEnd := by
  constructor
  · rintro ⟨window, h⟩
    have hEq := ofLength_eq_ok_iff.mp h
    have hStart := window.start_lt_stop
    have hStop := window.stop_le_busEnd
    omega
  · rintro ⟨hLength, hStop⟩
    have hStart : start < start + length := Nat.lt_add_of_pos_right hLength
    exact ⟨⟨start, start + length, hStart, hStop⟩, ofLength_eq_ok_iff.mpr ⟨rfl, rfl⟩⟩

end Window

/-! ## Rows that a composite accepts -/

namespace Layout

/-- The row of some parts holds them in their order. -/
theorem toList_tile (first : Layout) (rest : List Layout) :
    (tile first rest).toList = first :: rest := by
  induction rest generalizing first with
  | nil => rfl
  | cons second rest ih => simp [tile, Tiling.toList, ih]

/-- No gap is found exactly when each part stops where the next one starts. -/
theorem firstGap_eq_none_iff : ∀ parts : List Layout, firstGap parts = none ↔
    parts.IsChain (fun left right => left.stop = right.start)
  | [] => by simp [firstGap]
  | [_] => by simp [firstGap]
  | left :: right :: rest => by
    have ih := firstGap_eq_none_iff (right :: rest)
    by_cases hMeet : left.stop = right.start
    · simp [firstGap, hMeet, ih]
    · simp [firstGap, hMeet]

/-- Parts that follow one another make a well-formed layout. -/
theorem wellFormed_composite_tile {first : Layout} {rest : List Layout}
    (hParts : ∀ part ∈ first :: rest, part.WellFormed)
    (hChain : (first :: rest).IsChain (fun left right => left.stop = right.start)) :
    (Layout.composite (tile first rest)).WellFormed := by
  refine (Tiling.wellFormed_iff _).mpr ?_
  rw [toList_tile]
  exact ⟨hParts, hChain⟩

/-- Well-formed parts are accepted exactly when they tile a window. -/
theorem ofParts_eq_ok_iff {parts : List Layout} (hParts : ∀ part ∈ parts, part.WellFormed)
    {layout : Layout} : ofParts parts = .ok layout ↔
      ∃ first rest, parts = first :: rest ∧
        parts.IsChain (fun left right => left.stop = right.start) ∧
        layout = .composite (tile first rest) := by
  cases parts with
  | nil => simp [ofParts]
  | cons first rest =>
    cases hGap : firstGap (first :: rest) with
    | some gap =>
      have hNone := mt (firstGap_eq_none_iff (first :: rest)).mpr (by simp [hGap])
      simp [ofParts, hGap, hNone]
    | none =>
      -- The last check never fails: rows without a gap cover a window.
      have hChain := (firstGap_eq_none_iff (first :: rest)).mp hGap
      have hBounds := (wellFormed_composite_tile hParts hChain).bounds
      have hWindow : Window.ofBounds (tile first rest).start (tile first rest).stop =
          .ok ⟨_, _, hBounds.1, hBounds.2⟩ := Window.ofBounds_eq_ok_iff.mpr ⟨rfl, rfl⟩
      have hOk : ofParts (first :: rest) = .ok (.composite (tile first rest)) := by
        simp [ofParts, hGap, hWindow, bind, Except.bind, pure, Except.pure]
      rw [hOk]
      constructor
      · intro h
        cases h
        exact ⟨first, rest, rfl, hChain, rfl⟩
      · rintro ⟨first', rest', hCons, -, rfl⟩
        cases hCons
        rfl

/-! ## Repeated and redirected windows -/

/-- How far a repeated base reaches. -/
theorem stop_repeated {base : Layout} {times : Nat} (hBase : base.start < base.stop)
    (hTimes : 0 < times) :
    (Layout.repeated base times).stop = base.start + times * (base.stop - base.start) := by
  -- The definition counts the repetitions after the first.
  obtain ⟨more, rfl⟩ : ∃ more, times = more + 1 := ⟨times - 1, by omega⟩
  have hSum : (more + 1) * (base.stop - base.start) =
      more * (base.stop - base.start) + (base.stop - base.start) := Nat.succ_mul _ _
  simp only [Layout.stop, Nat.add_sub_cancel]
  omega

/-- A repetition is accepted exactly when it shows its base at all and stays on the bus. -/
theorem ofRepeated_eq_ok_iff {base : Layout} (hBase : base.WellFormed) {times : Nat}
    {layout : Layout} : ofRepeated base times = .ok layout ↔
      0 < times ∧ base.start + times * (base.stop - base.start) ≤ busEnd ∧
        layout = .repeated base times := by
  by_cases hTimes : times = 0
  · simp [ofRepeated, hTimes]
  · have hPos : 0 < times := Nat.pos_of_ne_zero hTimes
    have hStop := stop_repeated hBase.start_lt_stop hPos
    have hStart : base.start < (Layout.repeated base times).stop :=
      Nat.lt_of_lt_of_le hBase.start_lt_stop (Nat.le_add_right _ _)
    rw [ofRepeated, if_neg hTimes, ← hStop]
    by_cases hFits : (Layout.repeated base times).stop ≤ busEnd
    · -- What is reported is cut down only when it is beyond the bus anyway.
      have hMin : min (Layout.repeated base times).stop reportedEndMax =
          (Layout.repeated base times).stop := by
        simp only [busEnd, reportedEndMax] at *
        omega
      have hWindow : Window.ofBounds (Layout.repeated base times).start
          (Layout.repeated base times).stop = .ok ⟨_, _, hStart, hFits⟩ :=
        Window.ofBounds_eq_ok_iff.mpr ⟨rfl, rfl⟩
      simp [hMin, hWindow, hPos, hFits, bind, Except.bind, pure, Except.pure, eq_comm]
    · have hWindow : Window.ofBounds (Layout.repeated base times).start
          (min (Layout.repeated base times).stop reportedEndMax) =
            .error (.invalidWindow (Layout.repeated base times).start
              (min (Layout.repeated base times).stop reportedEndMax)) := by
        refine dif_neg ?_
        simp only [busEnd, reportedEndMax] at *
        omega
      simp [hWindow, hFits, bind, Except.bind]

/-- A redirected window is accepted exactly when it and what it shows are windows that share no
address. -/
theorem ofRedirect_eq_ok_iff {target start length : Nat} {layout : Layout} :
    ofRedirect target start length = .ok layout ↔
      ∃ window : Window, window.start = start ∧ window.stop = start + length ∧
        target + length ≤ busEnd ∧ (start + length ≤ target ∨ target + length ≤ start) ∧
        layout = .redirect window target := by
  cases hWindow : Window.ofLength start length with
  | error reason =>
    -- The window itself is refused.
    have hNone : ¬∃ window, Window.ofLength start length = .ok window := by simp [hWindow]
    rw [Window.exists_ofLength_iff] at hNone
    simp only [ofRedirect, hWindow, bind, Except.bind]
    constructor
    · intro h
      cases h
    · rintro ⟨window, hStart, hStop, -⟩
      have hLt := window.start_lt_stop
      have hLe := window.stop_le_busEnd
      omega
  | ok window =>
    have hBounds := Window.ofLength_eq_ok_iff.mp hWindow
    have hLt := window.start_lt_stop
    cases hShown : Window.ofLength target length with
    | error reason =>
      -- What it shows does not fit on the bus.
      have hNone : ¬∃ window, Window.ofLength target length = .ok window := by simp [hShown]
      rw [Window.exists_ofLength_iff] at hNone
      simp only [ofRedirect, hWindow, hShown, bind, Except.bind]
      constructor
      · intro h
        cases h
      · rintro ⟨other, hStart, hStop, hTarget, -⟩
        omega
    | ok shown =>
      have hAliased := Window.ofLength_eq_ok_iff.mp hShown
      have hLe := shown.stop_le_busEnd
      by_cases hOverlap : window.Overlaps shown
      · have hMeet : window.start < shown.stop ∧ shown.start < window.stop := hOverlap
        simp only [ofRedirect, hWindow, hShown, bind, Except.bind, hOverlap, if_true]
        constructor
        · intro h
          cases h
        · rintro ⟨other, hStart, hStop, hTarget, hApart, -⟩
          omega
      · have hApart : ¬(window.start < shown.stop ∧ shown.start < window.stop) := hOverlap
        simp only [ofRedirect, hWindow, hShown, bind, Except.bind, hOverlap, if_false]
        constructor
        · intro h
          cases h
          exact ⟨window, hBounds.1, hBounds.2, by omega, by omega, rfl⟩
        · rintro ⟨other, hStart, hStop, -, -, rfl⟩
          -- A window is its bounds.
          have hSame : other = window := by
            cases other
            cases window
            simp_all
          rw [hSame]
          rfl

end Layout

/-! ## Blocks -/

mutual

/-- The windows of the blocks of a layout, from left to right. -/
def Layout.blocks : Layout → List Window
  | .block window => [window]
  | .composite parts => parts.blocks
  | .repeated base _ => base.blocks
  | .redirect _ _ => []
  | .device _ => []

def Tiling.blocks : Tiling → List Window
  | .last part => part.blocks
  | .cons part rest => part.blocks ++ rest.blocks

end

/-- A row has the blocks of its parts, in their order. -/
theorem Layout.blocks_tile (first : Layout) (rest : List Layout) :
    (tile first rest).blocks = (first :: rest).flatMap Layout.blocks := by
  induction rest generalizing first with
  | nil => simp [tile, Tiling.blocks]
  | cons second rest ih => simp [tile, Tiling.blocks, ih]

mutual

/-- The blocks of a well-formed layout lie within its window. -/
theorem Layout.mem_blocks_bounds : ∀ {layout : Layout}, layout.WellFormed →
    ∀ window ∈ layout.blocks, layout.start ≤ window.start ∧ window.stop ≤ layout.stop
  | .block window, _ => by
    intro other hMem
    have hEq : other = window := by simpa [Layout.blocks] using hMem
    rw [hEq]
    exact ⟨Nat.le_refl _, Nat.le_refl _⟩
  | .composite _, h => Tiling.mem_blocks_bounds h
  | .repeated base _, h => by
    intro window hMem
    have hBase := Layout.mem_blocks_bounds h.1 window hMem
    exact ⟨hBase.1, Nat.le_trans hBase.2 (Nat.le_add_right _ _)⟩
  | .redirect _ _, _ => by
    intro window hMem
    cases hMem
  | .device _, _ => by
    intro window hMem
    cases hMem

/-- So do those of a row. -/
theorem Tiling.mem_blocks_bounds : ∀ {parts : Tiling}, parts.WellFormed →
    ∀ window ∈ parts.blocks, parts.start ≤ window.start ∧ window.stop ≤ parts.stop
  | .last _, h => Layout.mem_blocks_bounds h
  | .cons part rest, h => by
    intro window hMem
    have hPart := Layout.WellFormed.bounds h.1
    have hRest := Tiling.WellFormed.bounds h.2.2
    have hMeet : part.stop = rest.start := h.2.1
    simp only [Tiling.start, Tiling.stop]
    -- The part and the rest each reach into the row, and they meet.
    rcases List.mem_append.mp hMem with hLeft | hRight
    · have hIn := Layout.mem_blocks_bounds h.1 window hLeft
      omega
    · have hIn := Tiling.mem_blocks_bounds h.2.2 window hRight
      omega

end

mutual

/-- The blocks of a well-formed layout come one after another. -/
theorem Layout.pairwise_blocks : ∀ {layout : Layout}, layout.WellFormed →
    layout.blocks.Pairwise (fun left right => left.stop ≤ right.start)
  | .block _, _ => List.pairwise_singleton _ _
  | .composite _, h => Tiling.pairwise_blocks h
  | .repeated _ _, h => by
    have hBase := Layout.pairwise_blocks h.1
    exact hBase
  | .redirect _ _, _ => List.Pairwise.nil
  | .device _, _ => List.Pairwise.nil

/-- So do those of a row. -/
theorem Tiling.pairwise_blocks : ∀ {parts : Tiling}, parts.WellFormed →
    parts.blocks.Pairwise (fun left right => left.stop ≤ right.start)
  | .last _, h => Layout.pairwise_blocks h
  | .cons part rest, h => by
    refine List.pairwise_append.mpr
      ⟨Layout.pairwise_blocks h.1, Tiling.pairwise_blocks h.2.2, ?_⟩
    intro left hLeft right hRight
    have hEnd := (Layout.mem_blocks_bounds h.1 left hLeft).2
    have hBegin := (Tiling.mem_blocks_bounds h.2.2 right hRight).1
    calc
      left.stop ≤ part.stop := hEnd
      _ = rest.start := h.2.1
      _ ≤ right.start := hBegin

end

/-- An address of two blocks of a well-formed layout is an address of one block. -/
theorem Layout.WellFormed.block_unique {layout : Layout} (h : layout.WellFormed)
    {left right : Window} (hLeft : left ∈ layout.blocks) (hRight : right ∈ layout.blocks)
    {address : Nat} (hInLeft : address ∈ left) (hInRight : address ∈ right) : left = right := by
  have hLeftBounds : left.start ≤ address ∧ address < left.stop := hInLeft
  have hRightBounds : right.start ≤ address ∧ address < right.stop := hInRight
  have hRow := Layout.pairwise_blocks h
  -- The order of the blocks is one-sided; apart they are either way.
  have hApart : left = right ∨ left.stop ≤ right.start ∨ right.stop ≤ left.start := by
    refine List.Pairwise.forall_of_forall_of_flip
      (R := fun v w : Window => v = w ∨ v.stop ≤ w.start ∨ w.stop ≤ v.start)
      (fun window _ => Or.inl rfl) ?_ ?_ hLeft hRight
    · exact hRow.imp fun hOrder => Or.inr (Or.inl hOrder)
    · exact hRow.imp fun hOrder => Or.inr (Or.inr hOrder)
  rcases hApart with hEq | hOrder
  · exact hEq
  · omega

/-! ## Spaces that the constructors build -/

namespace AddressSpace

/-- The spaces that the constructors build, nested in any way and written to in between. -/
inductive Built : AddressSpace → Prop
  | block {start length : Nat} {space : AddressSpace} :
      AddressSpace.block start length = .ok space → Built space
  | ofBytes {start : Nat} {bytes : List UInt8} {space : AddressSpace} :
      AddressSpace.ofBytes start bytes = .ok space → Built space
  | device {start length : Nat} {space : AddressSpace} :
      AddressSpace.device start length = .ok space → Built space
  | composite {parts : List AddressSpace} {space : AddressSpace} :
      (∀ part ∈ parts, Built part) → AddressSpace.composite parts = .ok space → Built space
  | repeated {base : AddressSpace} {times : Nat} {space : AddressSpace} :
      Built base → AddressSpace.repeated base times = .ok space → Built space
  | redirect {target start length : Nat} {space : AddressSpace} :
      AddressSpace.redirect target start length = .ok space → Built space
  | written {space next : AddressSpace} {address : UInt16} {value : UInt8} :
      Built space → space.write address value = .ok next → Built next

/-! Each constructor builds the layout that it checks. -/

theorem layout_of_ofLayout {checked : Except LayoutError Layout} {space : AddressSpace}
    (h : ofLayout <$> checked = .ok space) : checked = .ok space.layout := by
  rcases map_eq_ok_iff.mp h with ⟨layout, hChecked, rfl⟩
  exact hChecked

theorem layout_of_ofBytes {start : Nat} {bytes : List UInt8} {space : AddressSpace}
    (h : ofBytes start bytes = .ok space) :
    Layout.ofBlock start bytes.length = .ok space.layout := by
  rcases bind_eq_ok_iff.mp h with ⟨layout, hChecked, hSpace⟩
  cases hSpace
  exact hChecked

theorem layout_of_composite {parts : List AddressSpace} {space : AddressSpace}
    (h : composite parts = .ok space) :
    Layout.ofParts (parts.map (·.layout)) = .ok space.layout := by
  rcases bind_eq_ok_iff.mp h with ⟨layout, hChecked, hSpace⟩
  cases hSpace
  exact hChecked

theorem layout_of_repeated {base : AddressSpace} {times : Nat} {space : AddressSpace}
    (h : repeated base times = .ok space) :
    Layout.ofRepeated base.layout times = .ok space.layout := by
  rcases bind_eq_ok_iff.mp h with ⟨layout, hChecked, hSpace⟩
  cases hSpace
  exact hChecked

/-- A write leaves the layout as it is. -/
theorem layout_of_write {space next : AddressSpace} {address : UInt16} {value : UInt8}
    (h : space.write address value = .ok next) : next.layout = space.layout := by
  rcases bind_eq_ok_iff.mp h with ⟨place, -, hNext⟩
  cases place with
  | cell cell =>
    cases hNext
    rfl
  | device folded => cases hNext

theorem wellFormed_of_ofBlock {start length : Nat} {layout : Layout}
    (h : Layout.ofBlock start length = .ok layout) : layout.WellFormed := by
  rcases map_eq_ok_iff.mp h with ⟨window, -, rfl⟩
  trivial

theorem wellFormed_of_ofDevice {start length : Nat} {layout : Layout}
    (h : Layout.ofDevice start length = .ok layout) : layout.WellFormed := by
  rcases map_eq_ok_iff.mp h with ⟨window, -, rfl⟩
  trivial

/-- Joining well-formed parts gives a well-formed layout. -/
theorem wellFormed_of_ofParts {parts : List Layout} (hParts : ∀ part ∈ parts, part.WellFormed)
    {layout : Layout} (h : Layout.ofParts parts = .ok layout) : layout.WellFormed := by
  rcases (Layout.ofParts_eq_ok_iff hParts).mp h with ⟨first, rest, hCons, hChain, rfl⟩
  rw [hCons] at hParts hChain
  exact Layout.wellFormed_composite_tile hParts hChain

/-- Repeating a well-formed base gives a well-formed layout, because all of it fits on the bus. -/
theorem wellFormed_of_ofRepeated {base : Layout} (hBase : base.WellFormed) {times : Nat}
    {layout : Layout} (h : Layout.ofRepeated base times = .ok layout) : layout.WellFormed := by
  rcases (Layout.ofRepeated_eq_ok_iff hBase).mp h with ⟨hTimes, hFits, rfl⟩
  have hStop := Layout.stop_repeated hBase.start_lt_stop hTimes
  exact ⟨hBase, hTimes, by omega, by omega⟩

/-- A redirected window and its target lie on the bus and have no address in common. -/
theorem wellFormed_of_ofRedirect {target start length : Nat} {layout : Layout}
    (h : Layout.ofRedirect target start length = .ok layout) : layout.WellFormed := by
  rcases Layout.ofRedirect_eq_ok_iff.mp h with ⟨window, hStart, hStop, hTarget, hApart, rfl⟩
  have hLength : window.length = window.stop - window.start := rfl
  have hLt := window.start_lt_stop
  exact ⟨by omega, by omega⟩

/-- Whatever the constructors build is well formed. -/
theorem Built.wellFormed {space : AddressSpace} (h : space.Built) : space.layout.WellFormed := by
  induction h with
  | block hSpace => exact wellFormed_of_ofBlock (layout_of_ofLayout hSpace)
  | ofBytes hSpace => exact wellFormed_of_ofBlock (layout_of_ofBytes hSpace)
  | device hSpace => exact wellFormed_of_ofDevice (layout_of_ofLayout hSpace)
  | composite _ hSpace ih =>
    exact wellFormed_of_ofParts (List.forall_mem_map.mpr ih) (layout_of_composite hSpace)
  | repeated _ hSpace ih => exact wellFormed_of_ofRepeated ih (layout_of_repeated hSpace)
  | redirect hSpace => exact wellFormed_of_ofRedirect (layout_of_ofLayout hSpace)
  | written _ hWrite ih =>
    rw [layout_of_write hWrite]
    exact ih

end AddressSpace

end NesMachine
