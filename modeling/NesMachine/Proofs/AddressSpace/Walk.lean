import NesMachine.Proofs.AddressSpace.WellFormed

/-!
# The walk of an access

`Layout.walk` goes down a tree without looking back: it takes the first part that stops past the
address, or the last one, and it folds and shifts addresses without asking whether they fit. This
module says what it would have to check on the way and shows that no check can fail.

* `Layout.Arrives`: a walk that makes every check and ends at a leaf.
* `Layout.WellFormed.arrives`: in a well-formed layout, every address of its window has such a walk.
* `Layout.Resolves`: the cell or the device that serves an access, behind at most one redirection.
* `Layout.Fails`: the ways in which an access can fail, and the fault that reports each.
* `Layout.locate_eq_ok_iff`, `Layout.locate_eq_error_iff`: the look-up does exactly this.
-/

namespace NesMachine

namespace Layout

def Covers (layout : Layout) (address : Nat) : Prop :=
  layout.start ≤ address ∧ address < layout.stop

/-- An access that enters `layout` at `address` passes all checks on its way down, and the leaf `node`
sees it at `folded`. -/
inductive Arrives : Layout → Nat → Layout → Nat → Prop
  | block {window : Window} {address : Nat} :
      address ∈ window → Arrives (.block window) address (.block window) address
  | redirect {window : Window} {target address : Nat} :
      address ∈ window →
        Arrives (.redirect window target) address (.redirect window target) address
  | device {window : Window} {address : Nat} :
      address ∈ window → Arrives (.device window) address (.device window) address
  -- The parts before the one taken stop at or before the address, it and those after it stop past the
  -- address: any search for the first such part finds it.
  | composite {parts : Tiling} {index : Nat} {part node : Layout} {address folded : Nat} :
      (Layout.composite parts).Covers address →
      parts.toList[index]? = some part →
      (∀ earlier ∈ parts.toList.take index, earlier.stop ≤ address) →
      (∀ later ∈ parts.toList.drop index, address < later.stop) →
      Arrives part address node folded →
        Arrives (.composite parts) address node folded
  | repeated {base node : Layout} {times address folded : Nat} :
      (Layout.repeated base times).Covers address →
      base.start + (address - base.start) % (base.stop - base.start) < busEnd →
      Arrives base (base.start + (address - base.start) % (base.stop - base.start)) node folded →
        Arrives (.repeated base times) address node folded

end Layout

/-! ## Rows -/

namespace Tiling

/-- Each part of a row lies between the start of the first one and the stop of the last one. -/
theorem stop_le_of_mem : ∀ {parts : Tiling}, parts.WellFormed →
    ∀ part ∈ parts.toList, parts.start ≤ part.start ∧ part.stop ≤ parts.stop
  | .last part, _, other, hMem => by
    have hEq : other = part := by simpa [toList] using hMem
    rw [hEq]
    exact ⟨Nat.le_refl _, Nat.le_refl _⟩
  | .cons part rest, h, other, hMem => by
    have hPart := Layout.WellFormed.bounds h.1
    have hRest := Tiling.WellFormed.bounds h.2.2
    have hMeet : part.stop = rest.start := h.2.1
    simp only [start, stop]
    have hOr : other = part ∨ other ∈ rest.toList := by simpa [toList] using hMem
    rcases hOr with rfl | hTail
    · omega
    · have hIn := stop_le_of_mem h.2.2 other hTail
      omega

/-- A search for the first part that stops past an address cannot end before another one does. -/
theorem not_lt_of_found {parts : List Layout} {address i j : Nat} {part : Layout}
    (hFound : parts[i]? = some part) (hAhead : ∀ later ∈ parts.drop i, address < later.stop)
    (hPassed : ∀ earlier ∈ parts.take j, earlier.stop ≤ address) : ¬i < j := by
  intro hLt
  -- The part that the one search finds would have been passed by the other.
  rcases List.getElem?_eq_some_iff.mp hFound with ⟨hBound, hAt⟩
  have hTake : part ∈ parts.take j :=
    List.mem_take_iff_getElem.mpr ⟨i, by omega, hAt⟩
  have hDrop : part ∈ parts.drop i :=
    List.mem_drop_iff_getElem.mpr ⟨0, by omega, by simpa using hAt⟩
  have hStop := hPassed part hTake
  have hLate := hAhead part hDrop
  omega

/-- In a well-formed row some part takes an address, and it covers it. -/
theorem exists_part : ∀ {parts : Tiling}, parts.WellFormed → ∀ {address : Nat},
    parts.start ≤ address → address < parts.stop →
    ∃ index part, parts.toList[index]? = some part ∧ part.Covers address ∧
      (∀ earlier ∈ parts.toList.take index, earlier.stop ≤ address) ∧
      (∀ later ∈ parts.toList.drop index, address < later.stop) ∧
      parts.walk address = part.walk address
  | .last part, _, address, hStart, hStop => by
    refine ⟨0, part, rfl, ⟨hStart, hStop⟩, ?_, ?_, rfl⟩
    · intro earlier hMem
      cases hMem
    · intro later hMem
      have hEq : later = part := by simpa [toList] using hMem
      rw [hEq]
      exact hStop
  | .cons part rest, h, address, hStart, hStop => by
    -- Either this part is the first that stops past the address, or the rest takes it.
    by_cases hHere : address < part.stop
    · refine ⟨0, part, rfl, ⟨hStart, hHere⟩, ?_, ?_, ?_⟩
      · intro earlier hMem
        cases hMem
      · intro later hMem
        have hOr : later = part ∨ later ∈ rest.toList := by simpa [toList] using hMem
        rcases hOr with rfl | hTail
        · exact hHere
        · -- A later part starts where this one stops, or beyond.
          have hIn := stop_le_of_mem h.2.2 later hTail
          have hLater := ((wellFormed_iff rest).mp h.2.2).1 later hTail
          have hMeet : part.stop = rest.start := h.2.1
          have hLt := hLater.start_lt_stop
          omega
      · simp [walk, hHere]
    · have hPast : part.stop ≤ address := Nat.le_of_not_lt hHere
      have hMeet : part.stop = rest.start := h.2.1
      obtain ⟨index, taken, hFound, hCovers, hPassed, hAhead, hWalk⟩ :=
        exists_part h.2.2 (hMeet ▸ hPast) hStop
      refine ⟨index + 1, taken, hFound, hCovers, ?_, hAhead, ?_⟩
      · intro earlier hMem
        have hOr : earlier = part ∨ earlier ∈ rest.toList.take index := by
          simpa [toList] using hMem
        rcases hOr with rfl | hTail
        · exact hPast
        · exact hPassed earlier hTail
      · rw [walk, if_neg hHere]
        exact hWalk

end Tiling

/-! ## Walks arrive -/

namespace Layout

/-- An address that is folded into a base is covered by it. -/
theorem covers_fold {base : Layout} (h : base.WellFormed) (address : Nat) :
    base.Covers (base.start + (address - base.start) % (base.stop - base.start)) := by
  have hLt := h.start_lt_stop
  have hMod : (address - base.start) % (base.stop - base.start) < base.stop - base.start :=
    Nat.mod_lt _ (by omega)
  exact ⟨Nat.le_add_right _ _, by omega⟩

/-- Every address that a well-formed layout covers has a walk, and it is the one that `walk` takes. -/
theorem WellFormed.arrives {layout : Layout} (h : layout.WellFormed) {address : Nat}
    (hCovers : layout.Covers address) :
    ∃ node folded, layout.Arrives address node folded ∧
      layout.walk address = node.walk folded := by
  induction layout using Layout.tree_induction generalizing address with
  | block window => exact ⟨_, _, .block hCovers, rfl⟩
  | redirect window target => exact ⟨_, _, .redirect hCovers, rfl⟩
  | device window => exact ⟨_, _, .device hCovers, rfl⟩
  | composite parts ih =>
    have hRow : parts.WellFormed := h
    obtain ⟨index, part, hFound, hPart, hPassed, hAhead, hWalk⟩ :=
      Tiling.exists_part hRow hCovers.1 hCovers.2
    have hMem : part ∈ parts.toList := List.mem_of_getElem? hFound
    have hWellFormed := ((Tiling.wellFormed_iff parts).mp hRow).1 part hMem
    rcases ih part hMem hWellFormed hPart with ⟨node, folded, hArrives, hLanding⟩
    refine ⟨node, folded, .composite hCovers hFound hPassed hAhead hArrives, ?_⟩
    calc
      (Layout.composite parts).walk address = parts.walk address := rfl
      _ = part.walk address := hWalk
      _ = node.walk folded := hLanding
  | repeated base times ih =>
    -- A folded address is always one of the base.
    have hFold := covers_fold h.1 address
    rcases ih h.1 hFold with ⟨node, folded, hArrives, hLanding⟩
    have hOnBus := Nat.lt_of_lt_of_le hFold.2 h.1.stop_le_busEnd
    exact ⟨node, folded, .repeated hCovers hOnBus hArrives, hLanding⟩

/-! ## Leaves -/

/-- The checks leave no choice: an access arrives at one leaf, at one address. -/
theorem Arrives.unique {layout node other : Layout} {address folded again : Nat}
    (h : layout.Arrives address node folded) (hOther : layout.Arrives address other again) :
    node = other ∧ folded = again := by
  induction h with
  | block hMem =>
    cases hOther
    exact ⟨rfl, rfl⟩
  | redirect hMem =>
    cases hOther
    exact ⟨rfl, rfl⟩
  | device hMem =>
    cases hOther
    exact ⟨rfl, rfl⟩
  | @composite parts index part node address folded hCovers hFound hPassed hAhead hBelow ih =>
    cases hOther with
    | @composite _ index' part' _ _ _ hCovers' hFound' hPassed' hAhead' hBelow' =>
      -- Two searches for the first part past the address cannot disagree.
      have hNotLt := Tiling.not_lt_of_found hFound hAhead hPassed'
      have hNotGt := Tiling.not_lt_of_found hFound' hAhead' hPassed
      have hSame : index' = index := by omega
      rw [hSame, hFound] at hFound'
      cases hFound'
      exact ih hBelow'
  | repeated hCovers hOnBus hBelow ih =>
    cases hOther with
    | repeated hCovers' hOnBus' hBelow' => exact ih hBelow'

/-- Where the walk of an arrival lands. -/
theorem Arrives.walk_eq {layout node : Layout} {address folded : Nat}
    (h : layout.Arrives address node folded) (hWellFormed : layout.WellFormed)
    (hCovers : layout.Covers address) : layout.walk address = node.walk folded := by
  rcases hWellFormed.arrives hCovers with ⟨other, again, hOther, hWalk⟩
  rcases h.unique hOther with ⟨rfl, rfl⟩
  exact hWalk

/-- Only addresses that a layout covers arrive anywhere in it. -/
theorem Arrives.covers {layout node : Layout} {address folded : Nat}
    (h : layout.Arrives address node folded) : layout.Covers address := by
  cases h with
  | block hMem => exact hMem
  | redirect hMem => exact hMem
  | device hMem => exact hMem
  | composite hCovers => exact hCovers
  | repeated hCovers => exact hCovers

/-- The leaf covers the address that it sees. -/
theorem Arrives.node_covers {layout node : Layout} {address folded : Nat}
    (h : layout.Arrives address node folded) : node.Covers folded := by
  induction h with
  | block hMem => exact hMem
  | redirect hMem => exact hMem
  | device hMem => exact hMem
  | composite _ _ _ _ _ ih => exact ih
  | repeated _ _ _ ih => exact ih

/-- The nodes of a well-formed layout are well formed. -/
theorem Arrives.node_wellFormed {layout node : Layout} {address folded : Nat}
    (h : layout.Arrives address node folded) (hWellFormed : layout.WellFormed) :
    node.WellFormed := by
  induction h with
  | block hMem => exact hWellFormed
  | redirect hMem => exact hWellFormed
  | device hMem => exact hWellFormed
  | @composite parts _ part _ _ _ _ hFound _ _ _ ih =>
    have hRow : parts.WellFormed := hWellFormed
    exact ih (((Tiling.wellFormed_iff parts).mp hRow).1 part (List.mem_of_getElem? hFound))
  | repeated _ _ _ ih => exact ih hWellFormed.1

theorem mem_blocks_of_mem_toList : ∀ {parts : Tiling} {part : Layout}, part ∈ parts.toList →
    ∀ {window : Window}, window ∈ part.blocks → window ∈ parts.blocks
  | .last part, other, hMem, window, hWindow => by
    have hEq : other = part := by simpa [Tiling.toList] using hMem
    rw [hEq] at hWindow
    exact hWindow
  | .cons part rest, other, hMem, window, hWindow => by
    have hOr : other = part ∨ other ∈ rest.toList := by simpa [Tiling.toList] using hMem
    rcases hOr with rfl | hTail
    · exact List.mem_append_left _ hWindow
    · exact List.mem_append_right _ (mem_blocks_of_mem_toList hTail hWindow)

/-- The blocks of the node that is arrived at are blocks of the layout. -/
theorem Arrives.mem_blocks {layout node : Layout} {address folded : Nat}
    (h : layout.Arrives address node folded) {window : Window} (hBlock : window ∈ node.blocks) :
    window ∈ layout.blocks := by
  induction h with
  | block hMem => exact hBlock
  | redirect hMem => exact hBlock
  | device hMem => exact hBlock
  | composite _ hFound _ _ _ ih =>
    exact mem_blocks_of_mem_toList (List.mem_of_getElem? hFound) (ih hBlock)
  | repeated _ _ _ ih => exact ih hBlock

/-! ## What an access comes to -/

/-- One walk ends at storage or at a device, in the given window. -/
inductive Serves (layout : Layout) (address : Nat) : Window → Place → Prop
  | cell {window : Window} {folded : Nat} :
      layout.Arrives address (.block window) folded → Serves layout address window (.cell folded)
  | device {window : Window} {folded : Nat} :
      layout.Arrives address (.device window) folded →
        Serves layout address window (.device folded)

/-- Storage or a device serves the access, behind at most one redirection. -/
inductive Resolves (layout : Layout) (address : Nat) : Window → Place → Prop
  | direct {window : Window} {place : Place} :
      layout.Serves address window place → Resolves layout address window place
  | redirected {shown window : Window} {target folded : Nat} {place : Place} :
      layout.Arrives address (.redirect shown target) folded →
      layout.Serves (target + (folded - shown.start)) window place →
        Resolves layout address window place

/-- The access fails with the given fault. -/
inductive Fails (layout : Layout) (address : Nat) : Fault → Prop
  | outside :
      ¬layout.Covers address → Fails layout address (.outside address layout.start layout.stop)
  | shownOutside {shown : Window} {target folded : Nat} :
      layout.Arrives address (.redirect shown target) folded →
      ¬layout.Covers (target + (folded - shown.start)) →
        Fails layout address
          (.outside (target + (folded - shown.start)) layout.start layout.stop)
  | chained {shown again : Window} {target next folded refolded : Nat} :
      layout.Arrives address (.redirect shown target) folded →
      layout.Arrives (target + (folded - shown.start)) (.redirect again next) refolded →
        Fails layout address (.chainedRedirect address (target + (folded - shown.start)))

section Lookup

variable {layout : Layout} {address : Nat}

theorem land_of_covers (h : layout.Covers address) :
    layout.land address = .ok (layout.walk address) :=
  if_pos h

theorem land_of_not_covers (h : ¬layout.Covers address) :
    layout.land address = .error (.outside address layout.start layout.stop) :=
  if_neg h

/-- A walk that serves an access lands at its place. -/
theorem Serves.land_eq (hWellFormed : layout.WellFormed) {window : Window} {place : Place}
    (h : layout.Serves address window place) : layout.land address = .ok (.place place) := by
  cases h with
  | cell hArrives =>
    rw [land_of_covers hArrives.covers, hArrives.walk_eq hWellFormed hArrives.covers, walk]
  | device hArrives =>
    rw [land_of_covers hArrives.covers, hArrives.walk_eq hWellFormed hArrives.covers, walk]

/-- An access to a redirected window lands at the same offset behind the target. -/
theorem Arrives.land_redirect (hWellFormed : layout.WellFormed) {shown : Window}
    {target folded : Nat} (h : layout.Arrives address (.redirect shown target) folded) :
    layout.land address = .ok (.redirect (target + (folded - shown.start))) := by
  rw [land_of_covers h.covers, h.walk_eq hWellFormed h.covers, walk]

/-- A walk ends at storage, at a device or at a redirected window. -/
theorem WellFormed.serves_or_redirects (hWellFormed : layout.WellFormed)
    (hCovers : layout.Covers address) :
    (∃ window place, layout.Serves address window place) ∨
      ∃ shown target folded, layout.Arrives address (.redirect shown target) folded := by
  rcases hWellFormed.arrives hCovers with ⟨node, folded, hArrives, -⟩
  -- A walk does not stop at a composite or a repetition.
  have hLeaf : (∃ window, node = .block window) ∨ (∃ window, node = .device window) ∨
      ∃ shown target, node = .redirect shown target := by
    clear hCovers hWellFormed
    induction hArrives with
    | block _ => exact .inl ⟨_, rfl⟩
    | redirect _ => exact .inr (.inr ⟨_, _, rfl⟩)
    | device _ => exact .inr (.inl ⟨_, rfl⟩)
    | composite _ _ _ _ _ ih => exact ih
    | repeated _ _ _ ih => exact ih
  rcases hLeaf with ⟨window, rfl⟩ | ⟨window, rfl⟩ | ⟨shown, target, rfl⟩
  · exact .inl ⟨window, _, .cell hArrives⟩
  · exact .inl ⟨window, _, .device hArrives⟩
  · exact .inr ⟨shown, target, folded, hArrives⟩

/-- A look-up finds the place that serves the access. -/
theorem Resolves.locate_eq (hWellFormed : layout.WellFormed) {window : Window} {place : Place}
    (h : layout.Resolves address window place) : layout.locate address = .ok place := by
  cases h with
  | direct hServes => exact locate_of_place (hServes.land_eq hWellFormed)
  | redirected hArrives hServes =>
    exact locate_of_redirect (hArrives.land_redirect hWellFormed) (hServes.land_eq hWellFormed)

/-- A look-up fails with the fault of the access. -/
theorem Fails.locate_eq (hWellFormed : layout.WellFormed) {fault : Fault}
    (h : layout.Fails address fault) : layout.locate address = .error fault := by
  cases h with
  | outside hCovers => rw [locate, land_of_not_covers hCovers]
  | shownOutside hArrives hCovers =>
    simp only [locate, hArrives.land_redirect hWellFormed, land_of_not_covers hCovers]
  | chained hArrives hAgain =>
    simp only [locate, hArrives.land_redirect hWellFormed, hAgain.land_redirect hWellFormed]

/-- Every access resolves or fails. -/
theorem WellFormed.resolves_or_fails (hWellFormed : layout.WellFormed) (address : Nat) :
    (∃ window place, layout.Resolves address window place) ∨
      ∃ fault, layout.Fails address fault := by
  by_cases hCovers : layout.Covers address
  · -- A first walk, and a second one if the first is redirected.
    rcases hWellFormed.serves_or_redirects hCovers with
      ⟨window, place, hServes⟩ | ⟨shown, target, folded, hArrives⟩
    · exact .inl ⟨window, place, .direct hServes⟩
    · by_cases hNext : layout.Covers (target + (folded - shown.start))
      · rcases hWellFormed.serves_or_redirects hNext with
          ⟨window, place, hServes⟩ | ⟨again, next, refolded, hAgain⟩
        · exact .inl ⟨window, place, .redirected hArrives hServes⟩
        · exact .inr ⟨_, .chained hArrives hAgain⟩
      · exact .inr ⟨_, .shownOutside hArrives hNext⟩
  · exact .inr ⟨_, .outside hCovers⟩

/-- The look-up finds exactly the places that serve an access. -/
theorem locate_eq_ok_iff (hWellFormed : layout.WellFormed) {place : Place} :
    layout.locate address = .ok place ↔ ∃ window, layout.Resolves address window place := by
  constructor
  · -- The look-up answers, so the access does not fail, and it comes to the place of the answer.
    intro h
    rcases hWellFormed.resolves_or_fails address with ⟨window, other, hResolves⟩ | ⟨fault, hFails⟩
    · have hOther := hResolves.locate_eq hWellFormed
      rw [h] at hOther
      cases hOther
      exact ⟨window, hResolves⟩
    · have hError := hFails.locate_eq hWellFormed
      rw [h] at hError
      cases hError
  · rintro ⟨window, hResolves⟩
    exact hResolves.locate_eq hWellFormed

/-- The look-up fails exactly in the ways that `Fails` lists. -/
theorem locate_eq_error_iff (hWellFormed : layout.WellFormed) {fault : Fault} :
    layout.locate address = .error fault ↔ layout.Fails address fault := by
  constructor
  · intro h
    rcases hWellFormed.resolves_or_fails address with ⟨window, place, hResolves⟩ | ⟨other, hFails⟩
    · have hOk := hResolves.locate_eq hWellFormed
      rw [h] at hOk
      cases hOk
    · have hOther := hFails.locate_eq hWellFormed
      rw [h] at hOther
      cases hOther
      exact hFails
  · intro hFails
    exact hFails.locate_eq hWellFormed

end Lookup

end Layout

end NesMachine
