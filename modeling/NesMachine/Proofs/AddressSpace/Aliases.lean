import Mathlib.Data.Nat.ModEq
import NesMachine.Proofs.AddressSpace.Frame

/-!
# Aliases

Two addresses are aliases when no access can tell them apart. A repeated window makes aliases of all
addresses that are a whole number of bases apart, and a redirected window makes one of each of its addresses
and the address that it shows. The redirection is found with the folded address and starts again at the root,
so it may stand within a repetition, or the repetition within another one.

* `Layout.land_repeated_congr`: one walk does not tell the repeats of an address apart.
* `Layout.locate_alike`: two walks do not either, but that a fault names the address that was accessed.
* `AddressSpace.SameAccess`, `AddressSpace.Refuses`: what an access at one address says about another.
* `AddressSpace.aliases_are_exact`: repeats and redirections of any tree.
-/

namespace NesMachine

namespace Layout

/-! ## Nodes of a tree -/

inductive Contains : Layout → Layout → Prop
  | self {layout : Layout} : Contains layout layout
  | part {parts : Tiling} {part node : Layout} :
      part ∈ parts.toList → Contains part node → Contains (.composite parts) node
  | base {base node : Layout} {times : Nat} :
      Contains base node → Contains (.repeated base times) node

def Plain (layout : Layout) : Prop :=
  ∀ window target, ¬layout.Contains (.redirect window target)

/-- A walk from the root ends at a redirected window. -/
def Redirects (layout : Layout) (address : Nat) : Prop :=
  ∃ window target folded, layout.Arrives address (.redirect window target) folded

/-- The node that an access arrives at stands within the layout. -/
theorem Arrives.contains {layout node : Layout} {address folded : Nat}
    (h : layout.Arrives address node folded) : layout.Contains node := by
  induction h with
  | block _ => exact .self
  | redirect _ => exact .self
  | device _ => exact .self
  | composite _ hFound _ _ _ ih => exact .part (List.mem_of_getElem? hFound) ih
  | repeated _ _ _ ih => exact .base ih

section Walk

variable {layout base : Layout} {times a b next : Nat}

/-! ## One walk -/

/-- A walk that is not redirected ends at a place. -/
theorem WellFormed.exists_place (h : layout.WellFormed) (hCovers : layout.Covers a)
    (hDirect : ¬layout.Redirects a) : ∃ place, layout.land a = .ok (.place place) := by
  rcases h.serves_or_redirects hCovers with ⟨window, place, hServes⟩ | hRedirects
  · exact ⟨place, hServes.land_eq h⟩
  · exact absurd hRedirects hDirect

theorem Redirects.exists_land (h : layout.WellFormed) (hRedirects : layout.Redirects a) :
    ∃ next, layout.land a = .ok (.redirect next) := by
  rcases hRedirects with ⟨window, target, folded, hArrives⟩
  exact ⟨_, hArrives.land_redirect h⟩

/-- Within a layout without redirected windows, every walk ends at a place. -/
theorem Plain.not_redirects (h : layout.Plain) : ¬layout.Redirects a := by
  rintro ⟨window, target, folded, hArrives⟩
  exact h window target hArrives.contains

/-- Addresses that are a whole number of bases apart fold to one address. -/
theorem fold_congr (hA : (Layout.repeated base times).Covers a)
    (hB : (Layout.repeated base times).Covers b)
    (hSame : a % (base.stop - base.start) = b % (base.stop - base.start)) :
    (a - base.start) % (base.stop - base.start) = (b - base.start) % (base.stop - base.start) := by
  have hStartA : base.start ≤ a := hA.1
  have hStartB : base.start ≤ b := hB.1
  have hSum : (a - base.start + base.start) ≡ (b - base.start + base.start)
      [MOD base.stop - base.start] := by
    rw [Nat.sub_add_cancel hStartA, Nat.sub_add_cancel hStartB]
    exact hSame
  exact hSum.add_right_cancel'

/-- One walk does not tell the repeats of an address apart. -/
theorem land_repeated_congr (hA : (Layout.repeated base times).Covers a)
    (hB : (Layout.repeated base times).Covers b)
    (hSame : a % (base.stop - base.start) = b % (base.stop - base.start)) :
    (Layout.repeated base times).land a = (Layout.repeated base times).land b := by
  rw [land_of_covers hA, land_of_covers hB, walk, walk, fold_congr hA hB hSame]

/-! ## Up to two walks -/

theorem locate_of_land_error {fault : Fault} (h : layout.land a = .error fault) :
    layout.locate a = .error fault := by
  rw [locate, h]

theorem locate_of_outside (h : layout.land a = .ok (.redirect next)) {fault : Fault}
    (hNext : layout.land next = .error fault) : layout.locate a = .error fault := by
  simp only [locate, h, hNext]

/-- A redirection that leads to another redirected window is refused with both addresses. -/
theorem locate_of_chain (h : layout.land a = .ok (.redirect next)) {further : Nat}
    (hNext : layout.land next = .ok (.redirect further)) :
    layout.locate a = .error (.chainedRedirect a next) := by
  simp only [locate, h, hNext]

/-- What one walk does not tell apart, a look-up does not either, but that the fault of a chain names the
address that was accessed. -/
theorem locate_alike (h : layout.land a = layout.land b) :
    layout.locate a = layout.locate b ∨
      ∃ next, layout.locate a = .error (.chainedRedirect a next) ∧
        layout.locate b = .error (.chainedRedirect b next) := by
  cases hLand : layout.land b with
  | error fault =>
    left
    rw [locate_of_land_error (h.trans hLand), locate_of_land_error hLand]
  | ok landing =>
    cases landing with
    | place place =>
      left
      rw [locate_of_place (h.trans hLand), locate_of_place hLand]
    | redirect next =>
      -- The second walk is the same one.
      cases hNext : layout.land next with
      | error fault =>
        left
        rw [locate_of_outside (h.trans hLand) hNext, locate_of_outside hLand hNext]
      | ok again =>
        cases again with
        | place place =>
          left
          rw [locate_of_redirect (h.trans hLand) hNext, locate_of_redirect hLand hNext]
        | redirect further =>
          exact .inr ⟨next, locate_of_chain (h.trans hLand) hNext, locate_of_chain hLand hNext⟩

/-- A redirected look-up is the look-up of the address that it shows, if that is not redirected again. -/
theorem locate_redirect_eq (h : layout.WellFormed) (hLand : layout.land a = .ok (.redirect next))
    (hDirect : ¬layout.Redirects next) : layout.locate a = layout.locate next := by
  by_cases hCovers : layout.Covers next
  · rcases h.exists_place hCovers hDirect with ⟨place, hPlace⟩
    rw [locate_of_redirect hLand hPlace, locate_of_place hPlace]
  · have hOutside := land_of_not_covers hCovers
    rw [locate_of_outside hLand hOutside, locate_of_land_error hOutside]

/-- Two redirections in a row are refused wherever the window stands in the tree. -/
theorem locate_redirect_eq_error (h : layout.WellFormed)
    (hLand : layout.land a = .ok (.redirect next)) (hAgain : layout.Redirects next) :
    layout.locate a = .error (.chainedRedirect a next) := by
  rcases hAgain.exists_land h with ⟨further, hNext⟩
  exact locate_of_chain hLand hNext

/-- A repeated layout without redirected windows is looked up in its base. -/
theorem locate_repeated_eq (h : (Layout.repeated base times).WellFormed) (hPlain : base.Plain)
    (hA : (Layout.repeated base times).Covers a) :
    (Layout.repeated base times).locate a =
      base.locate (base.start + (a - base.start) % (base.stop - base.start)) := by
  have hFold := covers_fold h.1 a
  rcases h.1.exists_place hFold hPlain.not_redirects with ⟨place, hPlace⟩
  have hLand : (Layout.repeated base times).land a = .ok (.place place) := by
    rw [land_of_covers hA, walk, ← hPlace, land_of_covers hFold]
  rw [locate_of_place hLand, locate_of_place hPlace]

end Walk

end Layout

namespace AddressSpace

/-! ## Accesses -/

/-- Every access at the one address does and returns what it does and returns at the other: it comes to the
same place or fails with the same fault, and leaves the same space and the same device. -/
structure SameAccess (space : AddressSpace) (a b : UInt16) : Prop where
  place : space.locate a = space.locate b
  read : space.read a = space.read b
  write : ∀ value, space.write a value = space.write b value
  readVia : ∀ (δ : Type) [Device δ] (device : δ), space.readVia a device = space.readVia b device
  writeVia : ∀ (δ : Type) [Device δ] (device : δ) (value : UInt8),
    space.writeVia a value device = space.writeVia b value device

structure Refuses (space : AddressSpace) (a : UInt16) (fault : Fault) : Prop where
  place : space.locate a = .error fault
  read : space.read a = .error fault
  write : ∀ value, space.write a value = .error fault
  readVia : ∀ (δ : Type) [Device δ] (device : δ), space.readVia a device = .error fault
  writeVia : ∀ (δ : Type) [Device δ] (device : δ) (value : UInt8),
    space.writeVia a value device = .error fault

section Access

variable {space : AddressSpace} {a b : UInt16}

/-- Addresses with one look-up share every access, for reads and writes depend on it alone. -/
theorem sameAccess_of_locate (h : space.locate a = space.locate b) : space.SameAccess a b where
  place := h
  read := by rw [read, read, h]
  write value := by rw [write, write, h]
  readVia δ _ device := by rw [readVia, readVia, h]
  writeVia δ _ device value := by rw [writeVia, writeVia, h]

theorem refuses_of_locate {fault : Fault} (h : space.locate a = .error fault) :
    space.Refuses a fault where
  place := h
  read := by
    rw [read, h]
    rfl
  write value := by
    rw [write, h]
    rfl
  readVia δ _ device := readVia_eq_error_iff.mpr h
  writeVia δ _ device value := writeVia_eq_error_iff.mpr h

end Access

/-! ## Repetitions -/

/-- The space shows the base so many times: its tree is the repetition of the tree of the base, and both
hold the same bytes. -/
structure RepeatOf (space base : AddressSpace) (times : Nat) : Prop where
  layout : space.layout = .repeated base.layout times
  cells : space.cells = base.cells

/-- A space that was made by repetition shows its base. -/
theorem repeatOf_of_repeated {space base : AddressSpace} {times : Nat}
    (h : repeated base times = .ok space) : space.RepeatOf base times := by
  rcases bind_eq_ok_iff.mp h with ⟨layout, hLayout, hSpace⟩
  cases hSpace
  refine ⟨?_, rfl⟩
  -- The constructor only checks the repetition, and passes it on as it is.
  by_cases hTimes : times = 0
  · simp [Layout.ofRepeated, hTimes] at hLayout
  · rw [Layout.ofRepeated, if_neg hTimes] at hLayout
    rcases bind_eq_ok_iff.mp hLayout with ⟨window, -, hWhole⟩
    cases hWhole
    rfl

def length (space : AddressSpace) : Nat :=
  space.layout.stop - space.layout.start

namespace RepeatOf

variable {space base : AddressSpace} {times : Nat} {a b : UInt16}

/-- Repeats of an address are aliases, or both fail for a chain of redirections. -/
theorem alike (h : space.RepeatOf base times) (hA : space.layout.Covers a.toNat)
    (hB : space.layout.Covers b.toNat) (hSame : a.toNat % base.length = b.toNat % base.length) :
    space.SameAccess a b ∨
      ∃ next, space.Refuses a (.chainedRedirect a.toNat next) ∧
        space.Refuses b (.chainedRedirect b.toNat next) := by
  have hLand : space.layout.land a.toNat = space.layout.land b.toNat := by
    rw [h.layout] at hA hB ⊢
    exact Layout.land_repeated_congr hA hB hSame
  rcases Layout.locate_alike hLand with hPlace | ⟨next, hFaultA, hFaultB⟩
  · exact .inl (sameAccess_of_locate hPlace)
  · exact .inr ⟨next, refuses_of_locate hFaultA, refuses_of_locate hFaultB⟩

/-- A read of a repetition without redirected windows is a read of its base. -/
theorem readVia_eq (h : space.RepeatOf base times) (hWellFormed : space.layout.WellFormed)
    (hPlain : base.layout.Plain) (hA : space.layout.Covers a.toNat) {folded : UInt16}
    (hFolded : folded.toNat =
      base.layout.start + (a.toNat - base.layout.start) % base.length)
    {δ : Type} [Device δ] (device : δ) : space.readVia a device = base.readVia folded device := by
  have hPlace : space.locate a = base.locate folded := by
    rw [h.layout] at hWellFormed hA
    rw [locate, locate, h.layout, Layout.locate_repeated_eq hWellFormed hPlain hA, hFolded]
    rfl
  rw [readVia, readVia, hPlace, h.cells]

end RepeatOf

/-- **Aliases are exact.** Take any tree that the constructors build.

If it is a repetition, no access tells two of its addresses apart that are congruent modulo the length of
the base, but that the fault of a chain of redirections names the address that was accessed; and if no
window of the base is redirected, a read is the read of the base at the folded address.

If the walk from an address comes to the `i`-th address of a redirected window, the address that it shows is
on the bus, and an access is the access there, unless that is redirected again; then it fails. -/
theorem aliases_are_exact {space : AddressSpace} (hBuilt : space.Built) :
    (∀ base times, repeated base times = .ok space → space.RepeatOf base times) ∧
    (∀ base times, space.RepeatOf base times →
      (∀ a b : UInt16, space.layout.Covers a.toNat → space.layout.Covers b.toNat →
        a.toNat % base.length = b.toNat % base.length →
        space.SameAccess a b ∨
          ∃ next, space.Refuses a (.chainedRedirect a.toNat next) ∧
            space.Refuses b (.chainedRedirect b.toNat next)) ∧
      (base.layout.Plain → ∀ a : UInt16, space.layout.Covers a.toNat →
        ∃ folded : UInt16,
          folded.toNat = base.layout.start + (a.toNat - base.layout.start) % base.length ∧
          ∀ (δ : Type) [Device δ] (device : δ),
            space.readVia a device = base.readVia folded device)) ∧
    (∀ (a : UInt16) (window : Window) (target i : Nat),
      space.layout.Arrives a.toNat (.redirect window target) (window.start + i) →
      ∃ shown : UInt16, shown.toNat = target + i ∧
        (¬space.layout.Redirects shown.toNat → space.SameAccess a shown) ∧
        (space.layout.Redirects shown.toNat →
          space.Refuses a (.chainedRedirect a.toNat shown.toNat))) := by
  have hWellFormed := hBuilt.wellFormed
  refine ⟨fun _ _ => repeatOf_of_repeated, ?_, ?_⟩
  · -- A repetition.
    intro base times hRepeat
    refine ⟨fun a b hA hB hSame => hRepeat.alike hA hB hSame, ?_⟩
    intro hPlain a hA
    have hBase : base.layout.WellFormed := by
      rw [hRepeat.layout] at hWellFormed
      exact hWellFormed.1
    have hFold := Layout.covers_fold hBase a.toNat
    have hOnBus : (UInt16.ofNat (base.layout.start +
        (a.toNat - base.layout.start) % base.length)).toNat = _ :=
      UInt16.toNat_ofNat_of_lt' (Nat.lt_of_lt_of_le hFold.2 hBase.stop_le_busEnd)
    exact ⟨_, hOnBus, fun δ _ device => hRepeat.readVia_eq hWellFormed hPlain hA hOnBus device⟩
  · -- A redirected window, whose target lies on the bus, so that it is an address of its own.
    intro a window target i hArrives
    have hLand := hArrives.land_redirect hWellFormed
    have hShown := (sound_of_wellFormed hWellFormed).shown_lt _ _ _ _ hArrives
    rw [Nat.add_sub_cancel_left] at hLand hShown
    have hOnBus : (UInt16.ofNat (target + i)).toNat = target + i := UInt16.toNat_ofNat_of_lt' hShown
    refine ⟨_, hOnBus, ?_, ?_⟩
    · intro hDirect
      rw [hOnBus] at hDirect
      have hPlace : space.layout.locate a.toNat = space.layout.locate (target + i) :=
        Layout.locate_redirect_eq hWellFormed hLand hDirect
      refine sameAccess_of_locate ?_
      rw [locate, locate, hOnBus, hPlace]
    · intro hAgain
      rw [hOnBus] at hAgain ⊢
      exact refuses_of_locate (Layout.locate_redirect_eq_error hWellFormed hLand hAgain)

/-- A block from `$20` on and a window that shows it once more, the two of them twice. -/
def shownWithinRepeat : Layout :=
  .repeated
    (.composite <|
      .cons (.block { start := 0x20, stop := 0x30 }) <|
      .last (.redirect { start := 0x30, stop := 0x40 } 0x20))
    2

/-- The window in the second repeat is an alias of the window in the first one, and both of the block. -/
theorem aliases_of_window_within_repeat :
    ∃ tiles shown base space, block 0x20 0x10 = .ok tiles ∧ redirect 0x20 0x30 0x10 = .ok shown ∧
      composite [tiles, shown] = .ok base ∧ repeated base 2 = .ok space ∧
      space.SameAccess 0x55 0x35 ∧ space.SameAccess 0x55 0x25 := by
  let tiles : Layout := .block { start := 0x20, stop := 0x30 }
  let shown : Layout := .redirect { start := 0x30, stop := 0x40 } 0x20
  let parts : Tiling := .cons tiles (.last shown)
  let base : Layout := .composite parts
  have hFirst : parts.toList[0]? = some tiles := rfl
  have hSecond : parts.toList[1]? = some shown := rfl
  have hParts : Layout.ofParts [tiles, shown] = .ok base := by decide
  have hTiles : block 0x20 0x10 = .ok (ofLayout tiles) := rfl
  have hShown : redirect 0x20 0x30 0x10 = .ok (ofLayout shown) := rfl
  have hBase : composite [ofLayout tiles, ofLayout shown] = .ok (ofLayout base) :=
    composite_eq_ok hParts
  have hSpace : repeated (ofLayout base) 2 = .ok (ofLayout shownWithinRepeat) :=
    repeated_eq_ok (by decide)
  have hBuilt : ∀ part ∈ [ofLayout tiles, ofLayout shown], part.Built := by
    intro part hMem
    rcases List.mem_pair.mp hMem with rfl | rfl
    · exact .block hTiles
    · exact .redirect hShown
  obtain ⟨hRepeat, hAlike, hRedirect⟩ :=
    aliases_are_exact (.repeated (.composite hBuilt hBase) hSpace)
  refine ⟨_, _, _, _, hTiles, hShown, hBase, hSpace, ?_, ?_⟩
  · rcases (hAlike _ 2 (hRepeat _ 2 hSpace)).1 0x55 0x35 ⟨by decide, by decide⟩
      ⟨by decide, by decide⟩ (by decide) with hSame | ⟨next, hRefuses, -⟩
    · exact hSame
    · -- The other case would make the window lead to another one, which the tree does not have.
      cases hRefuses.place
  · have hWindow : shownWithinRepeat.Arrives 0x55 shown (0x30 + 5) :=
      .repeated ⟨by decide, by decide⟩ (by decide)
        (.composite ⟨by decide, by decide⟩ hSecond (by decide) (by decide)
          (.redirect ⟨by decide, by decide⟩))
    have hBlock : shownWithinRepeat.Arrives 0x25 tiles 0x25 :=
      .repeated ⟨by decide, by decide⟩ (by decide)
        (.composite ⟨by decide, by decide⟩ hFirst (by decide) (by decide)
          (.block ⟨by decide, by decide⟩))
    obtain ⟨address, hAddress, hSame, -⟩ := hRedirect 0x55 _ _ 5 hWindow
    obtain rfl : address = 0x25 := UInt16.toNat_inj.mp hAddress
    refine hSame ?_
    -- The address of the block arrives at the block, so it is not redirected again.
    rintro ⟨window, target, folded, hOther⟩
    have hNode : Layout.block _ = Layout.redirect window target := (hBlock.unique hOther).1
    cases hNode

end AddressSpace

end NesMachine
