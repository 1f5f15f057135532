import Mathlib.Data.Nat.SuccPred
import NesMachine.Proofs.AddressSpace.Aliases

/-!
# Loads

A load writes byte after byte, and each of these writes is checked as a single one is. Its addresses are words,
so the address after `$FFFF` is `$0000`: in a space that covers the whole bus no check stops a load there, and it
goes on at the bottom. Two addresses of a load may share a cell; then the byte that came last stays.

* `Word.ahead`: the addresses of a load.
* `AddressSpace.load_eq_none_iff`, `AddressSpace.refuses_of_load`: where a load ends.
* `AddressSpace.read_load_of_apart`, `AddressSpace.read_load_of_last`: what it leaves in the cells.
* `AddressSpace.loads_check_every_byte`: all of this for the spaces that the constructors build.
* `AddressSpace.load_wraps_past_the_end`: a load that runs over the end of its space.
-/

namespace NesMachine

/-! ## Addresses in a row -/

/-- The address so many places after a word, where `$0000` follows `$FFFF`. -/
def Word.ahead (word : UInt16) (k : Nat) : UInt16 :=
  UInt16.ofNat (word.toNat + k)

section Ahead

variable (word : UInt16) (k : Nat)

theorem Word.toNat_ahead : (ahead word k).toNat = (word.toNat + k) % 0x10000 :=
  UInt16.toNat_ofNat'

theorem Word.ahead_zero : ahead word 0 = word :=
  UInt16.ofNat_toNat

/-- The address `k + 1` places on is `k` places on from the next one. -/
theorem Word.ahead_succ : ahead word (k + 1) = ahead (word + 1) k := by
  rw [← UInt16.toNat_inj, toNat_ahead, toNat_ahead, UInt16.toNat_add, Nat.mod_add_mod,
    Nat.add_assoc, Nat.add_comm k]
  rfl

end Ahead

namespace AddressSpace

/-! ## One byte -/

def Stores (space : AddressSpace) (address : UInt16) : Prop :=
  ∃ cell, space.locate address = .ok (.cell cell)

def SameCell (space : AddressSpace) (a b : UInt16) : Prop :=
  ∃ cell, space.locate a = .ok (.cell cell) ∧ space.locate b = .ok (.cell cell)

section Byte

variable {space next : AddressSpace} {a b : UInt16} {value : UInt8}

theorem Stores.sameCell (h : space.Stores a) : space.SameCell a a := by
  rcases h with ⟨cell, hCell⟩
  exact ⟨cell, hCell, hCell⟩

/-- Storage accepts every byte. -/
theorem Stores.exists_write (h : space.Stores a) (value : UInt8) :
    ∃ next, space.write a value = .ok next := by
  rcases h with ⟨cell, hCell⟩
  refine ⟨{ space with cells := space.cells.set cell value }, ?_⟩
  rw [write, hCell]
  rfl

/-- A write without a device succeeds at storage only. -/
theorem stores_of_write (h : space.write a value = .ok next) : space.Stores a := by
  rcases bind_eq_ok_iff.mp h with ⟨place, hPlace, hNext⟩
  cases place with
  | cell cell => exact ⟨cell, hPlace⟩
  | device folded => cases hNext

/-- Without storage every write fails, and all in the same way. -/
theorem exists_write_fault (h : ¬space.Stores a) : ∃ fault, ∀ value, space.write a value = .error fault := by
  cases hPlace : space.locate a with
  | error fault =>
    refine ⟨fault, fun value => ?_⟩
    rw [write, hPlace]
    rfl
  | ok place =>
    cases place with
    | cell cell => exact absurd ⟨cell, hPlace⟩ h
    | device folded =>
      refine ⟨.detachedWrite folded, fun value => ?_⟩
      rw [write, hPlace]
      rfl

/-- A write leaves every address where it is. -/
theorem locate_of_write (h : space.write a value = .ok next) (address : UInt16) :
    next.locate address = space.locate address := by
  rw [locate, locate, layout_of_write h]

/-- A write moves no storage: the same addresses have a cell behind them afterwards. -/
theorem stores_of_write_iff (h : space.write a value = .ok next) (address : UInt16) :
    next.Stores address ↔ space.Stores address := by
  rw [Stores, Stores, locate_of_write h]

/-- Nor does it change which addresses share a cell. -/
theorem sameCell_of_write_iff (h : space.write a value = .ok next) (address other : UInt16) :
    next.SameCell address other ↔ space.SameCell address other := by
  rw [SameCell, SameCell, locate_of_write h, locate_of_write h]

/-- Nor does it change which writes are refused, and with which fault. -/
theorem write_eq_error_of_write_iff (h : space.write a value = .ok next) {other : UInt8} {fault : Fault} :
    next.write b other = .error fault ↔ space.write b other = .error fault := by
  rw [write, write, locate_of_write h]
  cases space.locate b with
  | error reason => exact Iff.rfl
  | ok place =>
    cases place with
    | device folded => exact Iff.rfl
    | cell cell =>
      constructor
      · intro hError
        cases hError
      · intro hError
        cases hError

/-- A write changes one cell of the store. -/
theorem cells_of_write {cell : Nat} (h : space.write a value = .ok next)
    (hCell : space.locate a = .ok (.cell cell)) : next.cells = space.cells.set cell value := by
  rw [write, hCell] at h
  cases h
  rfl

theorem read_of_cell {cell : Nat} (h : space.locate a = .ok (.cell cell)) :
    space.read a = .ok (space.cells.get cell) := by
  rw [read, h]
  rfl

/-- A byte that is written is read at every address of its cell. -/
theorem read_of_write_of_sameCell (h : space.write a value = .ok next) (hSame : space.SameCell a b) :
    next.read b = .ok value := by
  rcases hSame with ⟨cell, hCell, hOther⟩
  rw [read_of_cell ((locate_of_write h b).trans hOther), cells_of_write h hCell, Ram.get_set, if_pos rfl]

/-- The cell of a look-up is one of the store, so two cells are apart when their numbers are. -/
theorem cell_lt_of_locate (hWellFormed : space.layout.WellFormed) {cell : Nat}
    (h : space.locate a = .ok (.cell cell)) : cell < 2 ^ 16 := by
  rcases (Layout.locate_eq_ok_iff hWellFormed).mp h with ⟨window, hResolves⟩
  exact lt_of_mem_window hResolves.cell_mem.2

/-- A write is not seen at an address of another cell. -/
theorem read_of_write_of_not_sameCell (hWellFormed : space.layout.WellFormed)
    (h : space.write a value = .ok next) (hApart : ¬space.SameCell a b) : next.read b = space.read b := by
  rcases stores_of_write h with ⟨cell, hCell⟩
  cases hPlace : space.locate b with
  | error fault => rw [read, read, locate_of_write h, hPlace]; rfl
  | ok place =>
    cases place with
    | device folded => rw [read, read, locate_of_write h, hPlace]; rfl
    | cell other =>
      have hNe : cell ≠ other := by
        rintro rfl
        exact hApart ⟨cell, hCell, hPlace⟩
      rw [read_of_cell hPlace, read_of_cell ((locate_of_write h b).trans hPlace), cells_of_write h hCell,
        Ram.get_set, Nat.mod_eq_of_lt (cell_lt_of_locate hWellFormed hCell),
        Nat.mod_eq_of_lt (cell_lt_of_locate hWellFormed hPlace), if_neg hNe]

/-- Only addresses that the space covers have storage behind them. -/
theorem Stores.covers (h : space.Stores a) : space.layout.Covers a.toNat := by
  rcases h with ⟨cell, hCell⟩
  by_contra hOutside
  have hFault := Layout.locate_of_land_error (Layout.land_of_not_covers hOutside)
  rw [locate, hFault] at hCell
  cases hCell

end Byte

/-! ## A row of bytes -/

section Row

variable {space : AddressSpace} {start : UInt16} {bytes : List UInt8}

theorem load_cons_of_write {next : AddressSpace} {byte : UInt8} (h : space.write start byte = .ok next)
    (rest : List UInt8) : space.load start (byte :: rest) = next.load (start + 1) rest := by
  rw [load, h]

theorem load_cons_of_error {fault : Fault} {byte : UInt8} (h : space.write start byte = .error fault)
    (rest : List UInt8) : space.load start (byte :: rest) = (space, some fault) := by
  rw [load, h]

/-- A load leaves the tree as it is, however far it comes. -/
theorem load_layout : (space.load start bytes).1.layout = space.layout := by
  induction bytes generalizing space start with
  | nil => rfl
  | cons byte rest ih =>
    cases hWrite : space.write start byte with
    | error fault => rw [load_cons_of_error hWrite]
    | ok next => rw [load_cons_of_write hWrite, ih, layout_of_write hWrite]

/-- The addresses of a row are its first one and those of the row after it. -/
theorem forall_ahead_iff {P : UInt16 → Prop} {byte : UInt8} {rest : List UInt8} :
    (∀ k < (byte :: rest).length, P (Word.ahead start k)) ↔
      P start ∧ ∀ k < rest.length, P (Word.ahead (start + 1) k) := by
  rw [List.length_cons, Nat.forall_lt_succ_left, Word.ahead_zero]
  simp only [Word.ahead_succ]

/-- A load gets through exactly if there is storage for every byte. -/
theorem load_eq_none_iff :
    (space.load start bytes).2 = none ↔ ∀ k < bytes.length, space.Stores (Word.ahead start k) := by
  induction bytes generalizing space start with
  | nil => simp [load]
  | cons byte rest ih =>
    rw [forall_ahead_iff]
    by_cases hFirst : space.Stores start
    · rcases hFirst.exists_write byte with ⟨next, hWrite⟩
      rw [load_cons_of_write hWrite, ih]
      simp only [stores_of_write_iff hWrite, hFirst, true_and]
    · rcases exists_write_fault hFirst with ⟨fault, hFault⟩
      rw [load_cons_of_error (hFault byte)]
      simp [hFirst]

/-- A load that does not get through ends as the first write that fails does. -/
theorem refuses_of_load {fault : Fault} (h : (space.load start bytes).2 = some fault) :
    ∃ k < bytes.length, (∀ value, space.write (Word.ahead start k) value = .error fault) ∧
      ∀ earlier < k, space.Stores (Word.ahead start earlier) := by
  -- The induction is on the bytes. A write moves no storage, so what fails later fails in the old space
  -- too.
  induction bytes generalizing space start with
  | nil => cases h
  | cons byte rest ih =>
    by_cases hFirst : space.Stores start
    · rcases hFirst.exists_write byte with ⟨next, hWrite⟩
      rw [load_cons_of_write hWrite] at h
      rcases ih h with ⟨k, hk, hFails, hEarlier⟩
      refine ⟨k + 1, Nat.succ_lt_succ hk, fun value => ?_, ?_⟩
      · rw [Word.ahead_succ]
        exact (write_eq_error_of_write_iff hWrite).mp (hFails value)
      · rw [Nat.forall_lt_succ_left, Word.ahead_zero]
        simp only [Word.ahead_succ]
        exact ⟨hFirst, fun earlier hLt => (stores_of_write_iff hWrite _).mp (hEarlier earlier hLt)⟩
    · rcases exists_write_fault hFirst with ⟨reason, hFault⟩
      rw [load_cons_of_error (hFault byte)] at h
      cases h
      refine ⟨0, Nat.zero_lt_succ _, ?_, fun earlier hLt => absurd hLt (Nat.not_lt_zero _)⟩
      rw [Word.ahead_zero]
      exact hFault

/-- A load does not reach the cells that are not behind its addresses. -/
theorem read_load_of_apart (hWellFormed : space.layout.WellFormed) {other : UInt16}
    (hApart : ∀ k < bytes.length, ¬space.SameCell (Word.ahead start k) other) :
    (space.load start bytes).1.read other = space.read other := by
  induction bytes generalizing space start with
  | nil => rfl
  | cons byte rest ih =>
    rw [forall_ahead_iff (P := fun address => ¬space.SameCell address other)] at hApart
    cases hWrite : space.write start byte with
    | error fault => rw [load_cons_of_error hWrite]
    | ok next =>
      have hNext : next.layout.WellFormed := by rwa [layout_of_write hWrite]
      have hRest : ∀ k < rest.length, ¬next.SameCell (Word.ahead (start + 1) k) other := by
        simp only [sameCell_of_write_iff hWrite]
        exact hApart.2
      rw [load_cons_of_write hWrite, ih hNext hRest]
      exact read_of_write_of_not_sameCell hWellFormed hWrite hApart.1

/-- Of the bytes for one cell the last one stays. -/
theorem read_load_of_last (hWellFormed : space.layout.WellFormed) (h : (space.load start bytes).2 = none)
    {j : Nat} {byte : UInt8} (hByte : bytes[j]? = some byte) {other : UInt16}
    (hSame : space.SameCell (Word.ahead start j) other)
    (hLast : ∀ k < bytes.length, space.SameCell (Word.ahead start k) other → k ≤ j) :
    (space.load start bytes).1.read other = .ok byte := by
  induction bytes generalizing space start j with
  | nil => cases hByte
  | cons first rest ih =>
    have hFirst : space.Stores start := (forall_ahead_iff.mp (load_eq_none_iff.mp h)).1
    rcases hFirst.exists_write first with ⟨next, hWrite⟩
    have hNext : next.layout.WellFormed := by rwa [layout_of_write hWrite]
    rw [load_cons_of_write hWrite] at h ⊢
    cases j with
    | zero =>
      -- The bytes after the first one are for other cells.
      cases hByte
      rw [Word.ahead_zero] at hSame
      have hApart : ∀ k < rest.length, ¬next.SameCell (Word.ahead (start + 1) k) other := by
        intro k hk hAgain
        rw [sameCell_of_write_iff hWrite, ← Word.ahead_succ] at hAgain
        exact absurd (hLast (k + 1) (Nat.succ_lt_succ hk) hAgain) (Nat.not_succ_le_zero k)
      rw [read_load_of_apart hNext hApart]
      exact read_of_write_of_sameCell hWrite hSame
    | succ j =>
      rw [Word.ahead_succ, ← sameCell_of_write_iff hWrite] at hSame
      refine ih hNext h hByte hSame fun k hk hAgain => ?_
      rw [sameCell_of_write_iff hWrite, ← Word.ahead_succ] at hAgain
      exact Nat.le_of_succ_le_succ (hLast (k + 1) (Nat.succ_lt_succ hk) hAgain)

/-- A load that gets through ends within the space, or the space is the whole bus. -/
theorem load_in_range (hWellFormed : space.layout.WellFormed) (h : (space.load start bytes).2 = none) :
    bytes = [] ∨ start.toNat + bytes.length ≤ space.layout.stop ∨
      space.layout.start = 0 ∧ space.layout.stop = busEnd := by
  have hStart := start.toNat_lt
  have hStop : space.layout.stop ≤ 0x10000 := hWellFormed.stop_le_busEnd
  have hCovers (k : Nat) (hk : k < bytes.length) :
      space.layout.start ≤ (start.toNat + k) % 0x10000 ∧
        (start.toNat + k) % 0x10000 < space.layout.stop := by
    rw [← Word.toNat_ahead]
    exact (load_eq_none_iff.mp h k hk).covers
  cases bytes with
  | nil => exact .inl rfl
  | cons byte rest =>
    have hLength : (byte :: rest).length = rest.length + 1 := rfl
    by_cases hFits : start.toNat + (byte :: rest).length ≤ 0x10000
    · -- The last address did not wrap.
      have hLast := hCovers rest.length (by omega)
      exact .inr (.inl (by omega))
    · -- The load went over the top of the bus, from the last address to the first.
      have hTop := hCovers (0xFFFF - start.toNat) (by omega)
      have hBottom := hCovers (0x10000 - start.toNat) (by omega)
      have hEnd : busEnd = 0x10000 := rfl
      exact .inr (.inr (by omega))

end Row

/-- **A load checks every byte as a single write does.** It gets through exactly if there is storage behind each
of its addresses, and else it ends with the fault of the first write that fails. So it ends within the space, if
that is not the whole bus, whose last address is followed by its first. It changes what the cells behind its
addresses hold and nothing else, and once it is through, each of these cells holds the last byte that was for
it. -/
theorem loads_check_every_byte {space : AddressSpace} (hBuilt : space.Built) (start : UInt16)
    (bytes : List UInt8) :
    let loaded := (space.load start bytes).1
    let fault? := (space.load start bytes).2
    let target (k : Nat) : UInt16 := UInt16.ofNat (start.toNat + k)
    (fault? = none ↔ ∀ k < bytes.length, space.Stores (target k)) ∧
    (∀ fault, fault? = some fault → ∃ k < bytes.length,
      (∀ value, space.write (target k) value = .error fault) ∧
        ∀ earlier < k, space.Stores (target earlier)) ∧
    (fault? = none → bytes = [] ∨ start.toNat + bytes.length ≤ space.layout.stop ∨
      space.layout.start = 0 ∧ space.layout.stop = busEnd) ∧
    loaded.layout = space.layout ∧
    (∀ other, (∀ k < bytes.length, ¬space.SameCell (target k) other) →
      loaded.read other = space.read other) ∧
    (fault? = none → ∀ i < bytes.length, ∃ j byte,
      IsGreatest {k | k < bytes.length ∧ space.SameCell (target k) (target i)} j ∧
        bytes[j]? = some byte ∧ loaded.read (target i) = .ok byte) := by
  have hWellFormed := hBuilt.wellFormed
  refine ⟨load_eq_none_iff, fun _ => refuses_of_load, load_in_range hWellFormed, load_layout,
    fun _ => read_load_of_apart hWellFormed, ?_⟩
  intro hThrough i hi
  -- The byte that stays is the last one for the cell, and there is a last one because the load is finite.
  have hCandidates : BddAbove {k | k < bytes.length ∧ space.SameCell (Word.ahead start k) (Word.ahead start i)} :=
    ⟨bytes.length, fun _ hk => Nat.le_of_lt hk.1⟩
  have hSelf : space.SameCell (Word.ahead start i) (Word.ahead start i) :=
    (load_eq_none_iff.mp hThrough i hi).sameCell
  rcases hCandidates.exists_isGreatest_of_nonempty ⟨i, hi, hSelf⟩ with ⟨j, ⟨hj, hSame⟩, hLast⟩
  have hByte : bytes[j]? = some bytes[j] := List.getElem?_eq_getElem hj
  refine ⟨j, bytes[j], ⟨⟨hj, hSame⟩, hLast⟩, hByte, ?_⟩
  exact read_load_of_last hWellFormed hThrough hByte hSame fun k hk hAgain => hLast ⟨hk, hAgain⟩

/-- Five bytes for two cells that are shown three times: the last byte for the first cell is the fifth. -/
theorem loads_check_every_byte_of_repeats :
    ∃ base space, block 0x10 2 = .ok base ∧ repeated base 3 = .ok space ∧
      (space.load 0x10 [1, 2, 3, 4, 5]).2 = none ∧
      (space.load 0x10 [1, 2, 3, 4, 5]).1.read 0x10 = .ok 5 := by
  have hBase : block 0x10 2 = .ok (ofLayout (.block ⟨0x10, 0x12, by decide, by decide⟩)) := rfl
  have hSpace : repeated (ofLayout (.block ⟨0x10, 0x12, by decide, by decide⟩)) 3 =
      .ok (ofLayout (.repeated (.block ⟨0x10, 0x12, by decide, by decide⟩) 3)) := rfl
  refine ⟨_, _, hBase, hSpace, rfl, ?_⟩
  obtain ⟨-, -, -, -, -, hBytes⟩ :=
    loads_check_every_byte (.repeated (.block hBase) hSpace) 0x10 [1, 2, 3, 4, 5]
  rcases hBytes rfl 0 (by decide) with ⟨j, byte, ⟨⟨hj, -⟩, hLast⟩, hByte, hRead⟩
  have hFifth : 4 ≤ j := hLast ⟨by decide, 0x10, rfl, rfl⟩
  obtain rfl : j = 4 := by
    have hBound : j < 5 := hj
    omega
  cases hByte
  exact hRead

/-- A load of two bytes at the last address of the bus gets through, though only one of them fits, and the
other one is stored at the first address. -/
theorem load_wraps_past_the_end :
    ∃ space, block 0 0x10000 = .ok space ∧
      space.layout.stop < (0xFFFF : UInt16).toNat + [1, 2].length ∧
      (space.load 0xFFFF [1, 2]).2 = none ∧
      space.read 0 = .ok 0 ∧ (space.load 0xFFFF [1, 2]).1.read 0 = .ok 2 := by
  refine ⟨_, rfl, by decide, rfl, by decide +kernel, by decide +kernel⟩

end AddressSpace

end NesMachine
