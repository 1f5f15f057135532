import NesMachine.Proofs.Console.Peek

/-!
# Bytes and observers of main memory

A peek at main memory finds a byte everywhere but at the registers. This module says what it finds after a
write and after a clearing, and that it says all that a read depends on; and it says which observers are
there after a write.

* `MainMemory.read_eq`: a read in terms of a peek.
* `MainMemory.peek_write`: a write shows at every address with the same place.
* `MainMemory.peek_clearWork`: a clearing zeroes working memory and saved memory.
* `Observers.lookup_notify`: only the observer of the address changes.
-/

namespace NesMachine

/-! ## Observers -/

namespace Observers

variable (observers : Observers) (address : UInt16) (value : UInt8)

/-- The answer to a byte is that of the observer at its address, if there is one. -/
theorem notify_fst : (notify address value observers).1 =
    (observers.lookup address).bind fun observer => (observer.notify value).1 := by
  induction observers with
  | nil => rfl
  | cons entry rest ih =>
    rcases entry with ⟨other, observer⟩
    by_cases hHere : other = address
    · simp [notify, hHere]
    · have hElsewhere : (address == other) = false := by simpa using Ne.symm hHere
      simpa [notify, hHere, List.lookup_cons, hElsewhere] using ih

/-- The observer of the address has seen the byte, and the others have not. -/
theorem lookup_notify (asked : UInt16) : (notify address value observers).2.lookup asked =
    if asked = address then (observers.lookup asked).map fun observer => (observer.notify value).2
    else observers.lookup asked := by
  induction observers with
  | nil => simp [notify]
  | cons entry rest ih =>
    rcases entry with ⟨other, observer⟩
    by_cases hHere : other = address
    · by_cases hAsked : asked = address
      · simp [notify, hHere, hAsked]
      · have hElsewhere : (asked == address) = false := by simpa using hAsked
        simp [notify, hHere, hAsked, List.lookup_cons, hElsewhere]
    · by_cases hEntry : asked = other
      · simp [notify, hHere, hEntry]
      · have hElsewhere : (asked == other) = false := by simpa using hEntry
        simpa [notify, hHere, List.lookup_cons, hElsewhere] using ih

/-- An observer is put at one address, in place of the one that was there. -/
theorem lookup_insert (observer : Observer) (asked : UInt16) :
    (insert address observer observers).2.lookup asked =
      if asked = address then some observer else observers.lookup asked := by
  induction observers with
  | nil =>
    by_cases hAsked : asked = address
    · simp [insert, hAsked]
    · have hElsewhere : (asked == address) = false := by simpa using hAsked
      simp [insert, hAsked, List.lookup_cons, hElsewhere]
  | cons entry rest ih =>
    -- The entry in front is the one to replace, the one that is asked for, or neither.
    rcases entry with ⟨other, old⟩
    by_cases hHere : other = address
    · by_cases hAsked : asked = address
      · simp [insert, hHere, hAsked]
      · have hElsewhere : (asked == address) = false := by simpa using hAsked
        simp [insert, hHere, hAsked, List.lookup_cons, hElsewhere]
    · by_cases hEntry : asked = other
      · simp [insert, hHere, hEntry]
      · have hElsewhere : (asked == other) = false := by simpa using hEntry
        simpa [insert, hHere, List.lookup_cons, hElsewhere] using ih

end Observers

/-! ## Bytes -/

namespace MainMemory

attribute [local instance (high)] instPowNat

theorem isRegister_eq_false {address : UInt16}
    (h : ¬(0x2000 ≤ address.toNat ∧ address.toNat < 0x4000)) : isRegister address = false := by
  simpa [← isRegister_iff] using h

variable {δ : Type} [Device δ] (memory : MainMemory)

/-- A peek is the byte of the cell, where there is one. -/
theorem peek_eq (address : UInt16) : memory.peek address =
    match place address with
    | .cell cell => some (memory.cells.get cell)
    | .device _ => none := by
  cases hRegister : isRegister address with
  | true => simp [peek_of_isRegister memory hRegister, place_of_isRegister hRegister]
  | false =>
    rcases place_of_not_isRegister hRegister with ⟨cell, hPlace⟩
    have hLocate : memory.space.locate address = .ok (.cell cell) := by
      rw [← hPlace]
      exact locate_layout address
    rw [peek, hRegister, AddressSpace.read, hLocate, hPlace]
    rfl

/-- What a read returns is decided by the peek at its address. -/
theorem read_eq (address : UInt16) (device : δ) : memory.read address device =
    match memory.peek address with
    | some value => (value, device)
    | none => Device.read device (UInt16.ofNat (0x2000 + address.toNat % 8)) := by
  cases hRegister : isRegister address with
  | true => simp [read_of_isRegister memory hRegister, peek_of_isRegister memory hRegister]
  | false =>
    rcases memory.read_of_not_isRegister (δ := δ) hRegister with ⟨value, hPeek, hRead⟩
    simp [hPeek, hRead]

/-- Cells are numbered within the store. -/
theorem cell_of_place {address : UInt16} {cell : Nat} (h : place address = .cell cell) :
    cell % 2 ^ (16 : Nat) = cell := by
  have hAddress : address.toNat < 2 ^ 16 := address.toNat_lt
  refine Nat.mod_eq_of_lt ?_
  simp only [place] at h
  split at h
  · injection h
    omega
  · split at h
    · cases h
    · injection h
      omega

/-- A write shows at every address that has the same cell. -/
theorem peek_write (a b : UInt16) (value : UInt8) (device : δ) :
    (memory.write a value device).2.1.peek b =
      if place a = place b then (memory.peek b).map fun _ => value else memory.peek b := by
  rw [peek_eq, peek_eq, write]
  cases hA : place a with
  | device folded =>
    -- A register has no byte that a peek could find.
    cases hB : place b with
    | device other => simp
    | cell cell => simp
  | cell written =>
    cases hB : place b with
    | device folded => simp
    | cell cell =>
      simp only [Ram.get_set, cell_of_place hA, cell_of_place hB, Place.cell.injEq]
      split
      · rfl
      · rfl

/-- The device answers a write wherever the layout has it, and so whatever is in memory. -/
theorem write_device (address : UInt16) (value : UInt8) (device : δ) :
    (memory.write address value device).2.2 =
      match place address with
      | .cell _ => device
      | .device folded => Device.write device (UInt16.ofNat folded) value := by
  rw [write]
  cases place address <;> rfl

/-- A clearing zeroes working memory and saved memory. -/
theorem peek_clearWork (address : UInt16) : memory.clearWork.peek address =
    if address.toNat < 0x2000 ∨ 0x6000 ≤ address.toNat ∧ address.toNat < 0x8000 then some 0
    else memory.peek address := by
  have hAddress : address.toNat < 2 ^ 16 := address.toNat_lt
  rw [peek_eq, peek_eq]
  cases hPlace : place address with
  | device folded =>
    -- A place in the register window comes from an address in the same window.
    have hWindow : ¬(address.toNat < 0x2000 ∨ 0x6000 ≤ address.toNat ∧ address.toNat < 0x8000) := by
      simp only [place] at hPlace
      split at hPlace
      · cases hPlace
      · split at hPlace
        · omega
        · cases hPlace
    simp only [if_neg hWindow]
  | cell cell =>
    -- Cells are cleared by their own number, addresses by where they fold to.
    have hCell : (cell < 0x800 ∨ 0x6000 ≤ cell ∧ cell < 0x8000) ↔
        (address.toNat < 0x2000 ∨ 0x6000 ≤ address.toNat ∧ address.toNat < 0x8000) := by
      simp only [place] at hPlace
      split at hPlace
      · injection hPlace
        omega
      · split at hPlace
        · cases hPlace
        · injection hPlace
          omega
    simp only [← hCell]
    simp only [clearWork, Ram.get_overlay, Ram.get_zero, cell_of_place hPlace]
    by_cases hSaved : 0x6000 ≤ cell ∧ cell < 0x8000
    · simp [hSaved]
    · by_cases hWork : cell < 0x800
      · simp [hSaved, hWork]
      · simp [hSaved, hWork]

end MainMemory

end NesMachine
