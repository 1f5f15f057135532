import Mathlib.Data.Nat.ModEq
import NesMachine.Ram

/-!
# Runs of bytes in a store

What `Ram.setBytes` stores and what `Ram.slice` reads back, and how an overlay is stored byte by byte.
-/

namespace NesMachine.Ram

attribute [local instance (high)] instPowNat

variable {n : Nat}

/-- Of an address only the bits of the store count. -/
theorem set_mod (ram : Ram n) (a : Nat) (value : UInt8) : ram.set (a % 2 ^ n) value = ram.set a value := by
  refine ext_get fun b => ?_
  rw [get_set, get_set, Nat.mod_mod]

/-- Bits of the start past the `n`th make no difference to a run of stored bytes. -/
theorem setBytes_mod (ram : Ram n) (start : Nat) (bytes : List UInt8) :
    ram.setBytes (start % 2 ^ n) bytes = ram.setBytes start bytes := by
  induction bytes generalizing ram start with
  | nil => rfl
  | cons byte rest ih =>
    rw [setBytes, setBytes, set_mod, ← ih _ (start % 2 ^ n + 1), Nat.mod_add_mod, ih]

/-- A run of bytes does not reach the cells outside it. -/
theorem get_setBytes_of_outside (ram : Ram n) (start : Nat) (bytes : List UInt8) (a : Nat)
    (hOutside : ∀ k < bytes.length, (start + k) % 2 ^ n ≠ a % 2 ^ n) :
    (ram.setBytes start bytes).get a = ram.get a := by
  induction bytes generalizing ram start with
  | nil => rfl
  | cons byte rest ih =>
    have hFirst : start % 2 ^ n ≠ a % 2 ^ n := hOutside 0 (Nat.zero_lt_succ _)
    have hRest (k : Nat) (hk : k < rest.length) : (start + 1 + k) % 2 ^ n ≠ a % 2 ^ n := by
      rw [Nat.add_assoc, Nat.add_comm 1 k]
      exact hOutside (k + 1) (Nat.succ_lt_succ hk)
    rw [setBytes, ih _ _ hRest, get_set, if_neg hFirst]

/-- A run of bytes that is no longer than the store is found again, also where it wraps. -/
theorem get_setBytes_add (ram : Ram n) (start : Nat) (bytes : List UInt8)
    (hFits : bytes.length ≤ 2 ^ n) (k : Nat) (hk : k < bytes.length) :
    (ram.setBytes start bytes).get (start + k) = bytes[k] := by
  induction bytes generalizing ram start k with
  | nil => cases hk
  | cons byte rest ih =>
    have hLength : (byte :: rest).length = rest.length + 1 := rfl
    cases k with
    | zero =>
      -- The bytes after the first one do not come around to it.
      have hApart (j : Nat) (hj : j < rest.length) : (start + 1 + j) % 2 ^ n ≠ (start + 0) % 2 ^ n := by
        intro hSame
        have hOffset : 1 + j ≡ 0 [MOD 2 ^ n] :=
          Nat.ModEq.add_left_cancel' start (Nat.add_assoc start 1 j ▸ hSame)
        have hMod : (1 + j) % 2 ^ n = 1 + j := Nat.mod_eq_of_lt (by omega)
        have hZero : (1 + j) % 2 ^ n = 0 % 2 ^ n := hOffset
        rw [hMod, Nat.zero_mod] at hZero
        omega
      rw [setBytes, get_setBytes_of_outside _ _ _ _ hApart, get_set]
      exact if_pos rfl
    | succ k =>
      have hNext := ih (ram.set start byte) (start + 1) (by omega) k (by omega)
      rw [setBytes, ← Nat.add_assoc, Nat.add_right_comm]
      exact hNext

/-- A run of stored bytes that ends within the store is found again; the cells around it are kept. -/
theorem get_setBytes (ram : Ram n) (start : Nat) (bytes : List UInt8) (a : Nat)
    (hFits : start + bytes.length ≤ 2 ^ n) (hCell : a < 2 ^ n) :
    (ram.setBytes start bytes).get a =
      if start ≤ a then bytes[a - start]?.getD (ram.get a) else ram.get a := by
  by_cases hRun : start ≤ a ∧ a - start < bytes.length
  · have hGet := get_setBytes_add ram start bytes (by omega) (a - start) hRun.2
    rw [Nat.add_sub_cancel' hRun.1] at hGet
    rw [if_pos hRun.1, List.getElem?_eq_getElem hRun.2]
    exact hGet
  · have hOutside (k : Nat) (hk : k < bytes.length) : (start + k) % 2 ^ n ≠ a % 2 ^ n := by
      rw [Nat.mod_eq_of_lt hCell, Nat.mod_eq_of_lt (by omega)]
      omega
    rw [get_setBytes_of_outside ram start bytes a hOutside]
    split
    · rw [List.getElem?_eq_none (by omega)]
      rfl
    · rfl

/-- Another byte in a run is another byte in its cell. -/
theorem setBytes_set (ram : Ram n) (start : Nat) (bytes : List UInt8) {i : Nat} (value : UInt8)
    (hFits : start + bytes.length ≤ 2 ^ n) (h : i < bytes.length) :
    ram.setBytes start (bytes.set i value) = (ram.setBytes start bytes).set (start + i) value := by
  refine ext_get fun address => ?_
  rw [← get_mod, ← get_mod (set _ _ _)]
  have hCell : address % 2 ^ n < 2 ^ n := Nat.mod_lt address (Nat.two_pow_pos n)
  generalize address % 2 ^ n = a at hCell
  have hPlace : start + i < 2 ^ n := by omega
  have hFitsToo : start + (bytes.set i value).length ≤ 2 ^ n := by rwa [List.length_set]
  rw [get_setBytes _ _ _ _ hFitsToo hCell, get_set, get_setBytes _ _ _ _ hFits hCell,
    Nat.mod_eq_of_lt hCell, Nat.mod_eq_of_lt hPlace]
  by_cases hHere : start + i = a
  · subst hHere
    simp [h]
  · rw [if_neg hHere]
    split
    · rw [List.getElem?_set_ne (by omega)]
    · rfl

/-- Storing one byte throughout the upper half fills it. -/
theorem setBytes_replicate (low high : Ram n) (byte : UInt8) :
    (split low high).setBytes (2 ^ n) (List.replicate (2 ^ n) byte) = split low (fill byte n) := by
  refine ext_get fun address => ?_
  rw [← get_mod, ← get_mod (split low (fill byte n))]
  have hCell : address % 2 ^ (n + 1) < 2 ^ (n + 1) := Nat.mod_lt address (Nat.two_pow_pos (n + 1))
  generalize address % 2 ^ (n + 1) = a at hCell
  have hDouble : 2 ^ (n + 1) = 2 ^ n + 2 ^ n := Nat.two_pow_succ n
  have hWhole : 2 ^ n + (List.replicate (2 ^ n) byte).length = 2 ^ (n + 1) := by
    rw [List.length_replicate, hDouble]
  rw [get_setBytes _ _ _ _ (Nat.le_of_eq hWhole) hCell]
  by_cases hUpper : 2 ^ n ≤ a
  · have hBit : a.testBit n = true := Nat.testBit_of_two_pow_le_and_two_pow_add_one_gt hUpper hCell
    have hIndex : a - 2 ^ n < 2 ^ n := by omega
    simp [hUpper, hIndex, get, hBit]
  · have hBit : a.testBit n = false := Nat.testBit_lt_two_pow (Nat.lt_of_not_le hUpper)
    simp [hUpper, get, hBit]

/-- Reading back a run of stored bytes gives them. -/
theorem slice_setBytes (ram : Ram n) (start : Nat) (bytes : List UInt8)
    (hFits : start + bytes.length ≤ 2 ^ n) :
    (ram.setBytes start bytes).slice start bytes.length = bytes := by
  refine List.ext_getElem (by simp [slice]) ?_
  intro i hSlice hBytes
  have hCell : start + i < 2 ^ n := by omega
  have hGet := get_setBytes ram start bytes (start + i) hFits hCell
  simpa [slice, hBytes] using hGet

/-- A byte that is stored in a run of cells changes its own place in the run and no other. -/
theorem slice_set (ram : Ram n) {start count cell : Nat} (value : UInt8) (hFits : start + count ≤ 2 ^ n)
    (hStart : start ≤ cell) (hStop : cell < start + count) :
    (ram.set cell value).slice start count = (ram.slice start count).set (cell - start) value := by
  refine List.ext_getElem (by simp [slice]) fun i hLeft hRight => ?_
  have hIndex : i < count := by simpa [slice] using hLeft
  have hCell : cell % 2 ^ n = cell := Nat.mod_eq_of_lt (by omega)
  have hHere : (start + i) % 2 ^ n = start + i := Nat.mod_eq_of_lt (by omega)
  have hSame : cell = start + i ↔ cell - start = i := by omega
  simp only [slice, List.getElem_map, List.getElem_range, List.getElem_set, get_set, hCell, hHere, hSame]

/-! ## Overlays -/

theorem overlay_empty (bottom top : Ram n) (start : Nat) : bottom.overlay top start start = bottom := by
  refine ext_get fun a => ?_
  have hNone : ¬(start ≤ a % 2 ^ n ∧ a % 2 ^ n < start) := by omega
  rw [get_overlay, if_neg hNone]

theorem overlay_self (ram : Ram n) (start stop : Nat) : ram.overlay ram start stop = ram := by
  refine ext_get fun a => ?_
  rw [get_overlay, ite_self]

/-- An overlay grows by a cell when that cell is stored. -/
theorem set_overlay (bottom top : Ram n) {start stop : Nat} (hStart : start ≤ stop)
    (hStop : stop < 2 ^ n) : (bottom.overlay top start stop).set stop (top.get stop) =
      bottom.overlay top start (stop + 1) := by
  refine ext_get fun a => ?_
  rw [get_set, get_overlay, get_overlay, Nat.mod_eq_of_lt hStop]
  by_cases hHere : stop = a % 2 ^ n
  · have hGet : top.get stop = top.get a := by
      rw [hHere, get_mod]
    rw [if_pos hHere, if_pos (by omega), hGet]
  · have hSame : (start ≤ a % 2 ^ n ∧ a % 2 ^ n < stop) ↔
        (start ≤ a % 2 ^ n ∧ a % 2 ^ n < stop + 1) := by omega
    rw [if_neg hHere]
    simp only [hSame]

end NesMachine.Ram
