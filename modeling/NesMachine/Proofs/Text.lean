import Mathlib.Algebra.Ring.Nat
import Mathlib.Data.List.Basic
import NesMachine.Column
import NesMachine.Hexadecimal

/-!
# Reading text back

Text that is put together from cells can be taken apart again where the widths of the cells are known, where
blanks separate words without blanks, and where blanks fill a column up to text that begins or ends with something
else.

* `Text.join_inj`: cells of known widths.
* `Text.intercalate_blank_inj`: words between blanks.
* `Column.left_inj`, `Column.right_inj`: columns.
* `Hexadecimal.byte_injective`, `Hexadecimal.word_injective`, `Decimal.toString_injective`: numbers.
-/

namespace NesMachine

/-! ## Cells and words -/

namespace Text

theorem length_join (cells : List String) : (String.join cells).length = (cells.map String.length).sum := by
  induction cells with
  | nil => rfl
  | cons cell rest ih => rw [String.join_cons, String.length_append, ih, List.map_cons, List.sum_cons]

/-- Texts with fronts of one length are equal part by part. -/
theorem append_inj {front front' back back' : String} (h : front ++ back = front' ++ back')
    (hLength : front.length = front'.length) : front = front' ∧ back = back' := by
  have hChars : front.toList ++ back.toList = front'.toList ++ back'.toList := by
    rw [← String.toList_append, h, String.toList_append]
  have hParts := List.append_inj hChars (by rwa [String.length_toList, String.length_toList])
  exact ⟨String.toList_inj.mp hParts.1, String.toList_inj.mp hParts.2⟩

/-- Rows of cells with the same widths read alike only if their cells do. -/
theorem join_inj {cells cells' : List String} (h : cells.map String.length = cells'.map String.length) :
    String.join cells = String.join cells' ↔ cells = cells' := by
  refine ⟨fun hJoin => ?_, congrArg String.join⟩
  induction cells generalizing cells' with
  | nil => exact (List.map_eq_nil_iff.mp h.symm).symm
  | cons cell rest ih =>
    cases cells' with
    | nil => cases h
    | cons cell' rest' =>
      rw [List.map_cons, List.map_cons, List.cons.injEq] at h
      rw [String.join_cons, String.join_cons] at hJoin
      -- The first cells end at the same place.
      obtain ⟨hCell, hRest⟩ := append_inj hJoin h.1
      rw [hCell, ih h.2 hRest]

/-- Words between blanks are told apart by the blanks. -/
theorem intercalate_blank_inj {texts texts' : List String} (h : ∀ text ∈ texts, ' ' ∉ text.toList)
    (h' : ∀ text ∈ texts', ' ' ∉ text.toList) (hNe : texts ≠ []) (hNe' : texts' ≠ []) :
    " ".intercalate texts = " ".intercalate texts' ↔ texts = texts' := by
  refine ⟨fun hEq => ?_, congrArg _⟩
  -- Splitting at the blanks takes the row apart again.
  have hSplit := String.toList_split_intercalate h
  have hSplit' := String.toList_split_intercalate h'
  rw [if_neg hNe] at hSplit
  rw [if_neg hNe'] at hSplit'
  rw [← hSplit, ← hSplit']
  exact congrArg (fun text : String => (text.split ' ').toList.map (·.copy)) hEq

/-- What follows a run of one character is found again, if it does not begin with that character. -/
theorem dropWhile_replicate_append {c : Char} {rest : List Char} (h : rest.head? ≠ some c) (count : Nat) :
    (List.replicate count c ++ rest).dropWhile (· == c) = rest := by
  rw [List.dropWhile_append_of_pos fun other hMem => by simpa using List.eq_of_mem_replicate hMem]
  cases rest with
  | nil => rfl
  | cons first rest => exact List.dropWhile_cons_of_neg (by simpa using h)

end Text

/-! ## Columns -/

namespace Column

variable {text text' : String} (width : Nat)

/-- A column that is filled on the left still shows a text that starts with no blank. -/
theorem right_inj (h : text.toList.head? ≠ some ' ') (h' : text'.toList.head? ≠ some ' ') :
    right width text = right width text' ↔ text = text' := by
  refine ⟨fun hEq => ?_, congrArg _⟩
  have hChars := congrArg (fun filled => filled.toList.dropWhile (· == ' ')) hEq
  simp only [right, blanks, String.toList_append, String.toList_ofList, Text.dropWhile_replicate_append h,
    Text.dropWhile_replicate_append h'] at hChars
  exact String.toList_inj.mp hChars

/-- A column that is filled on the right still shows a text that ends with no blank. -/
theorem left_inj (h : text.toList.getLast? ≠ some ' ') (h' : text'.toList.getLast? ≠ some ' ') :
    left width text = left width text' ↔ text = text' := by
  refine ⟨fun hEq => ?_, congrArg _⟩
  rw [← List.head?_reverse] at h h'
  -- From its end, the column reads like one that is filled up in front.
  have hChars := congrArg (fun filled => filled.toList.reverse.dropWhile (· == ' ')) hEq
  simp only [left, blanks, String.toList_append, String.toList_ofList, List.reverse_append,
    List.reverse_replicate, Text.dropWhile_replicate_append h, Text.dropWhile_replicate_append h'] at hChars
  exact String.toList_inj.mp (List.reverse_injective hChars)

end Column

/-! ## Hexadecimal numbers -/

namespace Hexadecimal

theorem digit_inj : ∀ m n : Fin 16, digit m = digit n → m = n := by
  decide

theorem digit_ne_blank : ∀ n : Fin 16, ' ' ≠ digit n := by
  decide

theorem eq_of_digit_eq {m n : Nat} (hm : m < 16) (hn : n < 16) (h : digit m = digit n) : m = n :=
  Fin.mk.inj (digit_inj ⟨m, hm⟩ ⟨n, hn⟩ h)

@[simp] theorem length_byte (b : UInt8) : (byte b).length = 2 := by
  simp [byte]

@[simp] theorem length_word (w : UInt16) : (word w).length = 4 := by
  simp [word]

theorem blank_not_mem_byte (b : UInt8) : ' ' ∉ (byte b).toList := by
  have hByte := b.toNat_lt
  have hHigh : b.toNat / 16 < 16 := by omega
  have hLow : b.toNat % 16 < 16 := by omega
  simp only [byte, String.toList_ofList, List.mem_cons, List.not_mem_nil, or_false, not_or]
  exact ⟨digit_ne_blank ⟨_, hHigh⟩, digit_ne_blank ⟨_, hLow⟩⟩

/-- Two digits tell a byte. -/
theorem byte_injective : Function.Injective byte := by
  intro a b h
  have hA := a.toNat_lt
  have hB := b.toNat_lt
  obtain ⟨hHigh, hLow⟩ : digit (a.toNat / 16) = digit (b.toNat / 16) ∧
      digit (a.toNat % 16) = digit (b.toNat % 16) := by
    simpa [byte, String.ofList_inj] using h
  have hHighEq := eq_of_digit_eq (by omega) (by omega) hHigh
  have hLowEq := eq_of_digit_eq (by omega) (by omega) hLow
  exact UInt8.toNat_inj.mp (by omega)

/-- Four digits tell a word. -/
theorem word_injective : Function.Injective word := by
  intro v w h
  have hV := v.toNat_lt
  have hW := w.toNat_lt
  obtain ⟨h3, h2, h1, h0⟩ : digit (v.toNat / 4096) = digit (w.toNat / 4096) ∧
      digit (v.toNat / 256 % 16) = digit (w.toNat / 256 % 16) ∧
      digit (v.toNat / 16 % 16) = digit (w.toNat / 16 % 16) ∧
      digit (v.toNat % 16) = digit (w.toNat % 16) := by
    simpa [word, String.ofList_inj] using h
  have h3Eq := eq_of_digit_eq (by omega) (by omega) h3
  have h2Eq := eq_of_digit_eq (by omega) (by omega) h2
  have h1Eq := eq_of_digit_eq (by omega) (by omega) h1
  have h0Eq := eq_of_digit_eq (by omega) (by omega) h0
  exact UInt16.toNat_inj.mp (by omega)

end Hexadecimal

/-! ## Decimal numbers -/

namespace Decimal

/-- Decimal digits tell a number. -/
theorem toString_injective : Function.Injective (toString : Nat → String) := by
  intro m n h
  rw [Nat.toString_eq_ofList_toDigits, Nat.toString_eq_ofList_toDigits, String.ofList_inj] at h
  have hNumber := congrArg (fun digits => Nat.ofDigitChars 10 digits 0) h
  simpa [Nat.ofDigitChars_toDigits] using hNumber

/-- A number below a power of ten has no more digits than the exponent. -/
theorem length_toString_le {n width : Nat} (hWidth : 0 < width) (h : n < 10 ^ width) :
    (toString n).length ≤ width := by
  rw [Nat.toString_eq_ofList_toDigits, String.length_ofList]
  exact (Nat.length_toDigits_le_iff (by decide) hWidth).mpr h

theorem blank_not_mem_toString (n : Nat) : ' ' ∉ (toString n).toList := by
  intro hMem
  rw [Nat.toString_eq_ofList_toDigits, String.toList_ofList] at hMem
  cases Nat.isDigit_of_mem_toDigits (by decide) (by decide) hMem

end Decimal

end NesMachine
