import Mathlib.Data.List.TakeWhile
import Mathlib.Tactic.IntervalCases
import NesMachine.CommandLine.HexAddress
import NesMachine.Proofs.Text

/-!
# The grammar of an address

An address on the command line is a hexadecimal numeral behind any number of `0x`, then of `0X`, then of `$`, and
behind an optional plus sign. The reader drops each kind of mark as long as it stands in front, and `0` is a digit
too; but none of the other characters of the marks is, so there is only one place where the numeral can start.

* `HexAddress.Numeral`, `HexAddress.Written`: the grammar.
* `HexAddress.readDigits_eq_ok_iff`, `HexAddress.readNumber_eq_ok_iff`: the digits and the sign.
* `HexAddress.exists_marks`, `HexAddress.dropPrefixes_of_written`: the marks.
* `HexAddress.parse_accepts_exactly_its_grammar`: the texts that are addresses, and how a word can be written.
-/

namespace NesMachine.HexAddress

/-! ## The grammar -/

/-- The character is the hexadecimal digit for a number below sixteen, in either case. -/
def IsDigit (c : Char) (d : Nat) : Prop :=
  d < 16 ∧ (c = Nat.digitChar d ∨ c = (Nat.digitChar d).toUpper)

/-- A row of digits, highest first, and the number that it stands for. -/
inductive Numeral : List Char → Nat → Prop
  | digit {c : Char} {d : Nat} : IsDigit c d → Numeral [c] d
  | snoc {text : List Char} {n : Nat} {c : Char} {d : Nat} :
      Numeral text n → IsDigit c d → Numeral (text ++ [c]) (n * 16 + d)

def marks (mark : Char) : Nat → List Char
  | 0 => []
  | count + 1 => '0' :: mark :: marks mark count

/-- An address and the number that it stands for. -/
inductive Written : List Char → Nat → Prop
  | address (lower upper dollars : Nat) {sign digits : List Char} {n : Nat} :
      sign = [] ∨ sign = ['+'] → Numeral digits n →
        Written (marks 'x' lower ++ (marks 'X' upper ++ (List.replicate dollars '$' ++ (sign ++ digits)))) n

/-! ## Digits -/

section Digits

variable {c : Char} {d : Nat}

theorem digitValue_of_isDigit (h : IsDigit c d) : digitValue c = some d := by
  obtain ⟨hd, hc⟩ := h
  interval_cases d <;> rcases hc with rfl | rfl <;> rfl

/-- Only digits have a value. -/
theorem isDigit_of_digitValue (h : digitValue c = some d) : IsDigit c d := by
  have hBounds : '0'.toNat ≤ c.toNat ∧ c.toNat ≤ '9'.toNat ∧ c.toNat - '0'.toNat = d ∨
      'a'.toNat ≤ c.toNat ∧ c.toNat ≤ 'f'.toNat ∧ c.toNat - 'a'.toNat + 10 = d ∨
      'A'.toNat ≤ c.toNat ∧ c.toNat ≤ 'F'.toNat ∧ c.toNat - 'A'.toNat + 10 = d := by
    unfold digitValue at h
    split at h
    · rename_i hRange
      exact .inl ⟨hRange.1, hRange.2, Option.some.inj h⟩
    · split at h
      · rename_i hRange
        exact .inr (.inl ⟨hRange.1, hRange.2, Option.some.inj h⟩)
      · split at h
        · rename_i hRange
          exact .inr (.inr ⟨hRange.1, hRange.2, Option.some.inj h⟩)
        · cases h
  -- The character is one of 22, told by their codes.
  have hCode : c = Char.ofNat c.toNat := (Char.ofNat_toNat c).symm
  rw [hCode]
  generalize c.toNat = code at hBounds
  rcases hBounds with ⟨hLow, hHigh, rfl⟩ | ⟨hLow, hHigh, rfl⟩ | ⟨hLow, hHigh, rfl⟩
  · change 48 ≤ code at hLow
    change code ≤ 57 at hHigh
    interval_cases code <;> exact ⟨by decide, .inl rfl⟩
  · change 97 ≤ code at hLow
    change code ≤ 102 at hHigh
    interval_cases code <;> exact ⟨by decide, .inl rfl⟩
  · change 65 ≤ code at hLow
    change code ≤ 70 at hHigh
    interval_cases code <;> exact ⟨by decide, .inr rfl⟩

/-- No character of a mark but `0` is a digit. -/
theorem IsDigit.ne (h : IsDigit c d) : c ≠ 'x' ∧ c ≠ 'X' ∧ c ≠ '$' ∧ c ≠ '+' := by
  have hValue := digitValue_of_isDigit h
  refine ⟨?_, ?_, ?_, ?_⟩ <;> (rintro rfl; cases hValue)

end Digits

namespace Numeral

variable {text : List Char} {n : Nat}

/-- A numeral is made of digits. -/
theorem exists_isDigit (h : Numeral text n) : ∀ c ∈ text, ∃ d, IsDigit c d := by
  induction h with
  | digit hDigit =>
    intro other hMem
    rw [List.mem_singleton.mp hMem]
    exact ⟨_, hDigit⟩
  | snoc _ hDigit ih =>
    intro other hMem
    rcases List.mem_append.mp hMem with hFront | hBack
    · exact ih other hFront
    · rw [List.mem_singleton.mp hBack]
      exact ⟨_, hDigit⟩

theorem ne_nil (h : Numeral text n) : text ≠ [] := by
  cases h with
  | digit => exact List.cons_ne_nil _ _
  | snoc => exact List.concat_ne_nil _ _

/-- A zero in front changes no number. -/
theorem cons_zero (h : Numeral text n) : Numeral ('0' :: text) n := by
  have hZero : IsDigit '0' 0 := ⟨by decide, .inl rfl⟩
  induction h with
  | digit hDigit => simpa using (Numeral.digit hZero).snoc hDigit
  | snoc _ hDigit ih => exact ih.snoc hDigit

/-- Leading zeros change nothing. -/
theorem zeroFilled (h : Numeral text n) (width : Nat) : Numeral (Hexadecimal.zeroFilled width text) n := by
  rw [Hexadecimal.zeroFilled]
  induction width - text.length with
  | zero => exact h
  | succ count ih => exact ih.cons_zero

end Numeral

theorem isDigit_digitChar {d : Nat} (h : d < 16) : IsDigit (Nat.digitChar d) d :=
  ⟨h, .inl rfl⟩

theorem isDigit_toUpper {d : Nat} (h : d < 16) : IsDigit (Nat.digitChar d).toUpper d :=
  ⟨h, .inr rfl⟩

/-- The digits of a number, written by any function that writes the single digits, are a numeral for it. -/
theorem numeral_map_toDigits {f : Char → Char} (hf : ∀ d < 16, IsDigit (f (Nat.digitChar d)) d) (n : Nat) :
    Numeral ((Nat.toDigits 16 n).map f) n := by
  induction n using Nat.strong_induction_on with
  | h n ih =>
    rw [Nat.toDigits_eq_if (by decide)]
    split
    · rename_i hSmall
      exact .digit (hf n hSmall)
    · rename_i hLarge
      have hFront := ih (n / 16) (by omega)
      have hLast := hf (n % 16) (Nat.mod_lt n (by decide))
      have hWhole := hFront.snoc hLast
      rw [Nat.div_add_mod' n 16] at hWhole
      rw [List.map_append]
      exact hWhole

/-! ## The reader of digits -/

section Read

variable {text : List Char} {value : UInt16}

/-- The reader takes one digit at a time, as long as the number fits in a word. -/
theorem readDigits_cons {c : Char} {d : Nat} (h : IsDigit c d) (start : Nat) (hFits : start * 16 + d < 0x10000)
    (rest : List Char) : readDigits start (c :: rest) = readDigits (start * 16 + d) rest := by
  simp only [readDigits, digitValue_of_isDigit h, if_pos hFits]

/-- What is read goes on where the digits before it have led. -/
theorem readDigits_append {front : List Char} {n : Nat} (h : Numeral front n) (hFits : n < 0x10000)
    (rest : List Char) : readDigits 0 (front ++ rest) = readDigits n rest := by
  induction h generalizing rest with
  | @digit c d hDigit =>
    have hRead := readDigits_cons hDigit 0 (by omega) rest
    rwa [Nat.zero_mul, Nat.zero_add] at hRead
  | @snoc front n c d _ hDigit ih =>
    rw [List.append_assoc, ih (by omega)]
    exact readDigits_cons hDigit n hFits rest

/-- The digits that are read make the numeral before them longer. -/
theorem numeral_of_readDigits {front : List Char} {n : Nat} (hFront : Numeral front n)
    (h : readDigits n text = .ok value) (hFits : n < 0x10000) : Numeral (front ++ text) value.toNat := by
  induction text generalizing front n with
  | nil =>
    cases h
    rw [List.append_nil, UInt16.toNat_ofNat_of_lt' hFits]
    exact hFront
  | cons c rest ih =>
    simp only [readDigits] at h
    split at h
    · cases h
    · rename_i d hDigit
      split at h
      · rename_i hNext
        have hLonger := ih (hFront.snoc (isDigit_of_digitValue hDigit)) h hNext
        rwa [List.append_assoc] at hLonger
      · cases h

/-- The reader of digits accepts the numerals of words. -/
theorem readDigits_eq_ok_iff (hText : text ≠ []) :
    readDigits 0 text = .ok value ↔ Numeral text value.toNat := by
  constructor
  · intro h
    cases text with
    | nil => exact absurd rfl hText
    | cons c rest =>
      simp only [readDigits] at h
      split at h
      · cases h
      · rename_i d hDigit
        have hIsDigit := isDigit_of_digitValue hDigit
        have hSmall : d < 16 := hIsDigit.1
        rw [if_pos (by omega), Nat.zero_mul, Nat.zero_add] at h
        exact numeral_of_readDigits (.digit hIsDigit) h (by omega)
  · intro h
    have hRead := readDigits_append h value.toNat_lt []
    rw [List.append_nil] at hRead
    rw [hRead, readDigits, UInt16.ofNat_toNat]

/-- A plus sign counts for nothing before digits. -/
theorem readNumber_plus (hText : text ≠ []) : readNumber ('+' :: text) = readDigits 0 text := by
  cases text with
  | nil => exact absurd rfl hText
  | cons c rest => rfl

/-- Any other text is read as it stands. -/
theorem readNumber_of_not_plus {c : Char} (hc : c ≠ '+') (rest : List Char) :
    readNumber (c :: rest) = readDigits 0 (c :: rest) := by
  unfold readNumber
  split
  · rename_i h
    cases h
  · rename_i h
    cases h
    exact absurd rfl hc
  · rename_i h
    cases h
    exact absurd rfl hc
  · rfl

/-- With an optional sign the reader accepts the same numerals. -/
theorem readNumber_eq_ok_iff : readNumber text = .ok value ↔
    ∃ sign digits, (sign = [] ∨ sign = ['+']) ∧ text = sign ++ digits ∧ Numeral digits value.toNat := by
  constructor
  · intro h
    cases text with
    | nil => cases h
    | cons c rest =>
      by_cases hc : c = '+'
      · cases hc
        have hRest : rest ≠ [] := by
          rintro rfl
          cases h
        rw [readNumber_plus hRest, readDigits_eq_ok_iff hRest] at h
        exact ⟨['+'], rest, .inr rfl, rfl, h⟩
      · rw [readNumber_of_not_plus hc, readDigits_eq_ok_iff (List.cons_ne_nil c rest)] at h
        exact ⟨[], c :: rest, .inl rfl, rfl, h⟩
  · rintro ⟨sign, digits, hSign, rfl, hDigits⟩
    -- Without the sign, the first character is a digit, so the reader does not take it for one.
    have hNe := hDigits.ne_nil
    rcases hSign with rfl | rfl
    · cases digits with
      | nil => exact absurd rfl hNe
      | cons c rest =>
        rcases hDigits.exists_isDigit c List.mem_cons_self with ⟨d, hDigit⟩
        rw [List.nil_append, readNumber_of_not_plus hDigit.ne.2.2.2]
        exact (readDigits_eq_ok_iff hNe).mpr hDigits
    · exact (readNumber_plus hNe).trans ((readDigits_eq_ok_iff hNe).mpr hDigits)

end Read

/-! ## Marks -/

section Marks

variable {mark : Char} {text rest : List Char}

/-- Marks at the front are dropped, all of them. -/
theorem dropMarks_marks_append (count : Nat) :
    dropMarks mark (marks mark count ++ rest) = dropMarks mark rest := by
  induction count with
  | zero => rfl
  | succ count ih =>
    rw [marks, List.cons_append, List.cons_append, dropMarks, if_pos ⟨rfl, rfl⟩]
    exact ih

/-- Nothing is dropped from a text without the mark. -/
theorem dropMarks_of_not_mem (h : mark ∉ text) : dropMarks mark text = text := by
  match text with
  | [] => rfl
  | [_] => rfl
  | c :: d :: rest =>
    have hNe : d ≠ mark := by
      rintro rfl
      exact h (List.mem_cons_of_mem c List.mem_cons_self)
    exact if_neg fun hMark => hNe hMark.2

/-- What is dropped are marks, and nothing else. -/
theorem exists_marks (mark : Char) (text : List Char) :
    ∃ count, text = marks mark count ++ dropMarks mark text := by
  fun_induction dropMarks mark text with
  | case1 c d rest hMark ih =>
    rcases ih with ⟨count, hRest⟩
    refine ⟨count + 1, ?_⟩
    rw [hMark.1, hMark.2, marks, List.cons_append, List.cons_append, ← hRest]
  | case2 c d rest hMark => exact ⟨0, rfl⟩
  | case3 text hShort => exact ⟨0, rfl⟩

/-- Marks hold only two characters. -/
theorem not_mem_marks {c : Char} (hZero : c ≠ '0') (hMark : c ≠ mark) (count : Nat) : c ∉ marks mark count := by
  induction count with
  | zero => exact List.not_mem_nil
  | succ count ih => simp [marks, hZero, hMark, ih]

/-- What is dropped of a text with dollar signs are just these. -/
theorem exists_dollars (text : List Char) :
    ∃ count, text = List.replicate count '$' ++ text.dropWhile (· == '$') := by
  have hDollars : text.takeWhile (· == '$') =
      List.replicate (text.takeWhile (· == '$')).length '$' := by
    refine List.eq_replicate_iff.mpr ⟨rfl, fun c hMem => ?_⟩
    simpa using List.mem_takeWhile_imp hMem
  refine ⟨(text.takeWhile (· == '$')).length, ?_⟩
  rw [← hDollars]
  exact List.takeWhile_append_dropWhile.symm

/-- The marks are what is dropped. -/
theorem exists_prefixes (text : List Char) : ∃ lower upper dollars,
    text = marks 'x' lower ++ (marks 'X' upper ++ (List.replicate dollars '$' ++ dropPrefixes text)) := by
  rcases exists_marks 'x' text with ⟨lower, hLower⟩
  rcases exists_marks 'X' (dropMarks 'x' text) with ⟨upper, hUpper⟩
  rcases exists_dollars (dropMarks 'X' (dropMarks 'x' text)) with ⟨dollars, hDollars⟩
  refine ⟨lower, upper, dollars, ?_⟩
  rw [dropPrefixes, ← hDollars, ← hUpper, ← hLower]

/-- What stands behind the marks is kept, if it has none of their characters but `0`. -/
theorem dropPrefixes_append (lower upper dollars : Nat)
    (h : ∀ c ∈ rest, c ≠ 'x' ∧ c ≠ 'X' ∧ c ≠ '$') :
    dropPrefixes (marks 'x' lower ++ (marks 'X' upper ++ (List.replicate dollars '$' ++ rest))) = rest := by
  have hLower : 'x' ∉ marks 'X' upper ++ (List.replicate dollars '$' ++ rest) := by
    have hMarks : 'x' ∉ marks 'X' upper := not_mem_marks (by decide) (by decide) upper
    have hRest : 'x' ∉ rest := fun hMem => (h 'x' hMem).1 rfl
    simp [hMarks, hRest]
  have hUpper : 'X' ∉ List.replicate dollars '$' ++ rest := by
    have hRest : 'X' ∉ rest := fun hMem => (h 'X' hMem).2.1 rfl
    simp [hRest]
  have hDollars : rest.head? ≠ some '$' := fun hFirst => (h '$' (List.mem_of_head? hFirst)).2.2 rfl
  rw [dropPrefixes, dropMarks_marks_append, dropMarks_of_not_mem hLower, dropMarks_marks_append,
    dropMarks_of_not_mem hUpper, Text.dropWhile_replicate_append hDollars dollars]

end Marks

/-! ## Addresses -/

/-- Parsing succeeds exactly on what is written by the grammar, with the number that it stands for. -/
theorem parse_eq_ok_iff {text : String} {value : UInt16} :
    parse text = .ok value ↔ Written text.toList value.toNat := by
  rw [parse, readNumber_eq_ok_iff]
  constructor
  · rintro ⟨sign, digits, hSign, hText, hDigits⟩
    rcases exists_prefixes text.toList with ⟨lower, upper, dollars, hPrefixes⟩
    rw [hPrefixes, hText]
    exact .address lower upper dollars hSign hDigits
  · intro hWritten
    generalize text.toList = chars at hWritten
    cases hWritten with
    | @address lower upper dollars sign digits _ hSign hDigits =>
      refine ⟨sign, digits, hSign, dropPrefixes_append lower upper dollars fun c hMem => ?_, hDigits⟩
      -- A sign or a digit never reads as a prefix, so the prefixes end where the numeral starts.
      rcases List.mem_append.mp hMem with hFront | hBack
      · have hPlus : c = '+' := by
          rcases hSign with rfl | rfl
          · cases hFront
          · exact List.mem_singleton.mp hFront
        rw [hPlus]
        decide
      · rcases hDigits.exists_isDigit c hBack with ⟨d, hDigit⟩
        exact ⟨hDigit.ne.1, hDigit.ne.2.1, hDigit.ne.2.2.1⟩

/-- A numeral behind one mark, or none, is an address. -/
theorem parse_marked {digits : String} {value : UInt16} (h : Numeral digits.toList value.toNat) {mark : String}
    (hMark : mark ∈ ["", "0x", "0X", "$"]) : parse (mark ++ digits) = .ok value := by
  rw [parse_eq_ok_iff, String.toList_append]
  simp only [List.mem_cons, List.not_mem_nil, or_false] at hMark
  rcases hMark with rfl | rfl | rfl | rfl
  · exact .address 0 0 0 (.inl rfl) h
  · exact .address 1 0 0 (.inl rfl) h
  · exact .address 0 1 0 (.inl rfl) h
  · exact .address 0 0 1 (.inl rfl) h

/-- **The reader of addresses accepts exactly its grammar.** A text is read as a word if and only if it is an
address for it, and a text that is an address for no word is refused. So a word that is written in hexadecimal, in
either case, with any number of leading zeros and behind any one mark or none, is read back. -/
theorem parse_accepts_exactly_its_grammar (text : String) (value : UInt16) :
    (parse text = .ok value ↔ Written text.toList value.toNat) ∧
    ((∃ error, parse text = .error error) ↔ ∀ word : UInt16, ¬Written text.toList word.toNat) ∧
    ∀ width, ∀ mark ∈ ["", "0x", "0X", "$"],
      parse (mark ++ Hexadecimal.lower width value.toNat) = .ok value ∧
        parse (mark ++ Hexadecimal.upper width value.toNat) = .ok value := by
  refine ⟨parse_eq_ok_iff, ?_, fun width mark hMark => ⟨?_, ?_⟩⟩
  · -- A parse ends one way or the other, so failing is having no number.
    simp only [← parse_eq_ok_iff]
    cases parse text with
    | error error => simp
    | ok word => simp
  · have hDigits := numeral_map_toDigits (f := id) (fun d h => isDigit_digitChar h) value.toNat
    rw [List.map_id] at hDigits
    refine parse_marked ?_ hMark
    rw [Hexadecimal.lower, String.toList_ofList]
    exact hDigits.zeroFilled width
  · have hDigits := numeral_map_toDigits (fun d h => isDigit_toUpper h) value.toNat
    refine parse_marked ?_ hMark
    rw [Hexadecimal.upper, String.toList_ofList]
    exact hDigits.zeroFilled width

example : parse "0x0x0X$$+00fF" = .ok 0xFF := by decide

end NesMachine.HexAddress
