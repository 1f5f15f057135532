import Mathlib.Data.Nat.ModEq
import NesMachine.Cpu.TraceLine
import NesMachine.Proofs.Safety.Checked
import NesMachine.Proofs.Text

/-!
# What a trace line tells

A trace line is a row of cells. No width depends on what is traced, since the bytes and the dot are filled up to
columns that they fit in. So the row can be taken apart, and each cell gives back what was written into it: a
register, the bytes, and the cycle count up to whole scanlines, because three dots a cycle reach each dot of a
scanline once in 341 cycles.

* `TraceLine.Fits`: the lines with the bytes of an instruction and a count of dots that fits in its word.
* `TraceLine.cells`, `TraceLine.Fits.length_cells`: the row and its widths.
* `TraceLine.dot_eq_dot_iff`: the dot and the cycle count.
* `TraceLine.text_identifies_state`: equal texts are of equal states.
-/

namespace NesMachine

attribute [ext] Registers

/-! ## The bytes of an instruction -/

namespace Hexadecimal

def spaced (bytes : List UInt8) : String :=
  " ".intercalate (bytes.map byte)

theorem spaced_cons_cons (b c : UInt8) (rest : List UInt8) :
    spaced (b :: c :: rest) = byte b ++ " " ++ spaced (c :: rest) :=
  String.intercalate_cons_cons

theorem spaced_singleton (b : UInt8) : spaced [b] = byte b :=
  String.intercalate_singleton

/-- Each byte takes two characters, and a blank stands between two of them. -/
theorem length_spaced (bytes : List UInt8) : (spaced bytes).length = 3 * bytes.length - 1 := by
  match bytes with
  | [] => rfl
  | [b] => rw [spaced_singleton, length_byte, List.length_singleton]
  | b :: c :: rest =>
    have hRest := length_spaced (c :: rest)
    rw [spaced_cons_cons, String.length_append, String.length_append, hRest, length_byte]
    simp only [List.length_cons]
    have hBlank : " ".length = 1 := rfl
    omega

/-- The blanks stand between the bytes only. -/
theorem getLast?_spaced (bytes : List UInt8) : (spaced bytes).toList.getLast? ≠ some ' ' := by
  match bytes with
  | [] => exact nofun
  | [b] =>
    rw [spaced_singleton]
    exact fun hLast => blank_not_mem_byte b (List.mem_of_getLast? hLast)
  | b :: c :: rest =>
    have hNe : (spaced (c :: rest)).toList ≠ [] := by
      apply List.ne_nil_of_length_pos
      rw [String.length_toList, length_spaced, List.length_cons]
      omega
    -- What stands behind the first blank is not empty, so the text ends where that ends.
    rw [spaced_cons_cons, String.toList_append, List.getLast?_append_of_ne_nil _ hNe]
    exact getLast?_spaced (c :: rest)

/-- The row of bytes can be read back. -/
theorem spaced_inj {bytes bytes' : List UInt8} (h : bytes ≠ []) (h' : bytes' ≠ []) :
    spaced bytes = spaced bytes' ↔ bytes = bytes' := by
  have hWords (bytes : List UInt8) : ∀ text ∈ bytes.map byte, ' ' ∉ text.toList := by
    intro text hMem
    obtain ⟨b, -, rfl⟩ := List.mem_map.mp hMem
    exact blank_not_mem_byte b
  calc
    spaced bytes = spaced bytes' ↔ bytes.map byte = bytes'.map byte :=
      Text.intercalate_blank_inj (hWords bytes) (hWords bytes') (by simpa using h) (by simpa using h')
    _ ↔ bytes = bytes' := byte_injective.list_map.eq_iff

end Hexadecimal

namespace TraceLine

variable {line other : TraceLine}

/-! ## The dot -/

/-- There are as many bytes as an instruction can have, and every dot up to this cycle can be counted. -/
structure Fits (line : TraceLine) : Prop where
  bytes_ne_nil : line.bytes ≠ []
  length_bytes_le : line.bytes.length ≤ 3
  cycles_le : line.cycles ≤ (UInt64.size - 1) / Clock.dotsPerCycle

def checkedDot (line : TraceLine) : Checked Nat := do
  let dots ← Checked.fit UInt64.size (line.cycles * Clock.dotsPerCycle)
  Checked.mod dots Clock.dotsPerScanline

/-- The dot of a line that fits is computed without a fault. -/
theorem Fits.checkedDot_eq (h : line.Fits) : line.checkedDot = .ok line.dot := by
  rw [checkedDot, Checked.fit_eq_ok (Clock.dots_lt_size h.cycles_le)]
  exact Checked.mod_eq_ok (by decide : 0 < Clock.dotsPerScanline)

theorem dot_lt (line : TraceLine) : line.dot < 341 :=
  Nat.mod_lt _ (by decide)

/-- Three has an inverse modulo the length of a scanline, so that the dot tells cycles apart. -/
theorem dot_eq_dot_iff : line.dot = other.dot ↔ line.cycles ≡ other.cycles [MOD Clock.dotsPerScanline] := by
  have hCoprime : Nat.gcd Clock.dotsPerScanline Clock.dotsPerCycle = 1 := by decide
  exact ⟨Nat.ModEq.cancel_right_of_coprime hCoprime, Nat.ModEq.mul_right Clock.dotsPerCycle⟩

/-! ## The row -/

def cells (line : TraceLine) : List String :=
  let r := line.registers
  [ Hexadecimal.word r.pc, "  ", Column.left 8 (Hexadecimal.spaced line.bytes),
    "  A:", Hexadecimal.byte r.a, " X:", Hexadecimal.byte r.x, " Y:", Hexadecimal.byte r.y,
    " P:", Hexadecimal.byte r.p.toByte, " SP:", Hexadecimal.byte r.s,
    " CYC:", Column.right 3 (toString line.dot) ]

theorem text_eq_join (line : TraceLine) : line.text = String.join line.cells := by
  simp only [text, cells, Hexadecimal.spaced, String.join_cons, String.join_nil, String.append_assoc,
    String.append_empty]

/-- No width depends on the line. -/
theorem Fits.length_cells (h : line.Fits) :
    line.cells.map String.length = [4, 2, 8, 4, 2, 3, 2, 3, 2, 3, 2, 4, 2, 5, 3] := by
  have hBytes : (Column.left 8 (Hexadecimal.spaced line.bytes)).length = 8 := by
    have hLength := h.length_bytes_le
    rw [Column.length_left, Hexadecimal.length_spaced]
    omega
  have hDot : (Column.right 3 (toString line.dot)).length = 3 := by
    rw [Column.length_right]
    exact max_eq_left (Decimal.length_toString_le (by decide) (Nat.lt_trans line.dot_lt (by decide)))
  simp only [cells, List.map_cons, List.map_nil, hBytes, hDot, Hexadecimal.length_word, Hexadecimal.length_byte]
  rfl

example : ({ registers := { pc := 0xC000 }, bytes := [0x4C, 0xF5, 0xC5], cycles := 7 } : TraceLine).text =
    "C000  4C F5 C5  A:00 X:00 Y:00 P:24 SP:FD CYC: 21" := by decide +kernel

/-- Each cell gives back what was written into it. -/
theorem cells_inj (h : line.Fits) (hOther : other.Fits) :
    line.cells = other.cells ↔
      line.registers = other.registers ∧ line.bytes = other.bytes ∧ line.dot = other.dot := by
  have hBytes := Column.left_inj 8 (Hexadecimal.getLast?_spaced line.bytes)
    (Hexadecimal.getLast?_spaced other.bytes)
  have hFirst (n : Nat) : (toString n).toList.head? ≠ some ' ' :=
    fun hBlank => Decimal.blank_not_mem_toString n (List.mem_of_head? hBlank)
  have hDot := Column.right_inj 3 (hFirst line.dot) (hFirst other.dot)
  have hStatus : Function.Injective Flags.toByte := Function.LeftInverse.injective Flags.ofByte_toByte
  -- The labels drop out, and what writes the other cells is injective.
  simp only [cells, List.cons.injEq, and_true, true_and, hBytes, hDot,
    Hexadecimal.spaced_inj h.bytes_ne_nil hOther.bytes_ne_nil, Hexadecimal.word_injective.eq_iff,
    Hexadecimal.byte_injective.eq_iff, hStatus.eq_iff, Decimal.toString_injective.eq_iff]
  constructor
  · rintro ⟨hPc, hSame, hA, hX, hY, hP, hS, hDot⟩
    exact ⟨Registers.ext hA hX hY hS hP hPc, hSame, hDot⟩
  · rintro ⟨hRegisters, hSame, hDot⟩
    rw [hRegisters]
    exact ⟨rfl, hSame, rfl, rfl, rfl, rfl, rfl, hDot⟩

/-- **The text of a trace line identifies the state that was traced.** Take two lines of one to three bytes, with so
few cycles that their dots can be counted. The dot of a line is worked out without an overflow, and its text has 49
characters. The two texts are equal if and only if the registers and the bytes are equal and the cycle counts agree
modulo 341. -/
theorem text_identifies_state (h : line.Fits) (hOther : other.Fits) :
    line.checkedDot = .ok line.dot ∧ line.text.length = 49 ∧
      (line.text = other.text ↔
        line.registers = other.registers ∧ line.bytes = other.bytes ∧
          line.cycles ≡ other.cycles [MOD Clock.dotsPerScanline]) := by
  refine ⟨h.checkedDot_eq, ?_, ?_⟩
  · rw [text_eq_join, Text.length_join, h.length_cells]
    rfl
  · have hWidths := h.length_cells.trans hOther.length_cells.symm
    calc
      line.text = other.text ↔ line.cells = other.cells := by
        rw [text_eq_join, text_eq_join, Text.join_inj hWidths]
      _ ↔ _ := by rw [cells_inj h hOther, dot_eq_dot_iff]

/-- A no-operation reads alike 341 cycles later, and not like an instruction that has one more byte. -/
theorem text_identifies_idle_state :
    let line : TraceLine := { registers := {}, bytes := [0xEA], cycles := 7 }
    let later : TraceLine := { line with cycles := 348 }
    let longer : TraceLine := { line with bytes := [0xEA, 0xEA] }
    line.Fits ∧ later.Fits ∧ longer.Fits ∧
      line.text.length = 49 ∧ line.text = later.text ∧ line.text ≠ longer.text := by
  intro line later longer
  have hLine : line.Fits := ⟨by decide, by decide, by decide⟩
  have hLater : later.Fits := ⟨by decide, by decide, by decide⟩
  have hLonger : longer.Fits := ⟨by decide, by decide, by decide⟩
  obtain ⟨-, hLength, hAlike⟩ := text_identifies_state hLine hLater
  obtain ⟨-, -, hDifferent⟩ := text_identifies_state hLine hLonger
  refine ⟨hLine, hLater, hLonger, hLength, hAlike.mpr ⟨rfl, rfl, by decide⟩, fun hText => ?_⟩
  have hBytes := (hDifferent.mp hText).2.1
  cases hBytes

end TraceLine

end NesMachine
