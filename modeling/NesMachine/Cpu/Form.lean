/-!
# Assembly forms

An assembly form is a mnemonic with an addressing mode, as a listing shows it. It determines the
length of the instruction. `Mnemonic` has the documented names and those in common use for the
undocumented instructions. Each has a name of its own, so a listing tells forms apart
(`Form.text_inj`).
-/

namespace NesMachine

inductive Mnemonic
  | las | lax | lda | ldx | ldy | sax | sha | shx | shy | sta | stx | sty
  | shs | tax | tay | tsx | txa | txs | tya | pha | php | pla | plp | asl
  | lsr | rol | ror | and | bit | eor | ora | adc | alr | anc | arr | cmp
  | cpx | cpy | dcp | isc | rla | rra | sbc | sbx | slo | sre | xaa | dec
  | dex | dey | inc | inx | iny | brk | jmp | jsr | rti | rts | bcc | bcs
  | beq | bmi | bne | bpl | bvc | bvs | clc | cld | cli | clv | sec | sed
  | sei | jam | nop
  deriving DecidableEq, Repr

inductive Mode
  | implied | accumulator | immediate
  | absolute | absoluteX | absoluteY | indirect
  | zeroPage | zeroPageX | zeroPageY | indirectX | indirectY
  | relative
  deriving DecidableEq, Repr

structure Form where
  mnemonic : Mnemonic
  mode : Mode
  deriving DecidableEq, Repr

def Mnemonic.name : Mnemonic → String
  | .las => "LAS" | .lax => "LAX" | .lda => "LDA" | .ldx => "LDX"
  | .ldy => "LDY" | .sax => "SAX" | .sha => "SHA" | .shx => "SHX"
  | .shy => "SHY" | .sta => "STA" | .stx => "STX" | .sty => "STY"
  | .shs => "SHS" | .tax => "TAX" | .tay => "TAY" | .tsx => "TSX"
  | .txa => "TXA" | .txs => "TXS" | .tya => "TYA" | .pha => "PHA"
  | .php => "PHP" | .pla => "PLA" | .plp => "PLP" | .asl => "ASL"
  | .lsr => "LSR" | .rol => "ROL" | .ror => "ROR" | .and => "AND"
  | .bit => "BIT" | .eor => "EOR" | .ora => "ORA" | .adc => "ADC"
  | .alr => "ALR" | .anc => "ANC" | .arr => "ARR" | .cmp => "CMP"
  | .cpx => "CPX" | .cpy => "CPY" | .dcp => "DCP" | .isc => "ISC"
  | .rla => "RLA" | .rra => "RRA" | .sbc => "SBC" | .sbx => "SBX"
  | .slo => "SLO" | .sre => "SRE" | .xaa => "XAA" | .dec => "DEC"
  | .dex => "DEX" | .dey => "DEY" | .inc => "INC" | .inx => "INX"
  | .iny => "INY" | .brk => "BRK" | .jmp => "JMP" | .jsr => "JSR"
  | .rti => "RTI" | .rts => "RTS" | .bcc => "BCC" | .bcs => "BCS"
  | .beq => "BEQ" | .bmi => "BMI" | .bne => "BNE" | .bpl => "BPL"
  | .bvc => "BVC" | .bvs => "BVS" | .clc => "CLC" | .cld => "CLD"
  | .cli => "CLI" | .clv => "CLV" | .sec => "SEC" | .sed => "SED"
  | .sei => "SEI" | .jam => "JAM" | .nop => "NOP"

def Mnemonic.all : List Mnemonic :=
  [ .las, .lax, .lda, .ldx, .ldy, .sax, .sha, .shx, .shy, .sta, .stx, .sty,
    .shs, .tax, .tay, .tsx, .txa, .txs, .tya, .pha, .php, .pla, .plp, .asl,
    .lsr, .rol, .ror, .and, .bit, .eor, .ora, .adc, .alr, .anc, .arr, .cmp,
    .cpx, .cpy, .dcp, .isc, .rla, .rra, .sbc, .sbx, .slo, .sre, .xaa, .dec,
    .dex, .dey, .inc, .inx, .iny, .brk, .jmp, .jsr, .rti, .rts, .bcc, .bcs,
    .beq, .bmi, .bne, .bpl, .bvc, .bvs, .clc, .cld, .cli, .clv, .sec, .sed,
    .sei, .jam, .nop ]

theorem Mnemonic.mem_all (mnemonic : Mnemonic) : mnemonic ∈ Mnemonic.all := by
  cases mnemonic <;> decide

/-- Names by which every item is found are different. -/
theorem eq_of_find?_name {α : Type} {all : List α} {name : α → String}
    (hFound : ∀ item, all.find? (fun other => name other = name item) = some item)
    {left right : α} (h : name left = name right) : left = right := by
  have hLeft := hFound left
  rw [h, hFound right] at hLeft
  exact (Option.some.inj hLeft).symm

/-- Each mnemonic is found by its name. -/
theorem Mnemonic.find?_name (mnemonic : Mnemonic) :
    all.find? (fun other => other.name = mnemonic.name) = some mnemonic := by
  have hAll : ∀ mnemonic ∈ all, all.find? (fun other => other.name = mnemonic.name) = some mnemonic := by
    decide +kernel
  exact hAll mnemonic mnemonic.mem_all

/-- No two mnemonics share a name. -/
theorem Mnemonic.name_inj {left right : Mnemonic} (h : left.name = right.name) : left = right :=
  eq_of_find?_name find?_name h

theorem Mnemonic.length_name (mnemonic : Mnemonic) : mnemonic.name.toList.length = 3 := by
  cases mnemonic <;> rfl

namespace Mode

/-- The number of bytes that follow the opcode. -/
def operandLength : Mode → Nat
  | .implied | .accumulator => 0
  | .immediate | .zeroPage | .zeroPageX | .zeroPageY | .indirectX | .indirectY | .relative => 1
  | .absolute | .absoluteX | .absoluteY | .indirect => 2

def name : Mode → String
  | .implied => "implied"
  | .accumulator => "accumulator"
  | .immediate => "immediate"
  | .absolute => "absolute"
  | .absoluteX => "absolute_x"
  | .absoluteY => "absolute_y"
  | .indirect => "indirect"
  | .zeroPage => "zero_page"
  | .zeroPageX => "zero_page_x"
  | .zeroPageY => "zero_page_y"
  | .indirectX => "indirect_x"
  | .indirectY => "indirect_y"
  | .relative => "relative"

def all : List Mode :=
  [ .implied, .accumulator, .immediate, .absolute, .absoluteX, .absoluteY, .indirect, .zeroPage,
    .zeroPageX, .zeroPageY, .indirectX, .indirectY, .relative ]

theorem mem_all (mode : Mode) : mode ∈ Mode.all := by
  cases mode <;> decide

theorem find?_name (mode : Mode) :
    all.find? (fun other => other.name = mode.name) = some mode := by
  have hAll : ∀ mode ∈ all, all.find? (fun other => other.name = mode.name) = some mode := by
    decide +kernel
  exact hAll mode mode.mem_all

/-- No two addressing modes share a name. -/
theorem name_inj {left right : Mode} (h : left.name = right.name) : left = right :=
  eq_of_find?_name find?_name h

end Mode

namespace Form

def length (form : Form) : Nat :=
  1 + form.mode.operandLength

def text (form : Form) : String :=
  form.mnemonic.name ++ " " ++ form.mode.name

/-- A listing tells forms apart. -/
theorem text_inj {left right : Form} (h : left.text = right.text) : left = right := by
  have hChars := congrArg String.toList h
  simp only [text, String.toList_append, List.append_assoc] at hChars
  -- All mnemonics have names of one length, so the texts part at the same place.
  have hLength := left.mnemonic.length_name.trans right.mnemonic.length_name.symm
  obtain ⟨hMnemonic, hRest⟩ := List.append_inj hChars hLength
  have hMode := List.append_cancel_left hRest
  have hFirst := Mnemonic.name_inj (String.toList_inj.mp hMnemonic)
  have hSecond := Mode.name_inj (String.toList_inj.mp hMode)
  cases left
  cases right
  cases hFirst
  cases hSecond
  rfl

end Form

end NesMachine
