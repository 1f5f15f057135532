import NesMachine.Cpu.Instruction

/-!
# The opcode table

Every byte is an opcode. The bytes that the manual leaves out have the effects that the silicon gives
them, apart from the twelve that would lock the processor.
-/

namespace NesMachine.Instruction

/-- The instructions in the order of their opcodes. -/
def table : Array Instruction :=
  #[
    -- $00
    .brk, .read .ora .indirectX, .implied .jam, .modify .slo .indirectX, .read .nop .zeroPage,
    .read .ora .zeroPage, .modify (.shift .asl) .zeroPage, .modify .slo .zeroPage, .php,
    .immediate .ora, .shiftAccumulator .asl, .immediate .anc, .read .nop .absolute,
    .read .ora .absolute, .modify (.shift .asl) .absolute, .modify .slo .absolute,
    -- $10
    .branch .plus, .read .ora .indirectY, .implied .jam, .modify .slo .indirectY,
    .read .nop .zeroPageX, .read .ora .zeroPageX, .modify (.shift .asl) .zeroPageX,
    .modify .slo .zeroPageX, .implied .clc, .read .ora .absoluteY, .implied .nop,
    .modify .slo .absoluteY, .read .nop .absoluteX, .read .ora .absoluteX,
    .modify (.shift .asl) .absoluteX, .modify .slo .absoluteX,
    -- $20
    .jsr, .read .and .indirectX, .implied .jam, .modify .rla .indirectX, .read .bit .zeroPage,
    .read .and .zeroPage, .modify (.shift .rol) .zeroPage, .modify .rla .zeroPage, .plp,
    .immediate .and, .shiftAccumulator .rol, .immediate .anc, .read .bit .absolute,
    .read .and .absolute, .modify (.shift .rol) .absolute, .modify .rla .absolute,
    -- $30
    .branch .minus, .read .and .indirectY, .implied .jam, .modify .rla .indirectY,
    .read .nop .zeroPageX, .read .and .zeroPageX, .modify (.shift .rol) .zeroPageX,
    .modify .rla .zeroPageX, .implied .sec, .read .and .absoluteY, .implied .nop,
    .modify .rla .absoluteY, .read .nop .absoluteX, .read .and .absoluteX,
    .modify (.shift .rol) .absoluteX, .modify .rla .absoluteX,
    -- $40
    .rti, .read .eor .indirectX, .implied .jam, .modify .sre .indirectX, .read .nop .zeroPage,
    .read .eor .zeroPage, .modify (.shift .lsr) .zeroPage, .modify .sre .zeroPage, .pha,
    .immediate .eor, .shiftAccumulator .lsr, .immediate .alr, .jmp, .read .eor .absolute,
    .modify (.shift .lsr) .absolute, .modify .sre .absolute,
    -- $50
    .branch .overflowClear, .read .eor .indirectY, .implied .jam, .modify .sre .indirectY,
    .read .nop .zeroPageX, .read .eor .zeroPageX, .modify (.shift .lsr) .zeroPageX,
    .modify .sre .zeroPageX, .implied .cli, .read .eor .absoluteY, .implied .nop,
    .modify .sre .absoluteY, .read .nop .absoluteX, .read .eor .absoluteX,
    .modify (.shift .lsr) .absoluteX, .modify .sre .absoluteX,
    -- $60
    .rts, .read .adc .indirectX, .implied .jam, .modify .rra .indirectX, .read .nop .zeroPage,
    .read .adc .zeroPage, .modify (.shift .ror) .zeroPage, .modify .rra .zeroPage, .pla,
    .immediate .adc, .shiftAccumulator .ror, .immediate .arr, .jmpIndirect, .read .adc .absolute,
    .modify (.shift .ror) .absolute, .modify .rra .absolute,
    -- $70
    .branch .overflowSet, .read .adc .indirectY, .implied .jam, .modify .rra .indirectY,
    .read .nop .zeroPageX, .read .adc .zeroPageX, .modify (.shift .ror) .zeroPageX,
    .modify .rra .zeroPageX, .implied .sei, .read .adc .absoluteY, .implied .nop,
    .modify .rra .absoluteY, .read .nop .absoluteX, .read .adc .absoluteX,
    .modify (.shift .ror) .absoluteX, .modify .rra .absoluteX,
    -- $80
    .immediate .nop, .store .sta .indirectX, .immediate .nop, .store .sax .indirectX,
    .store .sty .zeroPage, .store .sta .zeroPage, .store .stx .zeroPage, .store .sax .zeroPage,
    .implied .dey, .immediate .nop, .implied .txa, .immediate .xaa, .store .sty .absolute,
    .store .sta .absolute, .store .stx .absolute, .store .sax .absolute,
    -- $90
    .branch .carryClear, .store .sta .indirectY, .implied .jam, .storeUnstable .sha .indirectY,
    .store .sty .zeroPageX, .store .sta .zeroPageX, .store .stx .zeroPageY, .store .sax .zeroPageY,
    .implied .tya, .store .sta .absoluteY, .implied .txs, .storeUnstable .shs .absoluteY,
    .storeUnstable .shy .absoluteX, .store .sta .absoluteX, .storeUnstable .shx .absoluteY,
    .storeUnstable .sha .absoluteY,
    -- $A0
    .immediate .ldy, .read .lda .indirectX, .immediate .ldx, .read .lax .indirectX,
    .read .ldy .zeroPage, .read .lda .zeroPage, .read .ldx .zeroPage, .read .lax .zeroPage,
    .implied .tay, .immediate .lda, .implied .tax, .immediate .lax, .read .ldy .absolute,
    .read .lda .absolute, .read .ldx .absolute, .read .lax .absolute,
    -- $B0
    .branch .carrySet, .read .lda .indirectY, .implied .jam, .read .lax .indirectY,
    .read .ldy .zeroPageX, .read .lda .zeroPageX, .read .ldx .zeroPageY, .read .lax .zeroPageY,
    .implied .clv, .read .lda .absoluteY, .implied .tsx, .read .las .absoluteY,
    .read .ldy .absoluteX, .read .lda .absoluteX, .read .ldx .absoluteY, .read .lax .absoluteY,
    -- $C0
    .immediate .cpy, .read .cmp .indirectX, .immediate .nop, .modify .dcp .indirectX,
    .read .cpy .zeroPage, .read .cmp .zeroPage, .modify .dec .zeroPage, .modify .dcp .zeroPage,
    .implied .iny, .immediate .cmp, .implied .dex, .immediate .sbx, .read .cpy .absolute,
    .read .cmp .absolute, .modify .dec .absolute, .modify .dcp .absolute,
    -- $D0
    .branch .notEqual, .read .cmp .indirectY, .implied .jam, .modify .dcp .indirectY,
    .read .nop .zeroPageX, .read .cmp .zeroPageX, .modify .dec .zeroPageX, .modify .dcp .zeroPageX,
    .implied .cld, .read .cmp .absoluteY, .implied .nop, .modify .dcp .absoluteY,
    .read .nop .absoluteX, .read .cmp .absoluteX, .modify .dec .absoluteX, .modify .dcp .absoluteX,
    -- $E0
    .immediate .cpx, .read .sbc .indirectX, .immediate .nop, .modify .isc .indirectX,
    .read .cpx .zeroPage, .read .sbc .zeroPage, .modify .inc .zeroPage, .modify .isc .zeroPage,
    .implied .inx, .immediate .sbc, .implied .nop, .immediate .sbc, .read .cpx .absolute,
    .read .sbc .absolute, .modify .inc .absolute, .modify .isc .absolute,
    -- $F0
    .branch .equal, .read .sbc .indirectY, .implied .jam, .modify .isc .indirectY,
    .read .nop .zeroPageX, .read .sbc .zeroPageX, .modify .inc .zeroPageX, .modify .isc .zeroPageX,
    .implied .sed, .read .sbc .absoluteY, .implied .nop, .modify .isc .absoluteY,
    .read .nop .absoluteX, .read .sbc .absoluteX, .modify .inc .absoluteX, .modify .isc .absoluteX
  ]

theorem size_table : table.size = 256 := by decide +kernel

def decode (opcode : UInt8) : Instruction :=
  have : opcode.toNat < table.size := size_table ▸ opcode.toNat_lt
  table[opcode.toNat]

end NesMachine.Instruction
