import NesMachine.Cpu.Form

/-!
# Instructions

An instruction is what an opcode byte decodes to. Its shape says how the processor uses the bus: which
operations read an operand, which store, and which read, change and write back. Combinations that no
opcode has cannot be written down.
-/

namespace NesMachine

/-- Modes that add an index register to a word. -/
inductive IndexedMode
  | absoluteX
  | absoluteY
  | indirectY
  deriving DecidableEq, Repr

inductive MemoryMode
  | zeroPage
  | zeroPageX
  | zeroPageY
  | absolute
  | indirectX
  | indexed (mode : IndexedMode)
  deriving DecidableEq, Repr

@[match_pattern] abbrev MemoryMode.absoluteX : MemoryMode := .indexed .absoluteX

@[match_pattern] abbrev MemoryMode.absoluteY : MemoryMode := .indexed .absoluteY

@[match_pattern] abbrev MemoryMode.indirectY : MemoryMode := .indexed .indirectY

inductive ImpliedOp
  | tax | tay | tsx | txa | txs | tya
  | inx | iny | dex | dey
  | clc | sec | cld | sed | cli | sei | clv
  | nop
  /-- Takes the time of a `nop` instead of locking the bus. -/
  | jam
  deriving DecidableEq, Repr

inductive ReadOp
  | lda | ldx | ldy | lax | las
  | and | ora | eor | bit
  | adc | sbc | cmp | cpx | cpy
  | anc | alr | arr | sbx | xaa
  | nop
  deriving DecidableEq, Repr

/-- Stores of a value that depends on registers alone. -/
inductive StoreOp
  | sta | stx | sty | sax
  deriving DecidableEq, Repr

/-- Stores whose value also depends on the address. -/
inductive UnstableOp
  | sha | shx | shy | shs
  deriving DecidableEq, Repr

inductive ShiftOp
  | asl | lsr | rol | ror
  deriving DecidableEq, Repr

/-- Operations that change a byte of memory, some of them with a second effect on registers. -/
inductive ModifyOp
  | shift (op : ShiftOp)
  | inc | dec
  | slo | rla | sre | rra | dcp | isc
  deriving DecidableEq, Repr

inductive Condition
  | carryClear | carrySet
  | notEqual | equal
  | plus | minus
  | overflowClear | overflowSet
  deriving DecidableEq, Repr

inductive Instruction
  | implied (op : ImpliedOp)
  | immediate (op : ReadOp)
  | read (op : ReadOp) (mode : MemoryMode)
  | store (op : StoreOp) (mode : MemoryMode)
  | storeUnstable (op : UnstableOp) (mode : IndexedMode)
  | shiftAccumulator (op : ShiftOp)
  | modify (op : ModifyOp) (mode : MemoryMode)
  | branch (condition : Condition)
  | jmp
  | jmpIndirect
  | jsr
  | rts
  | brk
  | rti
  | pha
  | php
  | pla
  | plp
  deriving DecidableEq, Repr

/-! ## Assembly forms -/

def IndexedMode.mode : IndexedMode → Mode
  | absoluteX => .absoluteX
  | absoluteY => .absoluteY
  | indirectY => .indirectY

def MemoryMode.mode : MemoryMode → Mode
  | zeroPage => .zeroPage
  | zeroPageX => .zeroPageX
  | zeroPageY => .zeroPageY
  | absolute => .absolute
  | indirectX => .indirectX
  | indexed mode => mode.mode

def ImpliedOp.mnemonic : ImpliedOp → Mnemonic
  | tax => .tax | tay => .tay | tsx => .tsx | txa => .txa | txs => .txs | tya => .tya
  | inx => .inx | iny => .iny | dex => .dex | dey => .dey
  | clc => .clc | sec => .sec | cld => .cld | sed => .sed | cli => .cli | sei => .sei | clv => .clv
  | nop => .nop
  | jam => .jam

def ReadOp.mnemonic : ReadOp → Mnemonic
  | lda => .lda | ldx => .ldx | ldy => .ldy | lax => .lax | las => .las
  | and => .and | ora => .ora | eor => .eor | bit => .bit
  | adc => .adc | sbc => .sbc | cmp => .cmp | cpx => .cpx | cpy => .cpy
  | anc => .anc | alr => .alr | arr => .arr | sbx => .sbx | xaa => .xaa
  | nop => .nop

def StoreOp.mnemonic : StoreOp → Mnemonic
  | sta => .sta | stx => .stx | sty => .sty | sax => .sax

def UnstableOp.mnemonic : UnstableOp → Mnemonic
  | sha => .sha | shx => .shx | shy => .shy | shs => .shs

def ShiftOp.mnemonic : ShiftOp → Mnemonic
  | asl => .asl | lsr => .lsr | rol => .rol | ror => .ror

def ModifyOp.mnemonic : ModifyOp → Mnemonic
  | shift op => op.mnemonic
  | inc => .inc | dec => .dec
  | slo => .slo | rla => .rla | sre => .sre | rra => .rra | dcp => .dcp | isc => .isc

def Condition.mnemonic : Condition → Mnemonic
  | carryClear => .bcc | carrySet => .bcs
  | notEqual => .bne | equal => .beq
  | plus => .bpl | minus => .bmi
  | overflowClear => .bvc | overflowSet => .bvs

namespace Instruction

def form : Instruction → Form
  | implied op => ⟨op.mnemonic, .implied⟩
  | immediate op => ⟨op.mnemonic, .immediate⟩
  | read op mode => ⟨op.mnemonic, mode.mode⟩
  | store op mode => ⟨op.mnemonic, mode.mode⟩
  | storeUnstable op mode => ⟨op.mnemonic, mode.mode⟩
  | shiftAccumulator op => ⟨op.mnemonic, .accumulator⟩
  | modify op mode => ⟨op.mnemonic, mode.mode⟩
  | branch condition => ⟨condition.mnemonic, .relative⟩
  | jmp => ⟨.jmp, .absolute⟩
  | jmpIndirect => ⟨.jmp, .indirect⟩
  | jsr => ⟨.jsr, .absolute⟩
  | rts => ⟨.rts, .implied⟩
  | brk => ⟨.brk, .implied⟩
  | rti => ⟨.rti, .implied⟩
  | pha => ⟨.pha, .implied⟩
  | php => ⟨.php, .implied⟩
  | pla => ⟨.pla, .implied⟩
  | plp => ⟨.plp, .implied⟩

/-- Instructions that change the interrupt flag after the interrupt lines have been polled. -/
def pollsBeforeEffect : Instruction → Bool
  | implied .cli | implied .sei | plp => true
  | _ => false

end Instruction

end NesMachine
