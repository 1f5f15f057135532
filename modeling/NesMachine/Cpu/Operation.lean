import NesMachine.Cpu.Arithmetic
import NesMachine.Cpu.Instruction
import NesMachine.Cpu.Registers

/-!
# Effects on registers

What each operation does to the registers once its operand is at hand. Nothing here uses the bus.
-/

namespace NesMachine

namespace Registers

def loadA (r : Registers) (value : UInt8) : Registers :=
  { r with a := value, p := r.p.setZN value }

def loadX (r : Registers) (value : UInt8) : Registers :=
  { r with x := value, p := r.p.setZN value }

def loadY (r : Registers) (value : UInt8) : Registers :=
  { r with y := value, p := r.p.setZN value }

def setA (r : Registers) (result : UInt8 × Flags) : Registers :=
  { r with a := result.1, p := result.2 }

def setX (r : Registers) (result : UInt8 × Flags) : Registers :=
  { r with x := result.1, p := result.2 }

def disableInterrupts (r : Registers) : Registers :=
  { r with p := { r.p with interruptDisable := true } }

end Registers

def ImpliedOp.apply (op : ImpliedOp) (r : Registers) : Registers :=
  match op with
  | .tax => r.loadX r.a
  | .tay => r.loadY r.a
  | .tsx => r.loadX r.s
  | .txa => r.loadA r.x
  | .txs => { r with s := r.x }
  | .tya => r.loadA r.y
  | .inx => r.loadX (r.x + 1)
  | .iny => r.loadY (r.y + 1)
  | .dex => r.loadX (r.x - 1)
  | .dey => r.loadY (r.y - 1)
  | .clc => { r with p := { r.p with carry := false } }
  | .sec => { r with p := { r.p with carry := true } }
  | .cld => { r with p := { r.p with decimal := false } }
  | .sed => { r with p := { r.p with decimal := true } }
  | .cli => { r with p := { r.p with interruptDisable := false } }
  | .sei => r.disableInterrupts
  | .clv => { r with p := { r.p with overflow := false } }
  | .nop | .jam => r

def ReadOp.apply (op : ReadOp) (m : UInt8) (r : Registers) : Registers :=
  match op with
  | .lda => r.loadA m
  | .ldx => r.loadX m
  | .ldy => r.loadY m
  | .lax => { r with a := m, x := m, p := r.p.setZN m }
  | .las =>
    let value := m &&& r.s
    { r with a := value, x := value, s := value, p := r.p.setZN value }
  | .and => r.loadA (r.a &&& m)
  | .ora => r.loadA (r.a ||| m)
  | .eor => r.loadA (r.a ^^^ m)
  | .bit => { r with p := Arithmetic.bitTest r.p r.a m }
  | .adc => r.setA (Arithmetic.add r.p r.a m)
  | .sbc => r.setA (Arithmetic.subtract r.p r.a m)
  | .cmp => { r with p := Arithmetic.compare r.p r.a m }
  | .cpx => { r with p := Arithmetic.compare r.p r.x m }
  | .cpy => { r with p := Arithmetic.compare r.p r.y m }
  | .anc =>
    let value := r.a &&& m
    { r with a := value, p := { r.p.setZN value with carry := Byte.isNegative value } }
  | .alr => r.setA (Arithmetic.shiftRight r.p (r.a &&& m))
  | .arr => r.setA (Arithmetic.andRotateRight r.p r.a m)
  | .sbx => r.setX (Arithmetic.subtractFromAnd r.p r.a r.x m)
  | .xaa => r.loadA ((r.a ||| 0xEE) &&& r.x &&& m)
  | .nop => r

def StoreOp.value (op : StoreOp) (r : Registers) : UInt8 :=
  match op with
  | .sta => r.a
  | .stx => r.x
  | .sty => r.y
  | .sax => r.a &&& r.x

/-- The byte that is stored, before the address has its say. -/
def UnstableOp.value (op : UnstableOp) (r : Registers) : UInt8 :=
  match op with
  | .sha => r.a &&& r.x
  | .shx => r.x
  | .shy => r.y
  | .shs => r.a &&& r.x

def UnstableOp.apply (op : UnstableOp) (r : Registers) : Registers :=
  match op with
  | .shs => { r with s := r.a &&& r.x }
  | _ => r

/-- The byte that an unstable store writes: the value is cut down by the number of the page after the
base. -/
def UnstableOp.stored (value : UInt8) (base : UInt16) : UInt8 :=
  value &&& (Word.high base + 1)

/-- Where an unstable store writes. If indexing has crossed a page, the stored byte takes the place of
the page. -/
def UnstableOp.target (stored : UInt8) (base address : UInt16) : UInt16 :=
  if Word.samePage base address then address else Word.ofBytes (Word.low address) stored

def ShiftOp.apply (op : ShiftOp) (p : Flags) (m : UInt8) : UInt8 × Flags :=
  match op with
  | .asl => Arithmetic.shiftLeft p m
  | .lsr => Arithmetic.shiftRight p m
  | .rol => Arithmetic.rotateLeft p m
  | .ror => Arithmetic.rotateRight p m

def ModifyOp.apply (op : ModifyOp) (m : UInt8) (r : Registers) : UInt8 × Registers :=
  match op with
  | .shift op =>
    let (result, p) := op.apply r.p m
    (result, { r with p })
  | .inc => (m + 1, { r with p := r.p.setZN (m + 1) })
  | .dec => (m - 1, { r with p := r.p.setZN (m - 1) })
  | .slo =>
    let (result, p) := Arithmetic.shiftLeft r.p m
    (result, { r with a := r.a ||| result, p := p.setZN (r.a ||| result) })
  | .rla =>
    let (result, p) := Arithmetic.rotateLeft r.p m
    (result, { r with a := r.a &&& result, p := p.setZN (r.a &&& result) })
  | .sre =>
    let (result, p) := Arithmetic.shiftRight r.p m
    (result, { r with a := r.a ^^^ result, p := p.setZN (r.a ^^^ result) })
  | .rra =>
    let (result, p) := Arithmetic.rotateRight r.p m
    (result, r.setA (Arithmetic.add p r.a result))
  | .dcp => (m - 1, { r with p := Arithmetic.compare r.p r.a (m - 1) })
  | .isc => (m + 1, r.setA (Arithmetic.subtract r.p r.a (m + 1)))

def Condition.holds (condition : Condition) (p : Flags) : Bool :=
  match condition with
  | .carryClear => !p.carry
  | .carrySet => p.carry
  | .notEqual => !p.zero
  | .equal => p.zero
  | .plus => !p.negative
  | .minus => p.negative
  | .overflowClear => !p.overflow
  | .overflowSet => p.overflow

end NesMachine
