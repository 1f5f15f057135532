import NesMachine.Cpu.Decode
import NesMachine.Cpu.Exec

/-!
# Execution

The script of each instruction, from the access after the opcode fetch to the last one, and the script
of an interrupt entry. No timing table is kept: an instruction takes as many cycles as it makes
accesses.
-/

namespace NesMachine

inductive Interrupt
  | nmi
  | irq
  deriving DecidableEq, Repr

def Interrupt.vector : Interrupt → UInt16
  | nmi => 0xFFFA
  | irq => 0xFFFE

def resetVector : UInt16 := 0xFFFC

namespace Exec

def jumpThrough (vector : UInt16) : Exec Unit := do
  setPC (← readWord vector (vector + 1))

def enterHandler (isBreak : Bool) (vector : UInt16) : Exec Unit := do
  pushWord (← registers).pc
  push ((← registers).p.toStack isBreak)
  update Registers.disableInterrupts
  jumpThrough vector

def interrupt (line : Interrupt) : Exec Unit := do
  dummyFetch
  dummyFetch
  enterHandler false line.vector

/-- Adds a signed offset to the program counter if the branch is taken. The processor meanwhile reads
the next opcode, and again from the wrong page if the target is on another one. -/
def branch (condition : Condition) : Exec Unit := do
  let offset ← fetch
  let r ← registers
  if condition.holds r.p then
    dummyRead r.pc
    let target := r.pc + Byte.signExtend offset
    if !Word.samePage r.pc target then
      dummyRead (Word.onPageOf r.pc target)
    setPC target

/-- Reads a byte, writes it back unchanged, then writes the changed one. -/
def modifyAt (op : ModifyOp) (address : UInt16) : Exec Unit := do
  let old ← read address
  write address old
  let (new, r) := op.apply old (← registers)
  update fun _ => r
  write address new

def storeUnstable (op : UnstableOp) (mode : IndexedMode) : Exec Unit := do
  let start ← base mode
  let target ← indexed .store start (index mode (← registers))
  let stored := UnstableOp.stored (op.value (← registers)) start
  update op.apply
  write (UnstableOp.target stored start target) stored

def execute : Instruction → Exec Unit
  | .implied op => do
    dummyFetch
    update op.apply
  | .immediate op => do
    let operand ← fetch
    update (op.apply operand)
  | .read op mode => do
    let operand ← read (← address .load mode)
    update (op.apply operand)
  | .store op mode => do
    let target ← address .store mode
    write target (op.value (← registers))
  | .storeUnstable op mode => storeUnstable op mode
  | .shiftAccumulator op => do
    dummyFetch
    update fun r => r.setA (op.apply r.p r.a)
  | .modify op mode => do
    modifyAt op (← address .store mode)
  | .branch condition => branch condition
  | .jmp => do
    setPC (← fetchWord)
  | .jmpIndirect => do
    setPC (← readPointer (← fetchWord))
  | .jsr => do
    let low ← fetch
    dummyRead (← registers).stackAddress
    pushWord (← registers).pc
    let high ← fetch
    setPC (Word.ofBytes low high)
  | .rts => do
    beforePull
    let pc ← pullWord
    dummyRead pc
    setPC (pc + 1)
  | .brk => do
    dummyFetch
    update fun r => { r with pc := r.pc + 1 }
    enterHandler true Interrupt.irq.vector
  | .rti => do
    beforePull
    let status ← pull
    update fun r => { r with p := Flags.ofStack status }
    setPC (← pullWord)
  | .pha => do
    dummyFetch
    push (← registers).a
  | .php => do
    dummyFetch
    push ((← registers).p.toStack true)
  | .pla => do
    beforePull
    let value ← pull
    update (·.loadA value)
  | .plp => do
    beforePull
    let status ← pull
    update fun r => { r with p := Flags.ofStack status }

def executeNext : Exec Instruction := do
  modify fun core => { core with fetched := core.fetched.clear }
  let instruction := Instruction.decode (← fetch)
  execute instruction
  return instruction

end Exec

end NesMachine
