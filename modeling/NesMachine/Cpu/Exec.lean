import NesMachine.Bus.Script
import NesMachine.Cpu.Operation

/-!
# The core and its bus accesses

`Exec` is the monad in which an instruction runs: bus accesses over the registers and the latch that
keeps the bytes of the instruction. It can reach nothing else of the processor, so an instruction
cannot touch pending interrupts or the trace.

Address formation makes the accesses that the hardware makes, dummy reads included, because each access
is a cycle and may reach a device.
-/

namespace NesMachine

/-- The bytes of the current instruction, opcode first, at most three. Clearing the latch only resets
the count: the slots keep their bytes until they are filled again. -/
structure FetchLatch where
  first : UInt8 := 0
  second : UInt8 := 0
  third : UInt8 := 0
  count : Fin 4 := 0
  deriving DecidableEq, Repr, Inhabited

namespace FetchLatch

def empty : FetchLatch := {}

def clear (latch : FetchLatch) : FetchLatch :=
  { latch with count := 0 }

/-- Keeps the next byte, unless the latch is full. -/
def push (latch : FetchLatch) (byte : UInt8) : FetchLatch :=
  match latch.count with
  | 0 => { latch with first := byte, count := 1 }
  | 1 => { latch with second := byte, count := 2 }
  | 2 => { latch with third := byte, count := 3 }
  | 3 => latch

def toList (latch : FetchLatch) : List UInt8 :=
  [latch.first, latch.second, latch.third].take latch.count.val

end FetchLatch

structure Core extends Registers where
  fetched : FetchLatch := .empty
  deriving DecidableEq, Repr, Inhabited

abbrev Exec := StateT Core Script

namespace Exec

/-! ## Accesses -/

def read (address : UInt16) : Exec UInt8 :=
  fun core => .read address fun byte => .done (byte, core)

def dummyRead (address : UInt16) : Exec Unit :=
  fun core => .read address fun _ => .done ((), core)

def write (address : UInt16) (value : UInt8) : Exec Unit :=
  fun core => .write address value (.done ((), core))

def registers : Exec Registers :=
  fun core => .done (core.toRegisters, core)

def update (f : Registers → Registers) : Exec Unit :=
  fun core => .done ((), { core with toRegisters := f core.toRegisters })

def setPC (pc : UInt16) : Exec Unit :=
  update fun r => { r with pc }

def dummyFetch : Exec Unit := do
  dummyRead (← registers).pc

/-- Reads the byte at the program counter, keeps it in the latch and moves on. -/
def fetch : Exec UInt8 :=
  fun core => .read core.pc fun byte =>
    .done (byte, { core with pc := core.pc + 1, fetched := core.fetched.push byte })

def fetchWord : Exec UInt16 := do
  let low ← fetch
  let high ← fetch
  return Word.ofBytes low high

/-! ## The stack -/

/-- Writes a byte where the stack pointer points, then moves the pointer down. -/
def push (value : UInt8) : Exec Unit :=
  fun core => .write core.stackAddress value (.done ((), { core with s := core.s - 1 }))

def pushWord (word : UInt16) : Exec Unit := do
  push (Word.high word)
  push (Word.low word)

/-- Moves the stack pointer up, then reads the byte there. -/
def pull : Exec UInt8 := do
  update fun r => { r with s := r.s + 1 }
  read (← registers).stackAddress

def pullWord : Exec UInt16 := do
  let low ← pull
  let high ← pull
  return Word.ofBytes low high

/-- The two dummy reads before the first pull. -/
def beforePull : Exec Unit := do
  dummyFetch
  dummyRead (← registers).stackAddress

/-! ## Address formation -/

def readWord (lowAddress highAddress : UInt16) : Exec UInt16 := do
  let low ← read lowAddress
  let high ← read highAddress
  return Word.ofBytes low high

/-- Reads the word at a pointer in page zero, which wraps within the page. -/
def readZeroPageWord (pointer : UInt8) : Exec UInt16 :=
  readWord pointer.toUInt16 (pointer + 1).toUInt16

/-- An address in page zero with an index added, after a dummy read of the plain address. -/
def zeroPageIndexed (index : Registers → UInt8) : Exec UInt8 := do
  let address ← fetch
  dummyRead address.toUInt16
  return address + index (← registers)

def index : IndexedMode → Registers → UInt8
  | .absoluteX, r => r.x
  | .absoluteY, r => r.y
  | .indirectY, r => r.y

def base : IndexedMode → Exec UInt16
  | .absoluteX | .absoluteY => fetchWord
  | .indirectY => do readZeroPageWord (← fetch)

inductive Purpose
  | load
  | store
  deriving DecidableEq, Repr

/-- Adds an index to a base. The sum of the low bytes is ready first, so the processor reads from the
page of the base; a load that stays on this page has then no need of a second read. -/
def indexed (purpose : Purpose) (base : UInt16) (index : UInt8) : Exec UInt16 := do
  let address := base + index.toUInt16
  if purpose = .store || !Word.samePage base address then
    dummyRead (Word.onPageOf base address)
  return address

def address (purpose : Purpose) : MemoryMode → Exec UInt16
  | .zeroPage => UInt8.toUInt16 <$> fetch
  | .zeroPageX => UInt8.toUInt16 <$> zeroPageIndexed (·.x)
  | .zeroPageY => UInt8.toUInt16 <$> zeroPageIndexed (·.y)
  | .absolute => fetchWord
  | .indirectX => do readZeroPageWord (← zeroPageIndexed (·.x))
  | .indexed mode => do
    let start ← base mode
    indexed purpose start (index mode (← registers))

/-- The word that a pointer holds. Its second byte is on the same page as the first. -/
def readPointer (pointer : UInt16) : Exec UInt16 :=
  readWord pointer (Word.onPageOf pointer (pointer + 1))

end Exec

end NesMachine
