import NesMachine.Cpu.Execute
import NesMachine.Cpu.TraceLine
import NesMachine.Reset

/-!
# The processor

A `Cpu` is a core with its interrupt inputs and its trace. A step is one instruction or one interrupt
entry. A latched NMI is entered first; then an IRQ, if one is requested and the last poll of the
interrupt lines found it unmasked.
-/

namespace NesMachine

structure Cpu where
  core : Core := {}
  /-- An NMI edge that has not been entered yet. -/
  nmiLatched : Bool := false
  /-- IRQs that have been requested and not been entered yet. -/
  irqCount : Nat := 0
  /-- What the last poll found: while set, no IRQ is entered. -/
  irqMasked : Bool := true
  /-- Whether instructions are recorded. -/
  tracing : Bool := false
  /-- The record of the last instruction that was run while tracing. -/
  lastRecord : Option TraceLine := none
  deriving DecidableEq, Inhabited

namespace Cpu

/-- The number of requests that are kept apart; more are dropped. -/
def irqCountMax : Nat := 0xFFFFFFFF

def registers (cpu : Cpu) : Registers :=
  cpu.core.toRegisters

def setRegisters (cpu : Cpu) (registers : Registers) : Cpu :=
  { cpu with core := { cpu.core with toRegisters := registers } }

def latchNmi (cpu : Cpu) : Cpu :=
  { cpu with nmiLatched := true }

def raiseIrq (cpu : Cpu) : Cpu :=
  { cpu with irqCount := min (cpu.irqCount + 1) irqCountMax }

/-- Turns tracing on or off. Turning it off drops the last record. -/
def setTracing (cpu : Cpu) (on : Bool) : Cpu :=
  { cpu with tracing := on, lastRecord := if on then cpu.lastRecord else none }

/-- The registers after a reset, but for the program counter. -/
def resetRegisters (kind : Reset) (r : Registers) : Registers :=
  match kind with
  | .powerOn => { pc := r.pc }
  | .soft => { r with s := r.s - 3 }.disableInterrupts

/-- Starts over at the address `entry`. Pending interrupts are dropped. -/
def reset (cpu : Cpu) (kind : Reset) (entry : UInt16) : Cpu :=
  { cpu with
    core := { cpu.core with toRegisters := { resetRegisters kind cpu.registers with pc := entry } }
    nmiLatched := false
    irqCount := 0
    irqMasked := true
    lastRecord := none }

def enter (cpu : Cpu) (line : Interrupt) : Script Cpu := do
  let (_, core) ← Exec.interrupt line cpu.core
  return { cpu with core, irqMasked := true }

def executeNext (cpu : Cpu) (now : Nat) : Script Cpu := do
  let (instruction, core) ← Exec.executeNext cpu.core
  let polled := if instruction.pollsBeforeEffect then cpu.registers.p else core.p
  let line : TraceLine := { registers := cpu.registers, bytes := core.fetched.toList, cycles := now }
  return { cpu with
    core
    irqMasked := polled.interruptDisable
    lastRecord := if cpu.tracing then some line else cpu.lastRecord }

/-- One instruction or one interrupt entry, where `now` is the count of cycles before it. -/
def step (cpu : Cpu) (now : Nat) : Script Cpu :=
  if cpu.nmiLatched then
    { cpu with nmiLatched := false }.enter .nmi
  else if 0 < cpu.irqCount && !cpu.irqMasked then
    { cpu with irqCount := cpu.irqCount - 1 }.enter .irq
  else
    cpu.executeNext now

section Bus

variable {σ : Type} [Bus σ]

def stepOn (cpu : Cpu) (bus : σ) : Nat × Cpu × σ :=
  let (next, bus') := (cpu.step (Bus.cycles bus)).run bus
  (Bus.cycles bus' - Bus.cycles bus, next, bus')

/-- A reset on a bus. The entry address is read off the reset vector without taking time. -/
def resetOn (cpu : Cpu) (kind : Reset) (bus : σ) : Cpu :=
  cpu.reset kind (Word.ofBytes (Bus.peek bus resetVector) (Bus.peek bus (resetVector + 1)))

end Bus

end Cpu

end NesMachine
