import NesMachine.Console.SystemBus
import NesMachine.Cpu.Basic
import NesMachine.Ppu.Picture

/-!
# The machine

A `Machine` is the processor, the transfer engine and the system bus. A step is one instruction, one
interrupt entry or one step of a sprite transfer, followed by the dots that the picture unit processes
in that time.
-/

namespace NesMachine

structure Config where
  /-- Record instructions. -/
  trace : Bool := false
  /-- Leave out a dot of odd frames. -/
  shortOddFrames : Bool := false
  deriving DecidableEq, Repr

structure Machine where
  cpu : Cpu := {}
  dma : SpriteTransfer := {}
  bus : SystemBus
  config : Config := {}

namespace Machine

def cycles (machine : Machine) : Nat :=
  machine.bus.cycles

def ppu (machine : Machine) : Ppu :=
  machine.bus.ppu

def mapPpu (machine : Machine) (f : Ppu → Ppu) : Machine :=
  { machine with bus := { machine.bus with ppu := f machine.bus.ppu } }

/-- Starts over. Power-on clears working memory and the cycle counter. -/
def reset (machine : Machine) (kind : Reset) : Machine :=
  let bus : SystemBus :=
    { memory := if kind = .powerOn then machine.bus.memory.clearWork else machine.bus.memory
      ppu := machine.bus.ppu.reset kind
      cycles := if kind = .powerOn then 0 else machine.bus.cycles }
  { machine with bus, dma := {}, cpu := machine.cpu.resetOn kind bus }

/-! ## Construction -/

def transferAddress : UInt16 := 0x4014

def frameCounterAddress : UInt16 := 0x4017

def patternSize : Nat := 0x2000

/-- The two program banks. A single one is used twice. -/
def banks (program : List UInt8) : Except MountError (List UInt8 × List UInt8) :=
  if program.length = MainMemory.bankSize then
    .ok (program, program)
  else if program.length = 2 * MainMemory.bankSize then
    .ok (program.take MainMemory.bankSize, program.drop MainMemory.bankSize)
  else
    .error (.unsupportedProgramSize program.length)

def build (program patterns : List UInt8) (config : Config) : Except MountError Machine := do
  let (lower, upper) ← banks program
  if patterns.length ≠ 0 ∧ patterns.length ≠ patternSize then
    throw (.unsupportedPatternSize patterns.length)
  let memory ← MainMemory.ofBanks lower upper
  let (_, memory) := memory.observe transferAddress Observer.spriteTransfer
  let (_, memory) := memory.observe frameCounterAddress Observer.frameIrq
  let ppu : Ppu :=
    { vram := Vram.load (Ram.zero 16) 0 patterns
      shortOddFrames := config.shortOddFrames }
  let machine : Machine :=
    { cpu := Cpu.setTracing {} config.trace
      bus := { memory, ppu }
      config }
  return machine.reset .powerOn

/-! ## Steps -/

/-- One step of the processor or, while a transfer is active, of the transfer engine. -/
def stepProcessor (machine : Machine) : Nat × Machine :=
  if machine.dma.isActive then
    let step := machine.dma.step machine.bus.cycles
    let bus := match step.copy with
      | some copy => machine.bus.copySprite copy
      | none => machine.bus
    (step.cycles,
      { machine with dma := step.next, bus := { bus with cycles := bus.cycles + step.cycles } })
  else
    let (cycles, cpu, bus) := machine.cpu.stepOn machine.bus
    (cycles, { machine with cpu, bus })

def apply (machine : Machine) : Signal → Machine
  | .startTransfer page => { machine with dma := SpriteTransfer.start page }
  | .raiseIrq => { machine with cpu := machine.cpu.raiseIrq }

def applySignals (machine : Machine) : Machine :=
  machine.bus.signals.foldl apply { machine with bus := { machine.bus with signals := [] } }

/-- Lets the picture unit catch up, and takes its NMI over to the processor. -/
def catchUp (machine : Machine) (cycles : Nat) : Machine :=
  let (edge, ppu) := (machine.bus.ppu.ticks (Clock.dotsFor cycles)).releaseNmi
  { machine with
    cpu := if edge then machine.cpu.latchNmi else machine.cpu
    bus := { machine.bus with ppu } }

/-- One step of the machine, with the cycles that it took. -/
def step (machine : Machine) : Nat × Machine :=
  let (cycles, machine) := machine.stepProcessor
  (cycles, machine.applySignals.catchUp cycles)

/-! ## Runs -/

/-- Steps until the budget is used up, counting from `elapsed`. A step that takes no time counts as one
cycle against the budget. -/
def runBudget (machine : Machine) (budget elapsed : Nat) : Nat × Machine :=
  if budget = 0 then
    (elapsed, machine)
  else
    let (cycles, machine) := machine.step
    machine.runBudget (budget - max cycles 1) (elapsed + cycles)
termination_by budget
decreasing_by omega

/-- Steps until at least `budget` cycles have passed, and returns how many have. -/
def runFor (machine : Machine) (budget : Nat) : Nat × Machine :=
  machine.runBudget budget 0

def advance (machine : Machine) (seconds : Float) : Nat × Machine :=
  machine.runFor (Clock.cyclesFor seconds)

/-- Steps until the count of frames differs from `frame`, at most `limit` times, counting the cycles
from `elapsed`. -/
def runWithin (machine : Machine) (frame elapsed : Nat) : (limit : Nat) → Nat × Machine
  | 0 => (elapsed, machine)
  | limit + 1 =>
    if machine.bus.ppu.beam.frame = frame then
      let (cycles, machine) := machine.step
      machine.runWithin frame (elapsed + cycles) limit
    else
      (elapsed, machine)

def runToNextFrame (machine : Machine) : Nat × Machine :=
  machine.runWithin machine.bus.ppu.beam.frame 0 Clock.dotsPerFrame

/-! ## Inspection and control -/

def peek (machine : Machine) (address : UInt16) : UInt8 :=
  machine.bus.peek address

def setRegisters (machine : Machine) (registers : Registers) : Machine :=
  { machine with cpu := machine.cpu.setRegisters registers }

def setTracing (machine : Machine) (on : Bool) : Machine :=
  { machine with cpu := machine.cpu.setTracing on, config := { machine.config with trace := on } }

def observe (machine : Machine) (address : UInt16) (observer : Observer) :
    Option Observer × Machine :=
  let (replaced, memory) := machine.bus.memory.observe address observer
  (replaced, { machine with bus := { machine.bus with memory } })

end Machine

end NesMachine
