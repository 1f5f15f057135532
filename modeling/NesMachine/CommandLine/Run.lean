import NesMachine.Cartridge
import NesMachine.CommandLine.Options

/-!
# A run

What the command does with its options: mount the image, run, print the trace, and draw the last frame.
Reading and writing files is left to the caller, who hands in the image and gets back the picture.
-/

namespace NesMachine

inductive LoadError
  /-- The system's text for a file that cannot be read. -/
  | unreadable (reason : String)
  | malformed (error : CartridgeError)
  deriving DecidableEq, Repr

def LoadError.message : LoadError → String
  | unreadable reason => "i/o error while reading cartridge: " ++ reason
  | malformed error => error.message

/-- The message and the messages of what it is due to. -/
def LoadError.causes : LoadError → List String
  | unreadable reason => [(unreadable reason).message, reason]
  | malformed error => [error.message]

def Cartridge.load : Except String (List UInt8) → Except LoadError Cartridge
  | .error reason => .error (.unreadable reason)
  | .ok image =>
    match Cartridge.parse image with
    | .error error => .error (.malformed error)
    | .ok cartridge => .ok cartridge

namespace CommandLine

/-- A run that has failed: what was tried, and why it did not work, from the nearest cause on. -/
structure Failure where
  context : String
  causes : List String := []
  deriving DecidableEq, Repr

namespace Failure

/-- The lines of the causes. They are numbered if there are several. -/
def causeLines : List String → List String
  | [] => []
  | [cause] => ["", "Caused by:", "    " ++ cause]
  | causes =>
    "" :: "Caused by:" ::
      causes.mapIdx fun i cause => Column.right 5 (toString i) ++ ": " ++ cause

/-- What the user is told. A path in it may hold line breaks of its own. -/
def text (failure : Failure) : String :=
  "\n".intercalate (("Error: " ++ failure.context) :: causeLines failure.causes)

def ofLoadError (path : String) (error : LoadError) : Failure :=
  { context := "failed to load " ++ path, causes := error.causes }

def ofMountError (error : MountError) : Failure :=
  { context := "unsupported cartridge", causes := [error.message] }

def nothingTraced : Failure :=
  { context := "no instructions were traced" }

def unwritable (path reason : String) : Failure :=
  { context := "failed to write " ++ path, causes := [reason] }

end Failure

def pictureHeader : String :=
  "P6\n" ++ toString Picture.width ++ " " ++ toString Picture.height ++ "\n255\n"

def pictureFile (picture : Array UInt8) : Array UInt8 :=
  pictureHeader.toUTF8.data ++ picture

structure Printer where
  limit : Option Nat
  lines : Array String := #[]
  /-- The start of the last instruction that was printed. Steps that run no instruction leave the
  machine's record in place, and it is not printed again. -/
  last : Option Nat := none

namespace Printer

def isFull (printer : Printer) : Bool :=
  match printer.limit with
  | some limit => limit ≤ printer.lines.size
  | none => false

/-- Prints the machine's last instruction, unless it has been printed. -/
def record (printer : Printer) (machine : Machine) : Printer :=
  match machine.cpu.lastRecord with
  | some line =>
    if printer.last = some line.cycles then
      printer
    else
      { printer with lines := printer.lines.push line.text, last := some line.cycles }
  | none => printer

end Printer

inductive Goal
  | cycles (budget : Nat)
  | frames (count : Nat)
  deriving DecidableEq, Repr

namespace Goal

def ofOptions (options : Options) : Goal :=
  match options.span with
  | some seconds => cycles (Clock.cyclesFor seconds)
  | none => frames options.frames

def isReached (goal : Goal) (machine : Machine) : Bool :=
  match goal with
  | cycles budget => budget ≤ machine.cycles
  | frames count => count ≤ machine.ppu.beam.frame

/-- A number of steps that is enough to reach the goal. -/
def stepLimit : Goal → Nat
  | cycles budget => budget
  | frames count => count * Clock.dotsPerFrame

end Goal

/-- Steps and prints until the goal is reached or the printer is full, at most `limit` times. -/
def traceWithin (goal : Goal) (machine : Machine) (printer : Printer) :
    (limit : Nat) → Machine × Printer
  | 0 => (machine, printer)
  | limit + 1 =>
    if goal.isReached machine || printer.isFull then
      (machine, printer)
    else
      let machine := machine.step.2
      traceWithin goal machine (printer.record machine) limit

def runFrames (machine : Machine) : (frames : Nat) → Machine
  | 0 => machine
  | frames + 1 => runFrames machine.runToNextFrame.2 frames

/-- What a run prints, and how it ends: with the picture to be written, if one is asked for. -/
structure Outcome where
  output : Array String := #[]
  result : Except Failure (Option (String × Array UInt8))

def boot (options : Options) (image : Except String (List UInt8)) : Except Failure Machine := do
  let cartridge ← (Cartridge.load image).mapError (Failure.ofLoadError options.rom)
  let machine ← (cartridge.mount { trace := options.trace }).mapError Failure.ofMountError
  match options.startPC with
  | some pc => return machine.setRegisters { machine.cpu.registers with pc }
  | none => return machine

/-- The end of a run: the last frame, if it is asked for. -/
def finish (options : Options) (machine : Machine) : Option (String × Array UInt8) :=
  options.ppm.map fun path => (path, pictureFile machine.ppu.picture)

def runMachine (options : Options) (machine : Machine) : Outcome :=
  if options.trace then
    let goal := Goal.ofOptions options
    let printer : Printer := { limit := options.traceLimit }
    let (machine, printer) := traceWithin goal machine printer goal.stepLimit
    { output := printer.lines
      result :=
        if printer.lines.isEmpty then .error Failure.nothingTraced
        else .ok (finish options machine) }
  else
    match options.span with
    | some seconds => { result := .ok (finish options (machine.advance seconds).2) }
    | none => { result := .ok (finish options (runFrames machine options.frames)) }

def run (options : Options) (image : Except String (List UInt8)) : Outcome :=
  match boot options image with
  | .error failure => { result := .error failure }
  | .ok machine => runMachine options machine

end CommandLine

end NesMachine
