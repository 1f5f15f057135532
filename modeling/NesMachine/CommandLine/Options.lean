import NesMachine.CommandLine.HexAddress
import NesMachine.CommandLine.Number

/-!
# Options

The words of a command line and what they ask for. Words are taken from left to right. The value of an
option, and the path of the image, are looked at when the next option or the end of the line comes;
values that are attached to their option are looked at once. Of two faults the one that is seen first
is reported, but an unknown option is reported before a value that still waits.
-/

namespace NesMachine

inductive LogLevel
  | error
  | warn
  | info
  | debug
  | trace
  deriving DecidableEq, Repr

namespace LogLevel

def all : List LogLevel :=
  [error, warn, info, debug, trace]

def name : LogLevel → String
  | error => "ERROR"
  | warn => "WARN"
  | info => "INFO"
  | debug => "DEBUG"
  | trace => "TRACE"

/-- Reads a level by its name, in either case, or by its number. -/
def parse? (text : String) : Option LogLevel :=
  match Number.count? text with
  | some (n + 1) => all[n]?
  | some 0 => none
  | none => all.find? fun level => level.name.toList = text.toList.map Char.toUpper

end LogLevel

structure Options where
  /-- The path of the image. -/
  rom : String
  /-- The seconds to run, as the bits of a double. -/
  seconds : Option UInt64
  /-- The frames to run. -/
  frames : Nat
  trace : Bool
  /-- Stop after this many lines. -/
  traceLimit : Option Nat
  /-- Where to start instead of at the reset vector. -/
  startPC : Option UInt16
  /-- Where to write the last frame. -/
  ppm : Option String
  logLevel : LogLevel
  deriving DecidableEq, Repr

def Options.span (options : Options) : Option Float :=
  options.seconds.map Float.ofBits

/-- Why a command line is refused, or answered without a run. -/
inductive UsageError
  | unknownArgument
  | missingValue
  | unexpectedValue
  | invalidValue
  | conflict
  | missingArgument
  | helpRequested
  deriving DecidableEq, Repr

def UsageError.message : UsageError → String
  | unknownArgument => "unexpected argument"
  | missingValue => "a value is required"
  | unexpectedValue => "unexpected value"
  | invalidValue => "invalid value"
  | conflict => "arguments cannot be used together"
  | missingArgument => "a required argument is missing"
  | helpRequested => "help requested"

namespace CommandLine

inductive Setting
  | rom
  | seconds
  | frames
  | traceLimit
  | startPC
  | ppm
  | logLevel
  deriving DecidableEq, Repr

/-- What a name after two dashes stands for. -/
inductive LongOption
  | setting (setting : Setting)
  | trace
  | help
  deriving DecidableEq, Repr

def LongOption.ofName? : String → Option LongOption
  | "seconds" => some (.setting .seconds)
  | "frames" => some (.setting .frames)
  | "trace" => some .trace
  | "trace-limit" => some (.setting .traceLimit)
  | "start-pc" => some (.setting .startPC)
  | "ppm" => some (.setting .ppm)
  | "log-level" => some (.setting .logLevel)
  | "help" => some .help
  | _ => none

/-- A word as its dashes tell it. -/
inductive Word
  | plain (text : String)
  /-- Two dashes alone. -/
  | separator
  | long (name : String) (value : Option String)
  | short (letters : List Char)
  deriving DecidableEq, Repr

def Word.ofString (text : String) : Word :=
  match text.toList with
  | ['-', '-'] => .separator
  | '-' :: '-' :: rest =>
    let name := String.ofList (rest.takeWhile (· != '='))
    match rest.dropWhile (· != '=') with
    | _ :: value => .long name (some (String.ofList value))
    | [] => .long name none
  | '-' :: letter :: letters => .short (letter :: letters)
  | _ => .plain text

structure Given where
  rom : Option String := none
  seconds : Option UInt64 := none
  frames : Option Nat := none
  trace : Bool := false
  traceLimit : Option Nat := none
  startPC : Option UInt16 := none
  ppm : Option String := none
  logLevel : Option LogLevel := none
  deriving DecidableEq, Repr

namespace Given

def path (text : String) : Except UsageError String :=
  if text.isEmpty then .error .missingValue else .ok text

def valid {α : Type} : Option α → Except UsageError α
  | some value => .ok value
  | none => .error .invalidValue

def has (given : Given) : Setting → Bool
  | .rom => given.rom.isSome
  | .seconds => given.seconds.isSome
  | .frames => given.frames.isSome
  | .traceLimit => given.traceLimit.isSome
  | .startPC => given.startPC.isSome
  | .ppm => given.ppm.isSome
  | .logLevel => given.logLevel.isSome

/-- Reads the value of a setting that has none yet. -/
def set (given : Given) (setting : Setting) (text : String) : Except UsageError Given :=
  if given.has setting then
    .error .conflict
  else
    match setting with
    | .rom => do return { given with rom := some (← path text) }
    | .seconds => do return { given with seconds := some (← valid (Number.double? text)) }
    | .frames => do return { given with frames := some (← valid (Number.count? text)) }
    | .traceLimit => do return { given with traceLimit := some (← valid (Number.count? text)) }
    | .startPC => do
      return { given with startPC := some (← valid (HexAddress.parse text).toOption) }
    | .ppm => do return { given with ppm := some (← path text) }
    | .logLevel => do return { given with logLevel := some (← valid (LogLevel.parse? text)) }

def setTrace (given : Given) : Except UsageError Given :=
  if given.trace then .error .conflict else .ok { given with trace := true }

/-- What is asked for, unless the parts do not fit together. -/
def options (given : Given) : Except UsageError Options :=
  if given.seconds.isSome && given.frames.isSome then
    .error .conflict
  else if given.traceLimit.isSome && !given.trace then
    .error .missingArgument
  else
    match given.rom with
    | none => .error .missingArgument
    | some rom =>
      .ok
        { rom
          seconds := given.seconds
          frames := given.frames.getD 1
          trace := given.trace
          traceLimit := given.traceLimit
          startPC := given.startPC
          ppm := given.ppm
          logLevel := given.logLevel.getD .info }

end Given

/-- The setting that has not been read yet. -/
inductive Pending
  | nothing
  /-- The next word is the value. -/
  | awaiting (setting : Setting)
  | value (setting : Setting) (text : String)
  deriving DecidableEq, Repr

structure Scan where
  given : Given := {}
  pending : Pending := .nothing
  /-- Set once two dashes have been seen: all words are plain. -/
  onlyPlain : Bool := false
  /-- Set once the path of the image has been seen. -/
  pathSeen : Bool := false
  deriving DecidableEq, Repr

namespace Scan

def settle (scan : Scan) : Except UsageError Scan :=
  match scan.pending with
  | .nothing => .ok scan
  | .awaiting _ => .error .missingValue
  | .value setting text => do
    return { scan with given := ← scan.given.set setting text, pending := .nothing }

/-- An option with a value attached to it or in the next word. -/
def setting (scan : Scan) (setting : Setting) (value : Option String) : Except UsageError Scan := do
  let scan ← scan.settle
  match value with
  | some text => return { scan with given := ← scan.given.set setting text }
  | none => return { scan with pending := .awaiting setting }

def help (scan : Scan) : Except UsageError Scan := do
  let _ ← scan.settle
  throw .helpRequested

def long (scan : Scan) (name : String) (value : Option String) : Except UsageError Scan :=
  match LongOption.ofName? name, value with
  | none, _ => .error .unknownArgument
  | some (.setting setting), value => scan.setting setting value
  | some _, some _ => .error .unexpectedValue
  | some .trace, none => do
    let scan ← scan.settle
    return { scan with given := ← scan.given.setTrace }
  | some .help, none => scan.help

/-- An option by its letter, with a value that may be attached to it, after an equals sign or not. -/
def short (scan : Scan) : List Char → Except UsageError Scan
  | 'h' :: _ => scan.help
  | ['l'] => scan.setting .logLevel none
  | 'l' :: '=' :: value => scan.setting .logLevel (some (String.ofList value))
  | 'l' :: value => scan.setting .logLevel (some (String.ofList value))
  | _ => .error .unknownArgument

/-- The path of the image. There is only one. -/
def positional (scan : Scan) (text : String) : Except UsageError Scan :=
  if scan.pathSeen then
    .error .unknownArgument
  else do
    let scan ← scan.settle
    return { scan with pending := .value .rom text, pathSeen := true }

def plain (scan : Scan) (text : String) : Except UsageError Scan :=
  match scan.pending with
  | .awaiting setting => .ok { scan with pending := .value setting text }
  | _ => scan.positional text

def next (scan : Scan) (text : String) : Except UsageError Scan :=
  if scan.onlyPlain then
    scan.positional text
  else
    match Word.ofString text with
    | .separator => .ok { scan with onlyPlain := true }
    | .long name value => scan.long name value
    | .short letters => scan.short letters
    | .plain text => scan.plain text

end Scan

def parse (words : List String) : Except UsageError Options := do
  let scan ← words.foldlM Scan.next {}
  (← scan.settle).given.options

end CommandLine

end NesMachine
