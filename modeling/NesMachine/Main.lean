import NesMachine.CommandLine.Help
import NesMachine.CommandLine.Run

/-!
# The command

Reads the image, runs it, prints the trace and writes the picture. Everything that is decided is decided
by `CommandLine.parse` and `CommandLine.run`.
-/

namespace NesMachine.CommandLine

def systemReason (error : IO.Error) : String :=
  let withCode (code : UInt32) (details : String) : String :=
    details ++ " (os error " ++ toString code ++ ")"
  match error with
  | .noFileOrDirectory _ code details => withCode code details
  | .permissionDenied _ code details => withCode code details
  | .inappropriateType _ code details => withCode code details
  | .invalidArgument _ code details => withCode code details
  | .resourceExhausted _ code details => withCode code details
  | .otherError code details => withCode code details
  | other => toString other

/-- Runs an action and keeps the system's text if it fails. -/
def attempt {α : Type} (action : IO α) : IO (Except String α) := do
  try
    return .ok (← action)
  catch error =>
    return .error (systemReason error)

def commandName : String := "nes-machine"

def report (failure : Failure) : IO UInt32 := do
  IO.eprintln failure.text
  return 1

def readFile (path : String) : IO ByteArray := do
  (← IO.FS.Handle.mk path .read).readBinToEnd

def execute (options : Options) : IO UInt32 := do
  let image ← attempt (readFile options.rom)
  let outcome := run options (image.map (·.toList))
  for line in outcome.output do
    IO.println line
  match outcome.result with
  | .error failure => report failure
  | .ok none => return 0
  | .ok (some (path, bytes)) =>
    match ← attempt (IO.FS.writeBinFile path ⟨bytes⟩) with
    | .ok () => return 0
    | .error reason => report (Failure.unwritable path reason)

end NesMachine.CommandLine

open NesMachine.CommandLine in
def main (words : List String) : IO UInt32 := do
  match parse words with
  | .ok options => execute options
  | .error .helpRequested =>
    for line in help commandName do
      IO.println line
    return 0
  | .error error =>
    IO.eprintln ("error: " ++ error.message)
    return 2
