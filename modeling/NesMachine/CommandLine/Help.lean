import NesMachine.Column

/-!
# Help

What the command answers when it is asked for help: its purpose, its usage, and a table for the path of
the image and one for the options. The purposes in a table start in one column.
-/

namespace NesMachine.CommandLine

structure HelpEntry where
  label : String
  purpose : String
  deriving DecidableEq, Repr

namespace HelpEntry

def paths : List HelpEntry :=
  [{ label := "<ROM>", purpose := "iNES ROM image" }]

def options : List HelpEntry :=
  [ { label := "    --seconds <SECONDS>"
      purpose := "Emulated seconds to run" },
    { label := "    --frames <FRAMES>"
      purpose := "Number of frames to run [default: 1]" },
    { label := "    --trace"
      purpose := "Print a golden-log style line for every instruction" },
    { label := "    --trace-limit <TRACE_LIMIT>"
      purpose := "Stop after this many traced instructions" },
    { label := "    --start-pc <START_PC>"
      purpose := "Start execution at this address (hex) instead of the reset vector" },
    { label := "    --ppm <PPM>"
      purpose := "Write the final frame as a binary PPM image" },
    { label := "-l, --log-level <LOG_LEVEL>"
      purpose := "Log level (trace, debug, info, warn, error) [default: info]" },
    { label := "-h, --help"
      purpose := "Print help" } ]

def labelWidth (entries : List HelpEntry) : Nat :=
  entries.foldl (fun width entry => max width entry.label.length) 0

def table (entries : List HelpEntry) : List String :=
  entries.map fun entry => "  " ++ Column.left (labelWidth entries) entry.label ++ "  " ++ entry.purpose

end HelpEntry

def help (command : String) : List String :=
  ["Run an NROM cartridge headlessly and dump traces or a frame", "",
    "Usage: " ++ command ++ " [OPTIONS] <ROM>", "",
    "Arguments:"] ++ HelpEntry.table HelpEntry.paths ++
  ["", "Options:"] ++ HelpEntry.table HelpEntry.options

end NesMachine.CommandLine
