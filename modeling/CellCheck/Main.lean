import CellCheck.Command.Run

/-!
# The command line

Reads the files that the arguments name, runs the check on them and prints its output.
-/

namespace CellCheck

def readFileState (path : String) : IO FileState := do
  try
    return .content (← IO.FS.readBinFile path)
  catch e =>
    match e with
    | .inappropriateType .. => return .unreadable
    | _ => return .missing

def Invocation.paths (inv : Invocation) : List String := inv.config.toList ++ inv.files

def usage : String := "usage: [OPTIONS] [INPUT]...\n\n" ++
  "  -c, --config <FILE>    settings file\n" ++
  "  -m, --cell-map         print the cell allocation map\n" ++
  "      --history          print the usage history of every cell\n" ++
  "  -f, --format <FORMAT>  text or json\n" ++
  "  -D, --deny-warnings    fail on warnings\n" ++
  "  -q, --quiet            only print diagnostics\n" ++
  "  -h, --help             print this help\n" ++
  "  -V, --version          print the version\n"

def Refusal.print : Refusal → IO Unit
  | .helpRequested => IO.print usage
  | .versionRequested => IO.println "0.1.0"
  | .unknownArgument => IO.eprintln "error: unexpected argument"
  | .invalidValue => IO.eprintln "error: missing or invalid value"
  | .argumentConflict => IO.eprintln "error: an option is given twice"
  | .tooManyValues => IO.eprintln "error: an option takes no value"

end CellCheck

open CellCheck in
def main (arguments : List String) : IO UInt32 := do
  match Invocation.ofArguments arguments with
  | .error refusal =>
    refusal.print
    return UInt32.ofNat refusal.exitCode
  | .ok inv =>
    let found ← inv.paths.mapM fun path => return (path, ← readFileState path)
    let outcome := run (fun path => (found.lookup path).getD .missing) inv Settings.ofText?
    IO.print (String.ofList outcome.standardOutput)
    return UInt32.ofNat outcome.exitCode
