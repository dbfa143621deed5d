import Equational.Script.CommandLine

namespace Equational

def usage : String :=
  "Checks equational proofs that are written one step at a time.\n\n" ++
  "Usage: [OPTIONS] SCRIPT\n\n" ++
  "  --notation STYLE   text, display, markdown or latex (text if not given)\n" ++
  "  --json             print every proof as JSON instead of a listing\n" ++
  "  -h, --help         print this text\n"

/-- An error of the system with this number. Some calls report it with a minus sign. -/
def hasNumber (code number : UInt32) : Bool := code == number || code == 0 - number

def FileError.ofError : IO.Error → FileError
  | .noFileOrDirectory .. => .missing
  | .permissionDenied .. => .forbidden
  | .inappropriateType _ code _ => if hasNumber code 21 then .folder else .notFolder
  | .invalidArgument _ code message =>
    if hasNumber code 36 then .nameTooLong else .other message
  | e => .other e.toString

/-- The text of a file. -/
def readScript (path : String) : IO (Except FileError String) := do
  try
    let bytes ← IO.FS.readBinFile path
    match String.fromUTF8? bytes with
    | some text => return .ok text
    | none => return .error .notText
  catch e => return .error (.ofError e)

def runWith (o : Options) : IO Exit := do
  match ← readScript o.script with
  | .ok text => return o.check text
  | .error e => return .unreadable o.script e

end Equational

open Equational in
def main (args : List String) : IO UInt32 := do
  match Options.ofArgs args with
  | .error .helpWanted =>
    IO.print usage
    return 0
  | .error _ =>
    IO.eprint usage
    return 2
  | .ok o =>
    let exit ← runWith o
    IO.print exit.stdout
    IO.eprint exit.stderr
    return exit.code
