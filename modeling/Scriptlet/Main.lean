import Scriptlet.CommandLine

/-!
# The program

Reads standard input and the files that are named, and carries out the command.
-/

namespace Scriptlet

/-- Everything that is left to read. -/
partial def readRest (stream : IO.FS.Stream) (before : String) : IO String := do
  let line ← stream.getLine
  if line.isEmpty then return before else readRest stream (before ++ line)

/-- Why the system did not give a file. -/
def fileFault : IO.Error → FileFault
  | .permissionDenied .. => .denied
  | .inappropriateType _ code _ => if code = 21 then .isFolder else .notFolder
  | .invalidArgument _ code _ => if code = 22 then .zeroInPath else .nameTooLong
  | _ => .missing

/-- The content of a file. -/
def readFile (path : String) : IO (Except FileFault String) := do
  try
    match String.fromUTF8? (← IO.FS.readBinFile path) with
    | some content => return .ok content
    | none => return .error .notText
  catch trouble =>
    return .error (fileFault trouble)

end Scriptlet

open Scriptlet in
/-- Carries out the command that the arguments ask for. -/
def main (args : List String) : IO UInt32 := do
  let input ← readRest (← IO.getStdin) ""
  let files ← (CommandLine.filesNamed args input).mapM fun path => do
    return (path, ← readFile path)
  let content (path : String) := (Record.get? files path).getD (.error .missing)
  let report := CommandLine.command args content input
  IO.print report.output
  IO.eprint report.errors
  return UInt32.ofNat report.code
