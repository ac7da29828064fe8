/-
The program: the command line, with the files of the system.
-/
import Decaf.CommandLine
import Decaf.Log

namespace Decaf
namespace Program

/-- What a path of the system leads to. -/
def entryAt (path : Text) : IO (Option Entry) := do
  try
    return some (.file (← IO.FS.readBinFile (String.ofList path)))
  catch _ =>
    return none

/-- Writes the log of lexing a source. -/
def writeLog (limits : Limits) (source : Text) : IO Unit := do
  for event in logOf limits source do
    IO.eprintln (String.ofList event.render)

/-- Lists the tokens of a file of the system. -/
def list (i : Invocation) : IO UInt32 := do
  let entry ← entryAt i.file
  if i.verbose then
    match Source.read i.limits i.file entry with
    | .ok source => writeLog i.limits source
    | .error _ => pure ()
  match CommandLine.list i entry with
  | some o =>
      IO.print (String.ofList o.out)
      IO.eprint (String.ofList o.err)
      return o.exit.toUInt32
  | none =>
      IO.eprintln "the error lies too far to the right to be drawn"
      return 101

end Program
end Decaf

open Decaf in
/-- Runs the command line. -/
def main (args : List String) : IO UInt32 := do
  match Command.parse (args.map String.toList) with
  | .help =>
      IO.print (String.ofList CommandLine.helpText)
      return 0
  | .version =>
      IO.print (String.ofList CommandLine.versionText)
      return 0
  | .misuse =>
      IO.eprint (String.ofList CommandLine.helpText)
      return 2
  | .list i => Program.list i
