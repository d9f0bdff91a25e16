import BinaryFacts.CommandLine.Commands

/-!
# The program

Reads the file that a command asks for, runs the command and prints what it answers. No container
parser and no disassembler are linked in, so only raw code can be loaded, and nothing is decoded.
-/

namespace BinaryFacts

/-- The path of the file that the arguments name. -/
def requestedPath? (directory : String) (arguments : List String) : Option String :=
  match Request.ofArguments? arguments with
  | some (.run command) => command.file?.map (Path.resolve directory)
  | _ => none

end BinaryFacts

open BinaryFacts in
def main (arguments : List String) : IO UInt32 := do
  let directory ← IO.currentDir
  let path? := requestedPath? directory.toString arguments
  let contents ← match path? with
    | none => pure none
    | some path =>
      try pure (some (← IO.FS.readBinFile path).toList)
      catch _ => pure none
  let environment : Environment :=
    { directory := directory.toString
      read := fun path => if path? = some path then contents else none
      parseContainer := fun _ => .failure
      disassemble := fun _ _ _ => none
      json := .standard }
  let outcome := run environment arguments
  IO.print outcome.output
  match outcome.error with
  | some error => IO.eprintln ("Error: " ++ error)
  | none => pure ()
  return outcome.code
