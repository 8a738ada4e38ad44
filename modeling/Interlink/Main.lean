import Interlink.CommandLine

/-!
# The program

Reads the files that a command names, runs it, prints what it has to say and
writes the resolved scope where it is asked for.
-/

namespace Interlink.Command

/-- The text of a file, if it can be read. -/
def readText? (path : String) : IO (Option String) := do
  try return some (← IO.FS.readFile path)
  catch _ => return none

/-- Say why a command fails. -/
def complain (error : CommandError) : IO UInt32 := do
  IO.eprintln ("Error: " ++ error.message)
  return 1

/-- Print what a command has to say, then write the file it asks for. -/
def deliver (report : Report) : IO UInt32 := do
  report.lines.forM IO.println
  match report.emitted with
  | none => return 0
  | some (path, text) =>
    try
      IO.FS.writeFile path text
      return 0
    catch _ => complain (.unwritable path)

/-- Run a command on the files it names. -/
def execute (c : Command) : IO UInt32 := do
  let texts ← (c.document :: c.config.toList).mapM fun path => do
    return (path, ← readText? path)
  match c.run fun path => (texts.lookup path).join with
  | .error error => complain error
  | .ok report => deliver report

end Interlink.Command

def main (arguments : List String) : IO UInt32 := do
  match Interlink.Command.ofArguments? arguments with
  | some c => c.execute
  | none =>
    IO.eprintln "usage: DOCUMENT [--protocol NAME] [--config FILE] [--emit FILE]"
    return 2
