import AgentSweep.CommandLine.Program

/-!
# The executable

Reads the configuration file that is asked for, and writes the program's answer.
-/

open AgentSweep

/-- The bytes of a file, if it can be read. -/
def readFile (path : String) : IO (Option ByteArray) := do
  try
    return some (← IO.FS.readBinFile path)
  catch _ =>
    return none

/-- The file that the arguments ask for. -/
def requestedFile (arguments : List String) : IO (Option ByteArray) :=
  match Invocation.ofArguments arguments with
  | .command (some path) _ => readFile path
  | _ => pure none

def main (arguments : List String) : IO UInt32 := do
  let file ← requestedFile arguments
  let chance ← IO.rand 0 (UInt64.size - 1)
  let answer := Program.answer arguments (fun _ => file) chance.toUInt64
  IO.print answer.output
  IO.eprint answer.errors
  return answer.exitCode.toUInt32
