import Slang.CommandLine.Job

/-!
# The command line

Reads the arguments, the input and the file that the job needs, carries the job out, and writes what
it results in.
-/

namespace Slang.CommandLine

/-- The bytes of a file, if it can be read. -/
def readFile? (path : String) : IO (Option ByteArray) := do
  try
    return some (← IO.FS.readBinFile path)
  catch _ =>
    return none

/-- Writes what a job results in, and gives the exit code. -/
def deliver (result : Result) : IO UInt32 := do
  for (path, text) in result.written do
    IO.FS.writeFile path text
  IO.print (Printed.renderAll .plain result.printed)
  IO.eprint result.complaint
  match result.error with
  | some (.tree e) => IO.eprintln e.message
  | some (.json e) => IO.eprintln e.message
  | some .encoding => IO.eprintln "The file is no text."
  | none => pure ()
  return if result.error.isSome then 1 else (result.exit.getD 0).toUInt32

/-- Carries out a job on the files of the machine. -/
def runJob (job : Job) : IO UInt32 := do
  if let some path := job.traces then
    IO.FS.writeFile path ""
  let content ← match job.reads with
    | some path => readFile? path
    | none => pure none
  let input ← (← IO.getStdin).readToEnd
  deliver (job.perform content input)

end Slang.CommandLine

open Slang.CommandLine in
/-- The program. -/
def main (argv : List String) : IO UInt32 := do
  match Arguments.parse argv with
  | .ok args => runJob (.ofArguments args)
  | .error refusal => deliver (refusal.result "")
