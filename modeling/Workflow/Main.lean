import Std.Time.DateTime.Timestamp
import Workflow.CommandLine

/-!
# The program

Reads the file and the clock, runs the command, and shows what it answers.
-/

namespace Workflow.CommandLine

/-- How many handlers the program runs before it gives a process up. -/
def handlerLimit : Nat := 10000000

/-- The instant of the system clock, absent if the clock is out of range. -/
def readClock : IO (Option Instant) := do
  let t ← Std.Time.Timestamp.now
  return Instant.ofEpoch? t.val.second.val t.val.nano.val.toNat

/-- The bytes of a file, absent when it cannot be read. -/
def readContent (path : String) : IO (Option ByteArray) :=
  try
    return some (← IO.FS.readBinFile path)
  catch _ => return none

/-- Shows why the command failed. -/
def fail (message : String) : IO UInt32 := do
  IO.eprintln ("Error: " ++ message)
  return 1

/-- Runs the command for a file. -/
def runFile (file : String) (options : Options) : IO UInt32 := do
  match ← readClock with
  | none => fail "The clock is out of range"
  | some now =>
    match run file (← readContent file) options.data now handlerLimit with
    | .error message => fail message
    | .ok report =>
      IO.println report.snapshot
      IO.println ("payload: " ++ report.payload)
      match options.snapshot with
      | none => return 0
      | some path =>
        try
          IO.FS.writeFile path report.snapshot
          return 0
        catch _ => fail ("Failed to write snapshot to " ++ path)

/-- Shows how the command is used. -/
def showUsage : IO UInt32 := do
  IO.eprintln usage
  return 2

/-- Runs the command that the arguments ask for. -/
def runArguments (arguments : List String) : IO UInt32 :=
  match arguments with
  | "run" :: rest =>
    match ({} : Options).ofArguments? rest with
    | some options =>
      match options.file with
      | some file => runFile file options
      | none => showUsage
    | none => showUsage
  | _ => showUsage

end Workflow.CommandLine

/-- Runs the program with its arguments. -/
def main (arguments : List String) : IO UInt32 := Workflow.CommandLine.runArguments arguments
