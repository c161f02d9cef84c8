import CombatTrials.CommandLine.Command

/-!
# The program

Reads the files that the command line names, looks at the machine, and prints what
`CommandLine.respond` answers.
-/

namespace CombatTrials

open Data (File)

/-- What is found at a path. -/
def readFile (path : String) : IO File := do
  let found ← try
      let whole ← IO.FS.realPath path
      whole.pathExists
    catch _ => pure false
  if found then
    try
      return .bytes (← IO.FS.readBinFile path)
    catch _ => return .unreadable
  else return .missing

/-- How many threads this machine runs at a time, at least one. -/
def hostThreads : IO Nat := do
  try
    let text ← IO.FS.readFile "/proc/cpuinfo"
    return max 1 ((text.splitOn "\n").filter (·.startsWith "processor")).length
  catch _ => return 1

/-- The response of the program to its arguments. -/
def respondTo (arguments : List String) : IO CommandLine.Response := do
  let paths := match CommandLine.parse arguments with
    | .ok command => command.paths
    | .error _ => []
  let files ← paths.mapM fun path => do return (path, ← readFile path)
  let seed ← IO.rand 0 (UInt64.size - 1)
  let host : CommandLine.Host := {
    file := fun path => (files.lookup path).getD .missing
    threads := ← hostThreads
    tokens := .ofSeed (UInt64.ofNat seed) }
  return CommandLine.respond host arguments

end CombatTrials

/-- Runs the program on its arguments and answers its exit code. -/
def main (arguments : List String) : IO UInt32 := do
  let response ← CombatTrials.respondTo arguments
  if !response.complaint.isEmpty then IO.eprintln response.complaint
  IO.print response.output
  return response.exitCode
