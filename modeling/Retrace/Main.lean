/-
# The command line

Hands the arguments, the files they name and the surroundings to the inspector, and shows how it
ends.

The tool is the one of the specification (section 10); all that it does to the world outside is
here.
-/

import Retrace.Inspector

namespace Retrace

namespace Inspector

/-- What a file holds.  There is nothing under a name that leads through something that is no
directory, or that is too long. -/
def readFile (name : String) : IO FileContent := do
  try
    match String.fromUTF8? (← IO.FS.readBinFile name) with
    | some content => return .text content
    | none => return .unreadable
  catch
    | .noFileOrDirectory .. => return .missing
    | .inappropriateType _ _ "not a directory" => return .missing
    | .invalidArgument .. => return .missing
    | _ => return .unreadable

end Inspector

end Retrace

open Retrace Inspector in
/-- Runs the inspector on the arguments of the program, and leaves with the status of the
outcome. -/
def main (arguments : List String) : IO UInt32 := do
  let home := (← IO.getEnv "HOME").getD ""
  let config ← IO.getEnv "TTD_CONFIG"
  let blank : Surroundings := ⟨fun _ => .missing, home, config⟩
  let files := match Invocation.read config arguments with
    | .ok call => filesOf blank call
    | .error _ => []
  let contents ← files.mapM fun name => return (name, ← readFile name)
  let found := fun name => (contents.lookup name).getD .missing
  let outcome := run { blank with read := found } arguments
  IO.print outcome.output
  if let some failure := outcome.failure then
    IO.eprintln s!"Error: {failure.message}"
    if let some cause := failure.cause? then IO.eprintln s!"Caused by: {cause.message}"
  if outcome.status = 2 then
    IO.eprintln "Usage: ttd paths IMAGE [--root NAME]... | verify IMAGE | config"
  return outcome.status.toUInt32
