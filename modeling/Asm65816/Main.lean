import Asm65816.Command.Run

/-!
# The command line

Hands the arguments, the settings and the input file to `Asm65816.Command.respond` and prints what
it answers.
-/

namespace Asm65816.Command

/-- The system's error number for a directory that is read as a file. The errors of its kind also
tell of a path that goes on below a file. -/
def isADirectory : UInt32 := 21

/-- What stands at a path of the file system. -/
def readEntry (path : String) : IO (Option Entry) := do
  try
    let content ← IO.FS.readBinFile path
    return some (.file content.toList)
  catch
    | .permissionDenied .. => return some .unreadable
    | .inappropriateType _ code _ => return if code = isADirectory then some .directory else none
    | _ => return none

end Asm65816.Command

open Asm65816.Command

/-- Runs the command. -/
def main (args : List String) : IO UInt32 := do
  let settings := ⟨← IO.getEnv "MVP_MAX_DEPTH", ← IO.getEnv "MVP_MAX_ERRORS"⟩
  let entry ← match inputPath? args with
    | none => pure none
    | some path => readEntry path
  let response := respond args settings fun _ => entry
  (← IO.getStdout).putStr response.stdout
  (← IO.getStderr).putStr response.stderr
  return response.exit.code.toUInt32
