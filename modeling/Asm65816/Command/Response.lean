import Asm65816.Program
import Asm65816.Text.Escape

/-!
# Responses

What the command gives back: an exit code and the text on its two outputs. `Trouble` is what can go
wrong once the arguments are accepted, and `Trouble.respond` how it is told.
-/

namespace Asm65816.Command

/-- How the command ended. -/
inductive ExitCode where
  | success
  /-- The source did not parse. -/
  | parseError
  /-- The arguments are wrong, or the input cannot be read. -/
  | invalidArguments
  | internalError
  deriving DecidableEq, Repr

namespace ExitCode

/-- Every exit code, in order. -/
def all : List ExitCode := [success, parseError, invalidArguments, internalError]

/-- The name of an exit code in listings. -/
def name : ExitCode → String
  | success => "SUCCESS"
  | parseError => "PARSE_ERROR"
  | invalidArguments => "INVALID_ARGS"
  | internalError => "INTERNAL_ERROR"

/-- The number that the command exits with. -/
def code : ExitCode → Nat
  | success => 0
  | parseError => 1
  | invalidArguments => 2
  | internalError => 3

end ExitCode

/-- The result of a run. -/
structure Response where
  exit : ExitCode
  stdout : String
  stderr : String
  deriving DecidableEq, Repr

/-- A text as a line of output, without terminal sequences. -/
def line (text : String) : String := String.ofList (Text.stripEscapes text.toList) ++ "\n"

/-- What went wrong. -/
inductive Trouble where
  /-- The program has errors. -/
  | program (refusal : Program.Refusal)
  /-- Another error of the assembler. -/
  | assembler (message : String)
  /-- A wrong argument, or an input that cannot be read. -/
  | input (message : String)
  | internal (message : String)

/-- The exit code of a trouble. -/
def Trouble.exit : Trouble → ExitCode
  | program _ | assembler _ => .parseError
  | input _ => .invalidArguments
  | internal _ => .internalError

/-- Tells a trouble. `kind` names the kind of an assembler's error; `verbose` adds the trace of an
internal one, which is empty as nothing is in flight. -/
def Trouble.respond (trouble : Trouble) (verbose : Bool) (kind : Option String) : Response :=
  let stderr := match trouble with
    | program refusal => line refusal.message
    | assembler message =>
      match kind with
      | none | some "" => line ("Error: " ++ message)
      | some kind => line (kind ++ " error: " ++ message)
    | input message => line ("Error: " ++ message)
    | internal message =>
      line ("Internal error: " ++ message) ++ if verbose then "NoneType: None\n" else ""
  ⟨trouble.exit, "", stderr⟩

end Asm65816.Command
