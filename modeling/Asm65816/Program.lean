import Asm65816.Findings
import Asm65816.Line
import Asm65816.Text.Lines

/-!
# Programs

A program is read line by line. A line that fails does not stop the reading: its diagnostic is
kept, and all of them are reported at the end. Only full findings stop it, with a warning.
-/

namespace Asm65816

/-- The statements of a file, in the order of the source. -/
structure Program where
  file : String
  statements : List Located
  deriving DecidableEq

/-- Why a program was refused: the diagnostics of its lines, and a report on them. -/
structure Program.Refusal where
  errors : List Diagnostic
  report : String
  deriving DecidableEq

/-- The report, or the count of diagnostics when it is empty. -/
def Program.Refusal.message (e : Program.Refusal) : String :=
  if e.report = "" then Findings.counted e.errors.length "parse error" else e.report

namespace Program

/-- Puts a diagnostic of a line where the line stands. -/
def locate (file : String) (number : Nat) (line : List Char) (d : Diagnostic) : Diagnostic :=
  d.relocate (some ⟨file, number, d.failure.offset + 1⟩) (some (String.ofList line))

/-- Reads lines, the first of which has the given number: their statements, and what was found
before with their diagnostics. -/
def readLines (limits : Limits) (file : String) :
    Nat → List (List Char) → Findings → List Located × Findings
  | _, [], findings => ([], findings)
  | number, line :: lines, findings =>
    match Line.parse limits.depth file number line with
    | .ok statements =>
      let (later, findings) := readLines limits file (number + 1) lines findings
      (statements ++ later, findings)
    | .error d =>
      let findings := findings.add (locate file number line d)
      if findings.isFull then ([], findings.warn findings.fullMessage)
      else readLines limits file (number + 1) lines findings

/-- Reads the lines of a source. -/
def read (limits : Limits) (file source : String) : List Located × Findings :=
  readLines limits file 1 (Text.lines source.toList) (.empty limits.errors)

/-- The program of a reading without diagnostics; otherwise the report on them. -/
def ofReading (file : String) (found : List Located) (findings : Findings) :
    Except Refusal Program :=
  if findings.errors.isEmpty then .ok ⟨file, found⟩
  else .error ⟨findings.errors, findings.report⟩

/-- Reads a program. -/
def parse (limits : Limits) (file source : String) : Except Refusal Program :=
  let (found, findings) := read limits file source
  ofReading file found findings

end Program

end Asm65816
