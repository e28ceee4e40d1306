import Asm65816.Diagnostic

/-!
# Findings

The diagnostics and warnings gathered over a program, and the report on them. There is a limit on
diagnostics: findings take every one that is added, and once they are full no more should be.
-/

namespace Asm65816

/-- Diagnostics and warnings in the order they came. -/
structure Findings where
  maxErrors : Int
  errors : List Diagnostic
  warnings : List String
  deriving DecidableEq

namespace Findings

/-- Nothing found yet. -/
def empty (maxErrors : Int) : Findings := ⟨maxErrors, [], []⟩

/-- Takes a diagnostic. -/
def add (fs : Findings) (d : Diagnostic) : Findings := { fs with errors := fs.errors ++ [d] }

/-- Takes a warning. -/
def warn (fs : Findings) (message : String) : Findings :=
  { fs with warnings := fs.warnings ++ [message] }

/-- Whether there are as many diagnostics as there may be. -/
def isFull (fs : Findings) : Bool := fs.maxErrors ≤ fs.errors.length

/-- What is said of full findings. -/
def fullMessage (fs : Findings) : String :=
  let most := Text.decimalInt fs.maxErrors
  s!"too many errors ({most}), stopping"

/-- A count and its noun, in the plural unless there is one. -/
def counted (n : Nat) (noun : String) : String :=
  Text.decimal n ++ " " ++ noun ++ if n = 1 then "" else "s"

/-- The lines of the report: each diagnostic and an empty line, the warnings, the counts. -/
def reportLines (fs : Findings) : List String :=
  fs.errors.flatMap (fun d => [d.render, ""])
    ++ (if fs.warnings.isEmpty then [] else "Warnings:" :: fs.warnings.map ("  " ++ ·))
    ++ [counted fs.errors.length "error" ++ ", " ++ counted fs.warnings.length "warning"]

/-- The report on everything found. -/
def report (fs : Findings) : String := "\n".intercalate fs.reportLines

end Findings

end Asm65816
