import Asm65816.Failure

/-!
# Diagnostics

A failure as it is shown to a person: with the text that was read, and once they are known with its
place in a file and the line that stands there.
-/

namespace Asm65816

/-- A place in a file; lines and columns count from one. -/
structure Location where
  file : String
  line : Int
  column : Int
  deriving DecidableEq, Repr

/-- A place as `file:line:column`. -/
def Location.render (l : Location) : String :=
  l.file ++ ":" ++ Text.decimalInt l.line ++ ":" ++ Text.decimalInt l.column

/-- A failure with what is known of its surroundings. -/
structure Diagnostic where
  failure : Failure
  /-- The text that was read. -/
  text : Option String
  location : Option Location
  /-- The whole line at the location. -/
  sourceLine : Option String
  deriving DecidableEq

namespace Diagnostic

/-- A failure on a text, not yet placed in a file. -/
def ofFailure (text : List Char) (failure : Failure) : Diagnostic :=
  ⟨failure, some (String.ofList text), none, none⟩

/-- The text from an offset on; a negative offset counts from the end. -/
def textFrom (text : List Char) (offset : Int) : List Char :=
  match offset with
  | .ofNat n => text.drop n
  | .negSucc n => text.drop (text.length - (n + 1))

/-- The text from the failure on. -/
def remainder (d : Diagnostic) : Option String :=
  d.text.map fun text => String.ofList (textFrom text.toList d.failure.offset)

/-- Places a diagnostic, whatever its place was before. -/
def relocate (location : Option Location) (sourceLine : Option String) (d : Diagnostic) :
    Diagnostic :=
  { d with location, sourceLine }

/-- The first line: the place and the message. -/
def heading (d : Diagnostic) : String :=
  match d.location with
  | none => "error: " ++ d.failure.message
  | some location => location.render ++ ": error: " ++ d.failure.message

/-- The source line and a caret under the column, when both are known. -/
def excerpt (d : Diagnostic) : List String :=
  match d.location, d.sourceLine with
  | some location, some line =>
    ("    " ++ line) ::
      if 0 < location.column then
        [String.ofList (List.replicate (4 + location.column - 1).toNat ' ' ++ ['^'])]
      else []
  | _, _ => []

/-- The hint, unless it is empty. -/
def hintLine (d : Diagnostic) : List String :=
  match d.failure.hint with
  | none | some "" => []
  | some hint => ["hint: " ++ hint]

/-- The diagnostic as lines joined by line feeds. -/
def render (d : Diagnostic) : String :=
  "\n".intercalate (d.heading :: d.excerpt ++ d.hintLine)

end Diagnostic

end Asm65816
