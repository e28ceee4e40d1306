import Asm65816.Parse

/-!
# Lines

A line holds statements separated by colons, and a comment from the first semicolon on. The colon
of a named label is its own, so the next statement may follow it directly. Whatever else is left
over after a statement is an error of the line.
-/

namespace Asm65816

/-- A statement and the place of its first character. -/
structure Located where
  statement : Statement
  location : Location
  deriving DecidableEq

namespace Line

/-- A line without its comment. -/
def code (line : List Char) : List Char := line.takeWhile (· ≠ ';')

/-- The failure for text that is left over at `c`, where no separator stands. -/
def leftover (c : Cursor) : Failure :=
  .leaf (.mismatch (.trailing (String.ofList (Text.trimRight c.rest))) false) c.pos
    (some "separate statements on one line with ':'")

/-- Whether the line may go on at `c` after the statement `s`. -/
def mayFollow (s : Statement) (c : Cursor) : Bool :=
  c.peek?.all (· = ':') || s.isLabel

/-- The statements from a cursor on that stands at no blank, each with its position. -/
def statementsFrom (limit : Nat) (c : Cursor) : Except Failure (List (Nat × Statement)) :=
  match _hc : c.rest with
  | [] => .ok []
  | ch :: _ =>
    if ch = ':' then statementsFrom limit (c.advance 1).skipBlank
    else
      match _h : (Grammar.statement limit).run c with
      | .error f => .error f
      | .ok (s, d) =>
        if mayFollow s d.skipBlank then
          match statementsFrom limit d.skipBlank with
          | .error f => .error f
          | .ok rest => .ok ((c.pos, s) :: rest)
        else .error (leftover d.skipBlank)
termination_by c.rest.length
decreasing_by
  · have h1 := (Cursor.reads_advance_one (c := c) (by rw [Cursor.peek?, _hc]; rfl)).length_lt
      (by simp)
    have h2 := (c.advance 1).reads_skipBlank.length_le
    omega
  · have h1 := (Grammar.statement limit).length_lt _h
    have h2 := d.reads_skipBlank.length_le
    omega

/-- The statements of a line, each with its position. -/
def statements (limit : Nat) (line : List Char) : Except Failure (List (Nat × Statement)) :=
  statementsFrom limit (Cursor.ofText (code line) 0).skipBlank

/-- The statements of a line, each with its place. A failure is about the line's code and has no
place yet. -/
def parse (depth : Depth) (file : String) (number : Int) (line : List Char) :
    Except Diagnostic (List Located) :=
  match statements depth.levels line with
  | .ok found => .ok (found.map fun (pos, s) => ⟨s, ⟨file, number, pos + 1⟩⟩)
  | .error f => .error (.ofFailure (code line) f)

end Line

end Asm65816
