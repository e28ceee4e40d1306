/-!
# Lines

A text is a sequence of lines, each closed by a line end. A carriage return and a line feed
together are one line end. The last line may lack its line end, and there is no empty line after
the last line end.
-/

namespace Asm65816.Text

/-- The characters that end a line. -/
def lineEnds : List Char :=
  ['\n', '\r', '\x0b', '\x0c', '\x1c', '\x1d', '\x1e', '\x85', '\u2028', '\u2029']

/-- Whether `c` ends a line. -/
def isLineEnd (c : Char) : Bool := lineEnds.contains c

/-- Puts a character at the front of the first line, which it opens if there is none. -/
def consFirst (c : Char) : List (List Char) → List (List Char)
  | [] => [[c]]
  | line :: lines => (c :: line) :: lines

/-- The lines of a text, without their line ends. -/
def lines : List Char → List (List Char)
  | [] => []
  | '\r' :: '\n' :: rest => [] :: lines rest
  | c :: rest => if isLineEnd c then [] :: lines rest else consFirst c (lines rest)

/-- Writes every line end that is or begins with a carriage return as a line feed. -/
def normalizeReturns : List Char → List Char
  | [] => []
  | '\r' :: '\n' :: rest => '\n' :: normalizeReturns rest
  | c :: rest => (if c = '\r' then '\n' else c) :: normalizeReturns rest

end Asm65816.Text
