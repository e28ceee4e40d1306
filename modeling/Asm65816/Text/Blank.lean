import Asm65816.Text.Ranges

/-!
# Blanks and spaces

Two notions of white space. The grammar skips `blanks`, six ASCII characters. Trimming takes off
every space of Unicode (`isSpace`), which has the ASCII separators, the no-break space and the
wide spaces as well.
-/

namespace Asm65816.Text

/-- What the grammar skips between tokens: space, tab, carriage return, line feed, form feed and
vertical tab. -/
def blanks : List Char := [' ', '\t', '\r', '\n', '\x0c', '\x0b']

/-- Whether `c` is skipped between tokens. -/
def isBlank (c : Char) : Bool := blanks.contains c

/-- The white space of Unicode 14, in increasing order. -/
def spaceRanges : Ranges := [
  (0x9, 0xD), (0x1C, 0x20), (0x85, 0x85), (0xA0, 0xA0), (0x1680, 0x1680), (0x2000, 0x200A),
  (0x2028, 0x2029), (0x202F, 0x202F), (0x205F, 0x205F), (0x3000, 0x3000)]

theorem spaceRanges_ordered : spaceRanges.orderedFrom 0 = true := by decide

/-- Whether `c` is white space anywhere in Unicode. -/
def isSpace (c : Char) : Bool := spaceRanges.covers c.toNat

/-- Takes the white space off the end. -/
def trimRight (cs : List Char) : List Char := (cs.reverse.dropWhile isSpace).reverse

end Asm65816.Text
