import Asm65816.Text.IdentifierTail
import Asm65816.Text.IdentifierStart

/-!
# Characters of an identifier

An identifier is a word of Unicode, in which an underscore may stand anywhere; the first character
may also be `!`, which marks a define.
-/

namespace Asm65816.Text

/-- Whether `c` may begin an identifier. -/
def isIdentifierStart (c : Char) : Bool :=
  c = '!' || c = '_' || identifierStartRanges.covers c.toNat

/-- Whether `c` may go on an identifier. -/
def isIdentifierPart (c : Char) : Bool :=
  c = '_' || identifierStartRanges.covers c.toNat || identifierTailRanges.covers c.toNat

end Asm65816.Text
