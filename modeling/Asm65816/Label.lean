import Asm65816.Invalid

/-!
# Labels

A label is a name, or a relative reference: a run of `+` that points forward or of `-` that points
back, as many places as the run is long.
-/

namespace Asm65816

/-- A reference to a place or value of a program. -/
inductive Label where
  | named (name : String)
  /-- Forward when `offset` is positive, back when it is negative. -/
  | relative (offset : Int) (offset_ne_zero : offset ≠ 0)
  deriving DecidableEq

namespace Label

/-- A relative label from a loose offset. -/
def makeRelative (offset : Int) : Except Invalid Label :=
  if h : offset ≠ 0 then .ok (.relative offset h) else .error .relativeLabel

/-- A label as it is written in an expression. -/
def chars : Label → List Char
  | named name => name.toList
  | relative offset _ => List.replicate offset.natAbs (if 0 < offset then '+' else '-')

/-- A label as it is written in an expression. -/
def render (l : Label) : String := String.ofList l.chars

end Label

end Asm65816
