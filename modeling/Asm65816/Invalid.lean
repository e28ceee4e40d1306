import Asm65816.Text.Numeral
import Asm65816.Text.Quoted

/-!
# Refused parts of a tree

A tree put together by hand can break a rule that every parsed tree keeps. `Invalid` names the
rule; the functions that build parts from loose fields answer with it.
-/

namespace Asm65816

/-- Why a part of a tree is refused. -/
inductive Invalid where
  /-- A number outside the unsigned 32-bit range. -/
  | number (value : Int)
  /-- A relative label that points nowhere. -/
  | relativeLabel
  /-- A symbol that is no operator. -/
  | operator (symbol : String)
  /-- A second operand without the two-operand mode, or the mode without it. -/
  | secondOperand
  /-- An operand size that has no suffix. -/
  | operandSize (bytes : Int)
  /-- An operand value in the implied mode, or none in another. -/
  | operandValue
  deriving DecidableEq, Repr

/-- The refusal in words. -/
def Invalid.message : Invalid → String
  | number value =>
    let value := Text.decimalInt value
    s!"number {value} outside unsigned 32-bit range"
  | relativeLabel => "relative label offset cannot be 0"
  | operator symbol =>
    let symbol := Text.Quoted.text symbol
    s!"{symbol} is not a valid BinaryOperator"
  | secondOperand => "only MOVE mode carries a second operand"
  | operandSize bytes =>
    let bytes := Text.decimalInt bytes
    s!"invalid opcode width {bytes}"
  | operandValue => "only implied opcodes have no operand value"

end Asm65816
