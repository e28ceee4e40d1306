import Asm65816.Expr

/-!
# Instructions

The tree of an instruction and its normal form. Its operand is implied, or a value in a shape
(`Shape`): the brackets, the mark or the register written around it. Which shape an instruction
supports is not decided here.
-/

namespace Asm65816

/-! ## Operands -/

/-- The kinds of operand. -/
inductive Mode where
  | implied | immediate | address | indirect | xIndirect | indirectY | stackIndirectY
  | longIndirect | longIndirectY | move | accumulator
  deriving DecidableEq, Repr

namespace Mode

/-- Every mode, in order. -/
def all : List Mode :=
  [implied, immediate, address, indirect, xIndirect, indirectY, stackIndirectY, longIndirect,
    longIndirectY, move, accumulator]

/-- The name of a mode in listings. -/
def name : Mode → String
  | implied => "IMPLIED"
  | immediate => "IMMEDIATE"
  | address => "ADDRESS"
  | indirect => "INDIRECT"
  | xIndirect => "X_INDIRECT"
  | indirectY => "INDIRECT_Y"
  | stackIndirectY => "STACK_INDIRECT_Y"
  | longIndirect => "LONG_INDIRECT"
  | longIndirectY => "LONG_INDIRECT_Y"
  | move => "MOVE"
  | accumulator => "ACCUMULATOR"

end Mode

/-- What is written around an operand's value. `move` is the two-operand form: an index register, a
stack offset or the second bank of a block move. -/
inductive Shape where
  | immediate | address | indirect | xIndirect | indirectY | stackIndirectY
  | longIndirect | longIndirectY
  | move (second : Expr)
  | accumulator
  deriving DecidableEq

namespace Shape

/-- The mode of a shape. -/
def mode : Shape → Mode
  | immediate => .immediate
  | address => .address
  | indirect => .indirect
  | xIndirect => .xIndirect
  | indirectY => .indirectY
  | stackIndirectY => .stackIndirectY
  | longIndirect => .longIndirect
  | longIndirectY => .longIndirectY
  | move _ => .move
  | accumulator => .accumulator

/-- The second operand, which only the two-operand form has. -/
def second? : Shape → Option Expr
  | move second => some second
  | _ => none

/-- The shape of a mode and a loose second operand; the implied mode has none. -/
def make : Mode → Option Expr → Except Invalid (Option Shape)
  | .move, some second => .ok (some (.move second))
  | .move, none => .error .secondOperand
  | _, some _ => .error .secondOperand
  | .implied, none => .ok none
  | .immediate, none => .ok (some .immediate)
  | .address, none => .ok (some .address)
  | .indirect, none => .ok (some .indirect)
  | .xIndirect, none => .ok (some .xIndirect)
  | .indirectY, none => .ok (some .indirectY)
  | .stackIndirectY, none => .ok (some .stackIndirectY)
  | .longIndirect, none => .ok (some .longIndirect)
  | .longIndirectY, none => .ok (some .longIndirectY)
  | .accumulator, none => .ok (some .accumulator)

/-- Writes the shape around the text of a value. -/
def around (value : List Char) : Shape → List Char
  | immediate => '#' :: value
  | address => value
  | indirect => '(' :: value ++ [')']
  | xIndirect => '(' :: value ++ [',', 'x', ')']
  | indirectY => '(' :: value ++ [')', ',', 'y']
  | stackIndirectY => '(' :: value ++ [',', 's', ')', ',', 'y']
  | longIndirect => '[' :: value ++ [']']
  | longIndirectY => '[' :: value ++ [']', ',', 'y']
  | move second => value ++ ',' :: second.chars
  | accumulator => ['A']

/-- A shape around a value that may be missing; a missing one shows as `None`. -/
def render (shape : Option Shape) (value : Option Expr) : String :=
  match shape with
  | none => ""
  | some shape => String.ofList (shape.around ((value.map Expr.chars).getD "None".toList))

end Shape

/-- The operand of an instruction. -/
inductive Operand where
  | implied
  | valued (shape : Shape) (value : Expr)
  deriving DecidableEq

namespace Operand

/-- The shape, which the implied operand lacks. -/
def shape? : Operand → Option Shape
  | implied => none
  | valued shape _ => some shape

/-- The value, which the implied operand lacks. -/
def value? : Operand → Option Expr
  | implied => none
  | valued _ value => some value

/-- The mode of an operand. -/
def mode : Operand → Mode
  | implied => .implied
  | valued shape _ => shape.mode

/-- An operand from a loose shape and value. -/
def make : Option Shape → Option Expr → Except Invalid Operand
  | none, none => .ok implied
  | some shape, some value => .ok (valued shape value)
  | _, _ => .error .operandValue

/-- An operand as it is written. -/
def chars : Operand → List Char
  | implied => []
  | valued shape value => shape.around value.chars

end Operand

/-! ## Instructions -/

/-- An operand size forced by a suffix. -/
inductive Size where
  | byte | word | long
  deriving DecidableEq, Repr

namespace Size

/-- The size in bytes. -/
def bytes : Size → Nat
  | byte => 1
  | word => 2
  | long => 3

/-- The letter of the suffix. -/
def letter : Size → Char
  | byte => 'b'
  | word => 'w'
  | long => 'l'

/-- The size of a suffix letter, in either case. -/
def ofLetter? (c : Char) : Option Size :=
  match c.toLower with
  | 'b' => some byte
  | 'w' => some word
  | 'l' => some long
  | _ => none

/-- The size of a loose count of bytes. -/
def make : Int → Except Invalid Size
  | 1 => .ok byte
  | 2 => .ok word
  | 3 => .ok long
  | bytes => .error (.operandSize bytes)

end Size

/-- An instruction: the mnemonic as written, a forced operand size and the operand. -/
structure Instruction where
  mnemonic : String
  size : Option Size
  operand : Operand
  deriving DecidableEq

/-- An instruction as it is written, a blank in front of an operand that shows. -/
def Instruction.chars (i : Instruction) : List Char :=
  i.mnemonic.toList
    ++ (match i.size with
      | none => []
      | some size => ['.', size.letter])
    ++ (match i.operand.chars with
      | [] => []
      | operand => ' ' :: operand)

end Asm65816
