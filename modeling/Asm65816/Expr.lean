import Asm65816.Label
import Asm65816.Number

/-!
# Expressions

The tree of an expression and its normal form. Expressions are never evaluated here: a label gets
its value when a program is laid out. The normal form puts parentheses round every binary node, so
it shows the shape of the tree.
-/

namespace Asm65816

/-- A binary operator. The grammar reads the first four; the others are for trees put together by
hand. -/
inductive Operator where
  | add | sub | mul | div | shl | shr | xor | and | or
  deriving DecidableEq, Repr

namespace Operator

/-- Every operator, in order. -/
def all : List Operator := [add, sub, mul, div, shl, shr, xor, and, or]

/-- The name of an operator in listings. -/
def name : Operator → String
  | add => "ADD" | sub => "SUB" | mul => "MUL" | div => "DIV" | shl => "SHL" | shr => "SHR"
  | xor => "XOR" | and => "AND" | or => "OR"

/-- The symbol of an operator. -/
def symbol : Operator → List Char
  | add => ['+'] | sub => ['-'] | mul => ['*'] | div => ['/'] | shl => ['<', '<']
  | shr => ['>', '>'] | xor => ['^'] | and => ['&'] | or => ['|']

/-- The operator of a symbol. -/
def ofSymbol (symbol : String) : Except Invalid Operator :=
  match all.find? (·.symbol = symbol.toList) with
  | some op => .ok op
  | none => .error (.operator symbol)

/-- The operators that add: the lower tier. -/
def additive? : Char → Option Operator
  | '+' => some add
  | '-' => some sub
  | _ => none

/-- The operators that multiply: the upper tier. -/
def multiplicative? : Char → Option Operator
  | '*' => some mul
  | '/' => some div
  | _ => none

end Operator

/-- An expression. -/
inductive Expr where
  | number (n : Number)
  | label (l : Label)
  | binary (op : Operator) (left right : Expr)
  | call (name : String) (args : List Expr)

namespace Expr

/-! ## Equality -/

mutual
/-- Equality of expressions is decided node by node. -/
def decEq : (a b : Expr) → Decidable (a = b)
  | .number m, .number n => if h : m = n then .isTrue (by rw [h]) else .isFalse (by simp [h])
  | .label l, .label m => if h : l = m then .isTrue (by rw [h]) else .isFalse (by simp [h])
  | .binary op a b, .binary oq c d =>
    if h : op = oq then
      match decEq a c, decEq b d with
      | .isTrue ha, .isTrue hb => .isTrue (by rw [h, ha, hb])
      | .isFalse ha, _ => .isFalse (by simp [ha])
      | _, .isFalse hb => .isFalse (by simp [hb])
    else .isFalse (by simp [h])
  | .call f as, .call g bs =>
    if h : f = g then
      match decEqList as bs with
      | .isTrue ha => .isTrue (by rw [h, ha])
      | .isFalse ha => .isFalse (by simp [ha])
    else .isFalse (by simp [h])
  | .number _, .label _ | .number _, .binary .. | .number _, .call .. | .label _, .number _
  | .label _, .binary .. | .label _, .call .. | .binary .., .number _ | .binary .., .label _
  | .binary .., .call .. | .call .., .number _ | .call .., .label _ | .call .., .binary .. =>
    .isFalse (by simp)

/-- Equality of lists of expressions, as `decEq`. -/
def decEqList : (as bs : List Expr) → Decidable (as = bs)
  | [], [] => .isTrue rfl
  | [], _ :: _ | _ :: _, [] => .isFalse (by simp)
  | a :: as, b :: bs =>
    match decEq a b, decEqList as bs with
    | .isTrue h, .isTrue hs => .isTrue (by rw [h, hs])
    | .isFalse h, _ => .isFalse (by simp [h])
    | _, .isFalse hs => .isFalse (by simp [hs])
end

instance : DecidableEq Expr := decEq

/-! ## Normal form -/

mutual
/-- The normal form of an expression. -/
def chars : Expr → List Char
  | .number n => n.chars
  | .label l => l.chars
  | .binary op left right =>
    '(' :: left.chars ++ ' ' :: op.symbol ++ ' ' :: right.chars ++ [')']
  | .call name args => name.toList ++ '(' :: charsOfArgs args ++ [')']

/-- The normal forms of arguments, a comma and a space between them. -/
def charsOfArgs : List Expr → List Char
  | [] => []
  | [e] => e.chars
  | e :: f :: rest => e.chars ++ ',' :: ' ' :: charsOfArgs (f :: rest)
end

/-- The normal form of an expression. -/
def render (e : Expr) : String := String.ofList e.chars

end Expr

end Asm65816
