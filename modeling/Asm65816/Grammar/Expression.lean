import Asm65816.Expr
import Asm65816.Token

/-!
# The grammar of expressions

Two tiers of operators that group to the left, addition below multiplication, over five forms
tried in order: a group in parentheses, a decimal number, a hexadecimal number, a call, a label. A
name with `(` after it is always a call: from the parenthesis on its failure is final.

Groups and calls nest. `expression limit levels` is the grammar with `levels` more levels to open;
each form gets the grammar one level down, or nothing when there are no levels left, so the grammar
is built by recursion on the levels. `limit` is only told in the failure.

An operator with nothing readable after it is left unread, along with what follows it.
-/

namespace Asm65816.Grammar

open Rule

/-! ## Operator tiers -/

/-- Reads operators and operands onto `left`, for as long as both are there. -/
def chainFrom (operand : Advancing Expr) (operator? : Char → Option Operator) (left : Expr)
    (c : Cursor) : Except Failure (Expr × Cursor) :=
  match _hc : c.peek?.bind operator? with
  | none => .ok (left, c)
  | some op =>
    match _h : operand.run (c.advance 1).skipBlank with
    | .ok (right, d) => chainFrom operand operator? (.binary op left right) d
    | .error f => if f.fatal then .error f else .ok (left, c)
termination_by c.rest.length
decreasing_by
  obtain ⟨ch, hch, -⟩ := Option.bind_eq_some_iff.1 _hc
  have h1 := (Cursor.reads_advance_one hch).length_lt (by simp)
  have h2 := (c.advance 1).reads_skipBlank.length_le
  have h3 := operand.length_lt _h
  omega

theorem forward_chainFrom (operand : Advancing Expr) (operator? : Char → Option Operator)
    (left : Expr) : Rule.Forward ⟨chainFrom operand operator? left⟩ := by
  intro c d e h
  dsimp only at h
  fun_induction chainFrom operand operator? left c generalizing d e with
  | case1 => cases h; exact ⟨[], Cursor.reads_nil _⟩
  | case2 left c op hc right c' hr ih =>
    obtain ⟨ch, hch, -⟩ := Option.bind_eq_some_iff.1 hc
    obtain ⟨us, -, hu⟩ := operand.advances hr
    obtain ⟨vs, hv⟩ := ih h
    exact ⟨_, (((Cursor.reads_advance_one hch).append (Cursor.reads_skipBlank _)).append
      hu).append hv⟩
  | case3 => cases h
  | case4 => cases h; exact ⟨[], Cursor.reads_nil _⟩

/-- Operands joined by the operators of one tier, grouped to the left. -/
def chain (operand : Advancing Expr) (operator? : Char → Option Operator) : Advancing Expr where
  toRule := do
    let left ← operand.toRule
    ⟨chainFrom operand operator? left⟩
  advances := operand.advances.bind (forward_chainFrom operand operator?)

/-! ## Forms -/

/-- Opens a level at `offset`, if there is one left. -/
def enter (limit offset : Nat) (inner : Option (Advancing Expr)) : Rule (Advancing Expr) :=
  match inner with
  | none => fail (.tooDeep limit offset)
  | some inner => pure inner

theorem forward_enter (limit offset : Nat) (inner : Option (Advancing Expr)) :
    (enter limit offset inner).Forward := by
  cases inner with
  | none => exact (advances_fail _).forward
  | some inner => exact forward_pure inner

/-- A group: `( expression )`. -/
def group (limit : Nat) (inner : Option (Advancing Expr)) : Rule Expr := do
  let start ← cursor
  let _ ← token ['('] "'('" Failure.lexical
  let inner ← enter limit start.pos inner
  let e ← inner.within (.expected "expression after '('") false
  let _ ← token [')'] "')'" Failure.mismatch
  pure e

/-- One argument of a call and whether a comma follows it. -/
def argument (callee : String) (inner : Advancing Expr) : Advancing (Expr × Bool) where
  toRule :=
    (do
      let e ← inner.toRule
      let separator ← token [',', ')'] "',' or ')'" Failure.lexical
      pure (e, separator == ',')).within (.malformedArguments callee) true
  advances :=
    (inner.advances.bind fun _ =>
      (advances_token ..).forward.bind fun _ => forward_pure _).within _ _

/-- The arguments of a call from the first one on, with the closing parenthesis. -/
def arguments (callee : String) (inner : Advancing Expr) : Rule (List Expr) :=
  ⟨(argument callee inner).iterate⟩

/-- What follows the opening parenthesis of a call. -/
def callArguments (callee : String) (inner : Advancing Expr) : Rule (List Expr) := do
  let c ← cursor
  if c.peek? = some ')' then
    let _ ← token [')'] "')'" Failure.lexical
    pure []
  else arguments callee inner

/-- A call: `name ( [expression (, expression)*] )`. -/
def call (limit : Nat) (inner : Option (Advancing Expr)) : Rule Expr := do
  let name ← lexeme Token.identifier
  let c ← cursor
  if c.peek? = some '(' then
    let inner ← enter limit c.pos inner
    let _ ← token ['('] "'('" Failure.lexical
    let args ← callArguments name inner
    pure (.call name args)
  else fail (.lexical (.expected s!"'(' after '{name}'") c.pos)

/-- A decimal or hexadecimal number. -/
def numeral (digits : Rule Number) : Rule Expr := do
  let n ← lexeme digits
  pure (.number n)

/-- A relative label, or a label by its name. -/
def reference : Rule Expr := do
  let c ← cursor
  if c.peek? = some '+' ∨ c.peek? = some '-' then
    let l ← lexeme Token.relativeLabel
    pure (.label l)
  else
    let name ← lexeme Token.identifier
    pure (.label (.named name))

theorem advances_group (limit : Nat) (inner : Option (Advancing Expr)) :
    (group limit inner).Advances :=
  forward_cursor.bind_advances fun start => (advances_token ..).bind fun _ =>
    (forward_enter limit start.pos inner).bind fun inner =>
      (inner.advances.within _ _).forward.bind fun _ =>
        (advances_token ..).forward.bind fun _ => forward_pure _

theorem forward_callArguments (callee : String) (inner : Advancing Expr) :
    (callArguments callee inner).Forward :=
  forward_cursor.bind fun c => by
    split
    · exact (advances_token ..).forward.bind fun _ => forward_pure _
    · exact (Advancing.advances_iterate _).forward

theorem advances_call (limit : Nat) (inner : Option (Advancing Expr)) :
    (call limit inner).Advances :=
  Token.advances_identifier.lexeme.bind fun name => forward_cursor.bind fun c => by
    split
    · exact (forward_enter limit c.pos inner).bind fun inner =>
        (advances_token ..).forward.bind fun _ =>
          (forward_callArguments name inner).bind fun _ => forward_pure _
    · exact (advances_fail _).forward

theorem advances_numeral {digits : Rule Number} (h : digits.Advances) :
    (numeral digits).Advances :=
  h.lexeme.bind fun _ => forward_pure _

theorem advances_reference : reference.Advances :=
  forward_cursor.bind_advances fun c => by
    split
    · exact Token.advances_relativeLabel.lexeme.bind fun _ => forward_pure _
    · exact Token.advances_identifier.lexeme.bind fun _ => forward_pure _

/-! ## The grammar -/

/-- The forms of an operand, after blanks. -/
def atom (limit : Nat) (inner : Option (Advancing Expr)) : Advancing Expr where
  toRule := do
    skipBlank
    choice "expression"
      [group limit inner, numeral Token.decimal, numeral Token.hexadecimal, call limit inner,
        reference]
  advances := forward_skipBlank.bind_advances fun _ => advances_choice _ (by
    simp only [List.mem_cons, List.not_mem_nil, or_false, forall_eq_or_imp, forall_eq]
    exact ⟨advances_group limit inner, advances_numeral Token.advances_decimal,
      advances_numeral Token.advances_hexadecimal, advances_call limit inner, advances_reference⟩)

/-- The upper tier: operands joined by `*` and `/`. -/
def term (limit : Nat) (inner : Option (Advancing Expr)) : Advancing Expr :=
  chain (atom limit inner) Operator.multiplicative?

/-- The lower tier: terms joined by `+` and `-`. -/
def sum (limit : Nat) (inner : Option (Advancing Expr)) : Advancing Expr :=
  chain (term limit inner) Operator.additive?

/-- An expression that may open `levels` more levels. -/
def expression (limit : Nat) : Nat → Advancing Expr
  | 0 => sum limit none
  | levels + 1 => sum limit (some (expression limit levels))

/-- The grammar inside a bracket that opens one of `levels` levels, if there is one left. -/
def inside (limit : Nat) : Nat → Option (Advancing Expr)
  | 0 => none
  | levels + 1 => some (expression limit levels)

/-- With any number of levels an expression is a sum over what stands inside its brackets. -/
theorem expression_eq_sum (limit levels : Nat) :
    expression limit levels = sum limit (inside limit levels) := by
  cases levels <;> rfl

end Asm65816.Grammar
