import Asm65816.Grammar.Expression
import Asm65816.Instruction

/-!
# The grammar of operands

Ten shapes, tried in order:

* `(expr),y`, `(expr)`, `(expr,x)`, `expr,expr`, `expr`, `#expr`, `[expr],y`, `[expr]`,
  `(expr,s),y`, and nothing.

The order decides where shapes overlap. A closing parenthesis with an operator after it only groups
part of an expression, so `(expr)` gives way there, and `expr,expr` comes before `expr`, which would
leave the comma behind. The registers may be written in either case.
-/

namespace Asm65816.Grammar

open Rule

/-! ## Parts -/

/-- An expression outside all brackets. -/
def value (limit : Nat) : Advancing Expr := expression limit limit

/-- An opening bracket and the expression after it. -/
def opened (limit : Nat) (bracket : Char) : Rule Expr := do
  let start ← cursor
  let _ ← token [bracket] s!"'{bracket}'" Failure.lexical
  let inner ← enter limit start.pos (inside limit limit)
  inner.within (.expected "expression") false

/-- A token that the shape needs once it has begun. -/
def needed (ch : Char) : Rule Char := token [ch] s!"'{ch}'" Failure.mismatch

/-- An expression in brackets. -/
def enclosed (limit : Nat) (opening closing : Char) : Rule Expr := do
  let e ← opened limit opening
  let _ ← needed closing
  pure e

/-- The letter of a register as a word of its own. -/
def registerLetter (letter : Char) : Rule Unit := ⟨fun c =>
  if c.peek?.map Char.toLower = some letter ∧ (c.advance 1).endsWord then .ok ((), c.advance 1)
  else .error (.mismatch (.expected s!"register '{letter}'") c.pos)⟩

/-- A register, with blanks around it. -/
def register (letter : Char) : Rule Unit := do
  skipBlank
  lexeme (registerLetter letter)

/-- A comma and a register. -/
def indexedBy (letter : Char) : Rule Unit := do
  let _ ← needed ','
  register letter

/-! ## Shapes -/

/-- The shape `(expr),y`. -/
def indirectY (limit : Nat) : Rule Operand := do
  let e ← enclosed limit '(' ')'
  indexedBy 'y'
  pure (.valued .indirectY e)

/-- The operators that go on an expression after a parenthesis. -/
def isOperator (ch : Char) : Bool := ['+', '-', '*', '/'].contains ch

/-- The shape `(expr)`, with no operator after it. -/
def indirect (limit : Nat) : Rule Operand := do
  let e ← enclosed limit '(' ')'
  let c ← cursor
  if c.peek?.any isOperator then fail (.mismatch .groupContinues c.pos)
  else pure (.valued .indirect e)

/-- An expression and a register in parentheses: `(expr,letter)`. -/
def enclosedIndexed (limit : Nat) (letter : Char) : Rule Expr := do
  let e ← opened limit '('
  indexedBy letter
  let _ ← needed ')'
  pure e

/-- The shape `(expr,x)`. -/
def xIndirect (limit : Nat) : Rule Operand := do
  let e ← enclosedIndexed limit 'x'
  pure (.valued .xIndirect e)

/-- The shape `expr,expr`. -/
def move (limit : Nat) : Rule Operand := do
  let e ← (value limit).toRule
  let _ ← needed ','
  let second ← (value limit).within (.expected "expression") false
  pure (.valued (.move second) e)

/-- The shape `expr`. -/
def address (limit : Nat) : Rule Operand := do
  let e ← (value limit).toRule
  pure (.valued .address e)

/-- The shape `#expr`. -/
def immediate (limit : Nat) : Rule Operand := do
  let _ ← token ['#'] "'#'" Failure.lexical
  let e ← (value limit).within (.expected "expression") false
  pure (.valued .immediate e)

/-- The shape `[expr],y`. -/
def longIndirectY (limit : Nat) : Rule Operand := do
  let e ← enclosed limit '[' ']'
  indexedBy 'y'
  pure (.valued .longIndirectY e)

/-- The shape `[expr]`. -/
def longIndirect (limit : Nat) : Rule Operand := do
  let e ← enclosed limit '[' ']'
  pure (.valued .longIndirect e)

/-- The shape `(expr,s),y`. -/
def stackIndirectY (limit : Nat) : Rule Operand := do
  let e ← enclosedIndexed limit 's'
  indexedBy 'y'
  pure (.valued .stackIndirectY e)

/-- No operand, where the statement ends. -/
def implied : Rule Operand := do
  let c ← cursor
  if c.endsStatement then
    skipBlank
    pure .implied
  else fail (.lexical (.expected "operand or end of statement") c.pos)

/-- The operand of an instruction. -/
def operand (limit : Nat) : Rule Operand :=
  choice "operand"
    [indirectY limit, indirect limit, xIndirect limit, move limit, address limit, immediate limit,
      longIndirectY limit, longIndirect limit, stackIndirectY limit, implied]

/-! ## Operands move forward -/

theorem advances_opened (limit : Nat) (bracket : Char) : (opened limit bracket).Advances :=
  forward_cursor.bind_advances fun start => (advances_token ..).bind fun _ =>
    (forward_enter limit start.pos (inside limit limit)).bind fun inner =>
      (inner.advances.within _ _).forward

theorem advances_needed (ch : Char) : (needed ch).Advances := advances_token ..

theorem advances_enclosed (limit : Nat) (opening closing : Char) :
    (enclosed limit opening closing).Advances :=
  (advances_opened limit opening).bind fun _ =>
    (advances_needed closing).forward.bind fun _ => forward_pure _

theorem advances_registerLetter (letter : Char) : (registerLetter letter).Advances :=
  fun c d a h => by
    simp only [registerLetter] at h
    split at h
    · next hc =>
      cases h
      obtain ⟨ch, hch, -⟩ := Option.map_eq_some_iff.1 hc.1
      exact ⟨[ch], by simp, Cursor.reads_advance_one hch⟩
    · cases h

theorem advances_indexedBy (letter : Char) : (indexedBy letter).Advances :=
  (advances_needed ',').bind fun _ =>
    forward_skipBlank.bind fun _ => (advances_registerLetter letter).lexeme.forward

theorem advances_enclosedIndexed (limit : Nat) (letter : Char) :
    (enclosedIndexed limit letter).Advances :=
  (advances_opened limit '(').bind fun _ => (advances_indexedBy letter).forward.bind fun _ =>
    (advances_needed ')').forward.bind fun _ => forward_pure _

theorem forward_implied : implied.Forward :=
  forward_cursor.bind fun c => by
    split
    · exact forward_skipBlank.bind fun _ => forward_pure _
    · exact (advances_fail _).forward

theorem forward_operand (limit : Nat) : (operand limit).Forward := forward_choice _ (by
  have pure_after {α : Type} {r : Rule α} (h : r.Advances) (f : α → Operand) :
      Rule.Forward (do let a ← r; pure (f a)) := (h.bind fun _ => forward_pure _).forward
  have indexed_after {r : Rule Expr} (h : r.Advances) (shape : Shape) :
      Rule.Forward (do let e ← r; indexedBy 'y'; pure (Operand.valued shape e)) :=
    (h.bind fun _ => (advances_indexedBy 'y').forward.bind fun _ => forward_pure _).forward
  simp only [List.mem_cons, List.not_mem_nil, or_false, forall_eq_or_imp, forall_eq]
  refine ⟨indexed_after (advances_enclosed ..) _, ?_, pure_after (advances_enclosedIndexed ..) _,
    ?_, pure_after (value limit).advances _, ?_, indexed_after (advances_enclosed ..) _,
    pure_after (advances_enclosed ..) _, indexed_after (advances_enclosedIndexed ..) _,
    forward_implied⟩
  · refine ((advances_enclosed ..).bind fun _ => forward_cursor.bind fun c => ?_).forward
    split
    · exact (advances_fail _).forward
    · exact forward_pure _
  · exact ((value limit).advances.bind fun _ => (advances_needed ',').forward.bind fun _ =>
      ((value limit).advances.within _ _).forward.bind fun _ => forward_pure _).forward
  · exact ((advances_token ..).bind fun _ =>
      ((value limit).advances.within _ _).forward.bind fun _ => forward_pure _).forward)

end Asm65816.Grammar
