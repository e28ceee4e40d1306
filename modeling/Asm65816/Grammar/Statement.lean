import Asm65816.Grammar.Operand
import Asm65816.Statement

/-!
# The grammar of statements

Four kinds, tried in order: the keyword `org` with an address, the declaration of a label, an
assignment, an instruction. A named label has its colon right after the name; a relative label
stands alone in its statement.
-/

namespace Asm65816.Grammar

open Rule

/-- The keyword and its address: `org expr`, the keyword in either case. -/
def keyword (limit : Nat) : Rule Statement := do
  let start ← cursor
  let name ← Token.identifier
  if name.toList.map Char.toLower = ['o', 'r', 'g'] then
    let address ← (value limit).within (.expected s!"address after '{name}'") false
    pure (.org address)
  else fail (.lexical (.notKeyword name) start.pos)

/-- A declaration: `name:`, or a relative label at the end of its statement. -/
def labelDeclaration : Rule Statement := do
  let c ← cursor
  if c.peek? = some '+' ∨ c.peek? = some '-' then
    let l ← Token.relativeLabel
    let d ← cursor
    if d.endsStatement then
      skipBlank
      pure (.label l)
    else fail (.mismatch .labelNotAlone d.pos)
  else
    let name ← Token.identifier
    let _ ← lexeme (char [':'] "':' after label name" Failure.lexical)
    pure (.label (.named name))

/-- The name and the value of `name = expr`. -/
def assignment (limit : Nat) : Rule (String × Expr) := do
  let name ← Token.identifier
  let _ ← token ['='] "'='" Failure.lexical
  let e ← (value limit).within (.expected s!"expression after '{name} ='") false
  pure (name, e)

/-- The assignment `name = expr` as a statement. -/
def assignmentStatement (limit : Nat) : Rule Statement := do
  let (name, e) ← assignment limit
  pure (.assignment name e)

/-- The letter of a size suffix, a word of its own, after the dot. -/
def sizeLetter : Rule Size := ⟨fun c =>
  match c.peek?.bind Size.ofLetter? with
  | some size =>
    if (c.advance 1).endsWord then .ok (size, c.advance 1)
    else .error (.mismatch (.expected "width suffix .b, .w or .l") c.pos)
  | none => .error (.mismatch (.expected "width suffix .b, .w or .l") c.pos)⟩

/-- A size suffix `.b`, `.w` or `.l`; without a dot nothing is read, blanks included. -/
def sizeSuffix : Rule (Option Size) := do
  let c ← cursor
  if c.skipBlank.peek? = some '.' then
    let _ ← token ['.'] "'.'" Failure.lexical
    let size ← sizeLetter
    pure (some size)
  else pure none

/-- A mnemonic, a size suffix and an operand. -/
def instruction (limit : Nat) : Rule Statement := do
  let mnemonic ← Token.identifier
  let size ← sizeSuffix
  let operand ← operand limit
  pure (.instruction ⟨mnemonic, size, operand⟩)

/-! ## Statements read something -/

theorem advances_keyword (limit : Nat) : (keyword limit).Advances :=
  forward_cursor.bind_advances fun _ => Token.advances_identifier.bind fun _ => by
    split
    · exact ((value limit).advances.within _ _).forward.bind fun _ => forward_pure _
    · exact (advances_fail _).forward

theorem advances_labelDeclaration : labelDeclaration.Advances :=
  forward_cursor.bind_advances fun _ => by
    split
    · refine Token.advances_relativeLabel.bind fun _ => forward_cursor.bind fun _ => ?_
      split
      · exact forward_skipBlank.bind fun _ => forward_pure _
      · exact (advances_fail _).forward
    · exact Token.advances_identifier.bind fun _ =>
        (advances_char ..).lexeme.forward.bind fun _ => forward_pure _

theorem advances_assignment (limit : Nat) : (assignment limit).Advances :=
  Token.advances_identifier.bind fun _ => (advances_token ..).forward.bind fun _ =>
    ((value limit).advances.within _ _).forward.bind fun _ => forward_pure _

theorem advances_sizeLetter : sizeLetter.Advances := fun c d a h => by
  simp only [sizeLetter] at h
  split at h
  · next hc =>
    split at h
    · cases h
      obtain ⟨ch, hch, -⟩ := Option.bind_eq_some_iff.1 hc
      exact ⟨[ch], by simp, Cursor.reads_advance_one hch⟩
    · cases h
  · cases h

theorem forward_sizeSuffix : sizeSuffix.Forward :=
  forward_cursor.bind fun _ => by
    split
    · exact (advances_token ..).forward.bind fun _ =>
        advances_sizeLetter.forward.bind fun _ => forward_pure _
    · exact forward_pure _

theorem advances_instruction (limit : Nat) : (instruction limit).Advances :=
  Token.advances_identifier.bind fun _ => forward_sizeSuffix.bind fun _ =>
    (forward_operand limit).bind fun _ => forward_pure _

/-- A statement. -/
def statement (limit : Nat) : Advancing Statement where
  toRule := choice "statement"
    [keyword limit, labelDeclaration, assignmentStatement limit, instruction limit]
  advances := advances_choice _ (by
    simp only [List.mem_cons, List.not_mem_nil, or_false, forall_eq_or_imp, forall_eq]
    exact ⟨advances_keyword limit, advances_labelDeclaration,
      (advances_assignment limit).bind fun _ => forward_pure _, advances_instruction limit⟩)

end Asm65816.Grammar
