import Asm65816.Grammar.Statement
import Asm65816.Proofs.ProperFailures

/-!
# The shape of failures

Whatever rule of the grammar fails, its failure is proper. There is a lemma for each rule, in the
order of the grammar: expressions level by level, operands, statements. Put together they tell the
shape of every failure that a statement or an expression can end with
(`Grammar.shape_of_failure`).
-/

namespace Asm65816

namespace Grammar

open Rule

variable {plain : Bool} {first limit : Nat}

/-! ## Expressions -/

/-- Only a fatal failure of an operand leaves a chain, and it stands after the operator. -/
theorem fails_chainFrom {operand : Advancing Expr} {operator? : Char → Option Operator}
    (h : operand.Fails plain first) (left : Expr) :
    (⟨chainFrom operand operator? left⟩ : Rule Expr).Fails plain first := by
  intro c f hc hf
  dsimp only at hf
  fun_induction chainFrom operand operator? left c with
  | case1 => cases hf
  | case2 left c op hop right d hright ih =>
    obtain ⟨ch, hch, -⟩ := Option.bind_eq_some_iff.1 hop
    obtain ⟨t, -, hread⟩ := operand.advances hright
    have hread := ((Cursor.reads_advance_one hch).append (Cursor.reads_skipBlank _)).append hread
    have hd := ih (Nat.le_trans hc hread.pos_le) hf
    rw [hread.textEnd_eq] at hd
    exact hd
  | case3 left c op hop g hg =>
    cases hf
    obtain ⟨ch, hch, -⟩ := Option.bind_eq_some_iff.1 hop
    have hread := (Cursor.reads_advance_one hch).append (Cursor.reads_skipBlank _)
    have hd := h (Nat.le_trans hc hread.pos_le) hg
    rw [hread.textEnd_eq] at hd
    exact hd
  | case4 => cases hf

theorem fails_chain {operand : Advancing Expr} {operator? : Char → Option Operator}
    (h : operand.Fails plain first) : (chain operand operator?).Fails plain first :=
  h.bind operand.advances.forward (fails_chainFrom h)

/-- Without a level left the rule fails where the bracket stands. -/
theorem fails_enter_bind {α : Type} {inner : Option (Advancing Expr)}
    {k : Advancing Expr → Rule α} (h : ∀ i, inner = some i → (k i).Fails plain first) :
    (enter limit first inner >>= k).Fails plain first := by
  cases inner with
  | none =>
    intro c f hc hf
    rcases run_bind_eq_error.1 hf with hf | ⟨_, _, hok, -⟩
    · have hfail : (fail (.tooDeep limit first) : Rule (Advancing Expr)).Fails plain first :=
        fails_fail trivial
      exact hfail hc hf
    · cases hok
  | some i => exact h i rfl

theorem fails_callArguments {callee : String} {i : Advancing Expr}
    (hi : ∀ first, i.Fails false first) : (callArguments callee i).Fails plain first := by
  refine fails_cursor_bind fun c => ?_
  split
  · exact fails_token_bind Failure.reports_lexical fun _ => fails_pure _
  · refine Advancing.fails_iterate (Fails.within ?_ ..)
    exact (hi _).bind i.advances.forward fun _ =>
      fails_token_bind Failure.reports_lexical fun _ => fails_pure _

theorem fails_numeral {digits : Rule Number} (h : digits.Fails plain first)
    (hdigits : digits.Advances) : (numeral digits).Fails plain first :=
  (h.lexeme hdigits.forward).bind hdigits.lexeme.forward fun _ => fails_pure _

theorem fails_reference : reference.Fails plain first := by
  refine fails_cursor_bind fun c => ?_
  split
  · exact (Token.fails_relativeLabel.lexeme Token.advances_relativeLabel.forward).bind
      Token.advances_relativeLabel.lexeme.forward fun _ => fails_pure _
  · exact (Token.fails_identifier.lexeme Token.advances_identifier.forward).bind
      Token.advances_identifier.lexeme.forward fun _ => fails_pure _

section
variable {inner : Option (Advancing Expr)}

theorem fails_group (hinner : ∀ i, inner = some i → ∀ first, i.Fails false first) :
    (group limit inner).Fails plain first := by
  refine fails_cursor_bind fun start => fails_token_bind Failure.reports_lexical fun _ => ?_
  refine fails_enter_bind fun i hi => ?_
  refine ((hinner i hi _).within ..).bind (i.advances.within ..).forward fun _ => ?_
  exact fails_token_bind Failure.reports_mismatch fun _ => fails_pure _

theorem fails_call (hinner : ∀ i, inner = some i → ∀ first, i.Fails false first) :
    (call limit inner).Fails plain first := by
  refine (Token.fails_identifier.lexeme Token.advances_identifier.forward).bind
    Token.advances_identifier.lexeme.forward fun name => fails_cursor_bind fun c => ?_
  split
  · refine fails_enter_bind fun i hi => fails_token_bind Failure.reports_lexical fun _ => ?_
    exact (fails_callArguments (hinner i hi)).bind (forward_callArguments ..) fun _ =>
      fails_pure _
  · exact fails_fail trivial

theorem fails_sum (hinner : ∀ i, inner = some i → ∀ first, i.Fails false first) :
    (sum limit inner).Fails false first := by
  refine fails_chain (fails_chain ?_)
  refine fails_skipBlank.bind forward_skipBlank fun _ => fails_choice (by simp) ?_
  simp only [List.mem_cons, List.not_mem_nil, or_false, forall_eq_or_imp, forall_eq]
  exact ⟨fun _ => fails_group hinner,
    fun _ => fails_numeral Token.fails_decimal Token.advances_decimal,
    fun _ => fails_numeral Token.fails_hexadecimal Token.advances_hexadecimal,
    fun _ => fails_call hinner, fun _ => fails_reference⟩

end

/-- Whatever the levels, expressions fail properly: the grammar of each level does because that of
the level below does. -/
theorem fails_expression (limit levels first : Nat) :
    (expression limit levels).Fails false first := by
  induction levels generalizing first with
  | zero => exact fails_sum nofun
  | succ levels ih =>
    refine fails_sum fun i hi first => ?_
    cases hi
    exact ih first

theorem fails_value (limit first : Nat) : (value limit).Fails false first :=
  fails_expression limit limit first

/-! ## Operands -/

theorem fails_inside {levels : Nat} :
    ∀ i, inside limit levels = some i → ∀ first, i.Fails false first := by
  intro i hi first
  cases levels with
  | zero => cases hi
  | succ levels =>
    cases hi
    exact fails_expression limit levels first

theorem fails_opened {bracket : Char} : (opened limit bracket).Fails plain first := by
  refine fails_cursor_bind fun start => fails_token_bind Failure.reports_lexical fun _ => ?_
  exact fails_enter_bind fun i hi => (fails_inside i hi _).within ..

theorem fails_enclosed {opening closing : Char} :
    (enclosed limit opening closing).Fails plain first :=
  fails_opened.bind (advances_opened ..).forward fun _ =>
    fails_token_bind Failure.reports_mismatch fun _ => fails_pure _

theorem fails_registerLetter {letter : Char} : (registerLetter letter).Fails plain first :=
  fun c f hc hf => by
    simp only [registerLetter] at hf
    split at hf
    · cases hf
    · cases hf
      exact proper_leaf hc (Nat.le_refl _) trivial

theorem fails_indexedBy {letter : Char} : (indexedBy letter).Fails plain first :=
  fails_token_bind Failure.reports_mismatch fun _ => fails_skipBlank.bind forward_skipBlank fun _ =>
    fails_registerLetter.lexeme (advances_registerLetter letter).forward

theorem fails_enclosedIndexed {letter : Char} : (enclosedIndexed limit letter).Fails plain first :=
  fails_opened.bind (advances_opened ..).forward fun _ =>
    fails_indexedBy.bind (advances_indexedBy letter).forward fun _ =>
      fails_token_bind Failure.reports_mismatch fun _ => fails_pure _

/-- A shape with the index register after it fails as its brackets do, or at the register. -/
theorem fails_shape_indexed {r : Rule Expr} {letter : Char} {shape : Shape}
    (hr : r.Fails plain first) (hadvances : r.Advances) :
    (do let e ← r; indexedBy letter; pure (Operand.valued shape e) : Rule Operand).Fails plain
      first :=
  hr.bind hadvances.forward fun _ =>
    fails_indexedBy.bind (advances_indexedBy letter).forward fun _ => fails_pure _

theorem fails_shape {r : Rule Expr} {shape : Shape} (hr : r.Fails plain first)
    (hadvances : r.Advances) :
    (do let e ← r; pure (Operand.valued shape e) : Rule Operand).Fails plain first :=
  hr.bind hadvances.forward fun _ => fails_pure _

theorem fails_indirect : (indirect limit).Fails plain first := by
  refine fails_enclosed.bind (advances_enclosed ..).forward fun _ => fails_cursor_bind fun c => ?_
  split
  · exact fails_fail trivial
  · exact fails_pure _

theorem fails_move : (move limit).Fails false first := by
  refine (fails_value limit first).bind (value limit).advances.forward fun _ => ?_
  refine fails_token_bind Failure.reports_mismatch fun _ => ?_
  exact ((fails_value limit first).within ..).bind ((value limit).advances.within ..).forward
    fun _ => fails_pure _

theorem fails_immediate : (immediate limit).Fails plain first := by
  refine fails_token_bind Failure.reports_lexical fun _ => ?_
  exact ((fails_value limit first).within ..).bind ((value limit).advances.within ..).forward
    fun _ => fails_pure _

theorem fails_implied : implied.Fails plain first := by
  refine fails_cursor_bind fun c => ?_
  split
  · exact fails_skipBlank.bind forward_skipBlank fun _ => fails_pure _
  · exact fails_fail trivial

theorem fails_operand : (operand limit).Fails false first := by
  refine fails_choice (by simp) ?_
  simp only [List.mem_cons, List.not_mem_nil, or_false, forall_eq_or_imp, forall_eq]
  exact ⟨fun _ => fails_shape_indexed fails_enclosed (advances_enclosed ..),
    fun _ => fails_indirect,
    fun _ => fails_shape fails_enclosedIndexed (advances_enclosedIndexed ..), fun _ => fails_move,
    fun _ => fails_shape (fails_value limit _) (value limit).advances, fun _ => fails_immediate,
    fun _ => fails_shape_indexed fails_enclosed (advances_enclosed ..),
    fun _ => fails_shape fails_enclosed (advances_enclosed ..),
    fun _ => fails_shape_indexed fails_enclosedIndexed (advances_enclosedIndexed ..),
    fun _ => fails_implied⟩

/-! ## Statements -/

theorem fails_keyword : (keyword limit).Fails plain first := by
  refine fails_cursor_bind fun start => ?_
  refine Token.fails_identifier.bind Token.advances_identifier.forward fun name => ?_
  split
  · exact ((fails_value limit _).within ..).bind ((value limit).advances.within ..).forward
      fun _ => fails_pure _
  · exact fails_fail trivial

theorem fails_labelDeclaration : labelDeclaration.Fails plain first := by
  refine fails_cursor_bind fun c => ?_
  split
  · refine Token.fails_relativeLabel.bind Token.advances_relativeLabel.forward fun l => ?_
    refine fails_cursor_bind fun d => ?_
    split
    · exact fails_skipBlank.bind forward_skipBlank fun _ => fails_pure _
    · exact fails_fail trivial
  · refine Token.fails_identifier.bind Token.advances_identifier.forward fun name => ?_
    exact ((fails_char Failure.reports_lexical).lexeme (advances_char ..).forward).bind
      (advances_char ..).lexeme.forward fun _ => fails_pure _

theorem fails_assignmentStatement : (assignmentStatement limit).Fails plain first := by
  refine Fails.bind ?_ (advances_assignment limit).forward fun _ => fails_pure _
  refine Token.fails_identifier.bind Token.advances_identifier.forward fun name => ?_
  refine fails_token_bind Failure.reports_lexical fun _ => ?_
  exact ((fails_value limit first).within ..).bind ((value limit).advances.within ..).forward
    fun _ => fails_pure _

theorem fails_sizeLetter : sizeLetter.Fails plain first := fun c f hc hf => by
  simp only [sizeLetter] at hf
  split at hf
  · split at hf
    · cases hf
    · cases hf
      exact proper_leaf hc (Nat.le_refl _) trivial
  · cases hf
    exact proper_leaf hc (Nat.le_refl _) trivial

theorem fails_sizeSuffix : sizeSuffix.Fails plain first := by
  refine fails_cursor_bind fun c => ?_
  split
  · exact fails_token_bind Failure.reports_lexical fun _ =>
      fails_sizeLetter.bind advances_sizeLetter.forward fun _ => fails_pure _
  · exact fails_pure _

theorem fails_instruction : (instruction limit).Fails false first := by
  refine Token.fails_identifier.bind Token.advances_identifier.forward fun mnemonic => ?_
  refine fails_sizeSuffix.bind forward_sizeSuffix fun size => ?_
  exact fails_operand.bind (forward_operand limit) fun _ => fails_pure _

theorem fails_statement (limit first : Nat) : (statement limit).Fails false first := by
  refine fails_choice (by simp) ?_
  simp only [List.mem_cons, List.not_mem_nil, or_false, forall_eq_or_imp, forall_eq]
  exact ⟨fun _ => fails_keyword, fun _ => fails_labelDeclaration,
    fun _ => fails_assignmentStatement, fun _ => fails_instruction⟩

/-- A statement fails fatally, or with the failures of its four kinds, in their order. -/
theorem run_statement_error {c : Cursor} {f : Failure} (h : (statement limit).run c = .error f) :
    f.fatal = true ∨ ∃ fk fl fa fi,
      f = .ofAlternatives (.expected "statement") c.pos none [fk, fl, fa, fi] ∧
      (keyword limit).run c = .error fk ∧ labelDeclaration.run c = .error fl ∧
      (assignmentStatement limit).run c = .error fa ∧ (instruction limit).run c = .error fi := by
  rcases run_choice_error h with ⟨hfatal, -⟩ | ⟨fs, rfl, hfs⟩
  · exact .inl hfatal
  · rcases hfs with _ | ⟨hk, _ | ⟨hl, _ | ⟨ha, _ | ⟨hi, _ | _⟩⟩⟩⟩
    exact .inr ⟨_, _, _, _, rfl, hk.1, hl.1, ha.1, hi.1⟩

end Grammar

/-! ## Whole texts -/

/-- A failure is known from what is told of it, which can be compared. -/
theorem exists_of_mapError {ε ε' α : Type} {x : Except ε α} {g : ε → ε'} {b : ε'}
    (h : x.mapError g = .error b) : ∃ e, x = .error e ∧ g e = b := by
  cases x with
  | ok a => cases h
  | error e =>
    cases h
    exact ⟨e, rfl, rfl⟩

/-- A result is known from what is told of it. -/
theorem exists_of_map {ε α β : Type} {x : Except ε α} {g : α → β} {b : β}
    (h : x.map g = .ok b) : ∃ a, x = .ok a ∧ g a = b := by
  cases x with
  | error e => cases h
  | ok a =>
    cases h
    exact ⟨a, rfl, rfl⟩

namespace Grammar

end Grammar

end Asm65816
