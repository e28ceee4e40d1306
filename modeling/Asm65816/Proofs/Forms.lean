import Asm65816.Grammar.Expression
import Asm65816.Proofs.Tokens

/-!
# What the forms of an expression read

One lemma for each rule of the grammar of expressions tells when it matches, through the rules it is
made of and the characters between them (`Cursor.Takes`). Later proofs use these and never open a
rule. Beside them stand the refusals by the first character: an expression begins with one of a few
characters (`opensExpression`), and where another stands every form gives way.
-/

namespace Asm65816

namespace Advancing

variable {α : Type}

/-- A repetition is its last step, or a step that asks for more and a repetition. -/
theorem iterate_eq_ok {step : Advancing (α × Bool)} {c d : Cursor} {as : List α} :
    step.iterate c = .ok (as, d) ↔
      (∃ a, as = [a] ∧ step.run c = .ok ((a, false), d)) ∨
      ∃ a rest m, as = a :: rest ∧ step.run c = .ok ((a, true), m) ∧
        step.iterate m = .ok (rest, d) := by
  rw [iterate]
  split
  · next h => simp [h]
  · next a m h =>
    simp only [h, Except.ok.injEq, Prod.mk.injEq]
    refine ⟨?_, ?_⟩
    · rintro ⟨rfl, rfl⟩
      exact .inl ⟨a, rfl, ⟨rfl, trivial⟩, rfl⟩
    · rintro (⟨b, rfl, ⟨rfl, -⟩, rfl⟩ | ⟨_, _, _, _, ⟨⟨_, h⟩, _⟩, _⟩)
      · exact ⟨rfl, rfl⟩
      · cases h
  · next a m h =>
    simp only [h, Except.ok.injEq, Prod.mk.injEq]
    split
    · next f hf =>
      refine ⟨(by intro h; cases h), ?_⟩
      rintro (⟨_, _, ⟨_, h⟩, _⟩ | ⟨b, rest, m', -, ⟨⟨rfl, -⟩, rfl⟩, hi⟩)
      · cases h
      · rw [hf] at hi
        cases hi
    · next bs e he =>
      simp only [Except.ok.injEq, Prod.mk.injEq]
      refine ⟨?_, ?_⟩
      · rintro ⟨rfl, rfl⟩
        exact .inr ⟨a, bs, m, rfl, ⟨⟨rfl, trivial⟩, rfl⟩, he⟩
      · rintro (⟨_, _, ⟨_, h⟩, _⟩ | ⟨b, rest, m', rfl, ⟨⟨rfl, -⟩, rfl⟩, hi⟩)
        · cases h
        · rw [he] at hi
          cases hi
          exact ⟨rfl, rfl⟩

end Advancing

namespace Grammar

open Rule
open Text (Radix Avoids isBlank isIdentifierStart)

variable {limit : Nat} {inner : Option (Advancing Expr)} {c d : Cursor} {e : Expr}

/-! ## Matches -/

theorem run_enter_eq_ok {offset : Nat} {i : Advancing Expr} :
    (enter limit offset inner).run c = .ok (i, d) ↔ inner = some i ∧ c = d := by
  cases inner with
  | none => simp [enter, fail]
  | some j => rw [enter, run_pure_eq_ok, Option.some.injEq]

/-- A group is an expression of the next level between parentheses. -/
theorem run_group_eq_ok : (group limit inner).run c = .ok (e, d) ↔
    ∃ i m m', inner = some i ∧ c.Takes '(' m ∧ i.run m = .ok (e, m') ∧ m'.Takes ')' d := by
  rw [group, run_cursor_bind]
  simp only [run_bind_eq_ok, run_token_eq_ok, run_enter_eq_ok, run_within_eq_ok, run_pure_eq_ok,
    List.mem_singleton]
  refine ⟨?_, ?_⟩
  · rintro ⟨_, m, ⟨rfl, h⟩, i, _, ⟨hi, rfl⟩, _, m', he, _, _, ⟨rfl, h'⟩, rfl, rfl⟩
    exact ⟨i, m, m', hi, h, he, h'⟩
  · rintro ⟨i, m, m', hi, h, he, h'⟩
    exact ⟨_, m, ⟨rfl, h⟩, i, m, ⟨hi, rfl⟩, e, m', he, _, d, ⟨rfl, h'⟩, rfl, rfl⟩

theorem run_numeral_eq_ok {digits : Rule Number} : (numeral digits).run c = .ok (e, d) ↔
    ∃ n m, e = .number n ∧ digits.run c = .ok (n, m) ∧ m.skipBlank = d := by
  rw [numeral]
  simp only [run_bind_eq_ok, run_lexeme_eq_ok, run_pure_eq_ok]
  refine ⟨?_, ?_⟩
  · rintro ⟨n, _, ⟨m, h, hm⟩, rfl, rfl⟩
    exact ⟨n, m, rfl, h, hm⟩
  · rintro ⟨n, m, rfl, h, hm⟩
    exact ⟨n, d, ⟨m, h, hm⟩, rfl, rfl⟩

/-- An argument is an expression, a comma after it asks for more. -/
theorem run_argument_eq_ok {callee : String} {i : Advancing Expr} {more : Bool} :
    (argument callee i).run c = .ok ((e, more), d) ↔
      ∃ m, i.run c = .ok (e, m) ∧ m.Takes (if more then ',' else ')') d := by
  simp only [argument, run_within_eq_ok, run_bind_eq_ok, run_token_eq_ok, run_pure_eq_ok,
    List.mem_cons, List.not_mem_nil, or_false, Prod.mk.injEq]
  refine ⟨?_, ?_⟩
  · rintro ⟨_, m, h, sep, _, ⟨hsep | hsep, ht⟩, ⟨rfl, rfl⟩, rfl⟩
    · subst hsep
      exact ⟨m, h, ht⟩
    · subst hsep
      exact ⟨m, h, ht⟩
  · rintro ⟨m, h, ht⟩
    cases more with
    | true => exact ⟨e, m, h, _, d, ⟨.inl rfl, ht⟩, ⟨rfl, rfl⟩, rfl⟩
    | false => exact ⟨e, m, h, _, d, ⟨.inr rfl, ht⟩, ⟨rfl, rfl⟩, rfl⟩

/-- The arguments of a call are none, or one at least. -/
theorem run_callArguments_eq_ok {callee : String} {i : Advancing Expr} {es : List Expr}
    (hc : c.Settled) : (callArguments callee i).run c = .ok (es, d) ↔
      es = [] ∧ c.Takes ')' d ∨
      c.peek? ≠ some ')' ∧ (argument callee i).iterate c = .ok (es, d) := by
  rw [callArguments, run_cursor_bind]
  split
  · next hp =>
    simp only [run_bind_eq_ok, run_token_eq_ok, run_pure_eq_ok, List.mem_singleton, hp]
    refine ⟨?_, ?_⟩
    · rintro ⟨_, _, ⟨rfl, h⟩, rfl, rfl⟩
      exact .inl ⟨rfl, h⟩
    · rintro (⟨rfl, h⟩ | ⟨h, -⟩)
      · exact ⟨_, d, ⟨rfl, h⟩, rfl, rfl⟩
      · exact absurd rfl h
  · next hp =>
    refine ⟨fun h => .inr ⟨hp, h⟩, ?_⟩
    rintro (⟨-, h⟩ | ⟨-, h⟩)
    · have := h.peek?
      rw [hc.skipBlank] at this
      exact absurd this hp
    · exact h

/-- A call is a name and arguments of the next level after a parenthesis. -/
theorem run_call_eq_ok : (call limit inner).run c = .ok (e, d) ↔
    ∃ name es i m m', e = .call name es ∧ (lexeme Token.identifier).run c = .ok (name, m) ∧
      inner = some i ∧ m.Takes '(' m' ∧ (callArguments name i).run m' = .ok (es, d) := by
  rw [call, run_bind_eq_ok]
  refine ⟨?_, ?_⟩
  · rintro ⟨name, m, h, h'⟩
    rw [run_cursor_bind] at h'
    split at h'
    · simp only [run_bind_eq_ok, run_enter_eq_ok, run_token_eq_ok, run_pure_eq_ok,
        List.mem_singleton] at h'
      obtain ⟨i, _, ⟨hi, rfl⟩, _, m', ⟨rfl, ht⟩, es, _, ha, rfl, rfl⟩ := h'
      exact ⟨name, es, i, m, m', rfl, h, hi, ht, ha⟩
    · cases h'
  · rintro ⟨name, es, i, m, m', rfl, h, hi, ht, ha⟩
    have hset : m.Settled := by
      obtain ⟨_, -, rfl⟩ := run_lexeme_eq_ok.1 h
      exact Cursor.settled_skipBlank _
    have hp : m.peek? = some '(' := by
      rw [← hset.skipBlank]
      exact ht.peek?
    refine ⟨name, m, h, ?_⟩
    rw [run_cursor_bind, if_pos hp]
    simp only [run_bind_eq_ok, run_enter_eq_ok, run_token_eq_ok, run_pure_eq_ok,
      List.mem_singleton]
    exact ⟨i, m, ⟨hi, rfl⟩, _, m', ⟨rfl, ht⟩, es, d, ha, rfl, rfl⟩

/-- A label is a run of markers or a name. -/
theorem run_reference_eq_ok : reference.run c = .ok (e, d) ↔
    (∃ l, e = .label l ∧ (lexeme Token.relativeLabel).run c = .ok (l, d)) ∨
    ∃ name, e = .label (.named name) ∧ (lexeme Token.identifier).run c = .ok (name, d) := by
  rw [reference, run_cursor_bind]
  split
  · next hp =>
    simp only [run_bind_eq_ok, run_pure_eq_ok]
    refine ⟨?_, ?_⟩
    · rintro ⟨l, _, h, rfl, rfl⟩
      exact .inl ⟨l, rfl, h⟩
    · rintro (⟨l, rfl, h⟩ | ⟨name, -, h⟩)
      · exact ⟨l, d, h, rfl, rfl⟩
      · obtain ⟨m, h, -⟩ := run_lexeme_eq_ok.1 h
        exact absurd hp (Token.not_marker_of_identifier h)
  · next hp =>
    simp only [run_bind_eq_ok, run_pure_eq_ok]
    refine ⟨?_, ?_⟩
    · rintro ⟨name, _, h, rfl, rfl⟩
      exact .inr ⟨name, rfl, h⟩
    · rintro (⟨l, -, h⟩ | ⟨name, rfl, h⟩)
      · obtain ⟨m, h, -⟩ := run_lexeme_eq_ok.1 h
        exact absurd (Token.marker_of_relativeLabel h) hp
      · exact ⟨name, d, h, rfl, rfl⟩

/-- After blanks an operand is one of the five forms. -/
theorem run_atom_eq (limit : Nat) (inner : Option (Advancing Expr)) (c : Cursor) :
    (atom limit inner).run c = (choice "expression"
      [group limit inner, numeral Token.decimal, numeral Token.hexadecimal, call limit inner,
        reference]).run c.skipBlank := rfl

/-! ## Chains -/

section
variable {operand : Advancing Expr} {operator? : Char → Option Operator} {left right : Expr}

/-- A chain is its first operand and what is read onto it. -/
theorem run_chain_of_ok (h : operand.run c = .ok (left, d)) :
    (chain operand operator?).run c = chainFrom operand operator? left d := by
  rw [chain, run_bind, h]

theorem run_chain_eq_ok : (chain operand operator?).run c = .ok (e, d) ↔
    ∃ left m, operand.run c = .ok (left, m) ∧ chainFrom operand operator? left m = .ok (e, d) :=
  run_bind_eq_ok

theorem chainFrom_of_none (h : c.peek?.bind operator? = none) :
    chainFrom operand operator? left c = .ok (left, c) := by
  rw [chainFrom]
  split
  · rfl
  · next h' =>
    rw [h] at h'
    cases h'

/-- An operator and an operand are read onto what is there. -/
theorem chainFrom_of_some {op : Operator} (h : c.peek?.bind operator? = some op)
    (k : operand.run (c.advance 1).skipBlank = .ok (right, d)) :
    chainFrom operand operator? left c =
      chainFrom operand operator? (.binary op left right) d := by
  rw [chainFrom]
  split
  · next h' =>
    rw [h] at h'
    cases h'
  · next h' =>
    rw [h] at h'
    cases h'
    split
    · next k' =>
      rw [k] at k'
      cases k'
      rfl
    · next k' =>
      rw [k] at k'
      cases k'

/-- An operator whose operand fails is left unread, unless the failure is fatal. -/
theorem chainFrom_of_error {op : Operator} {f : Failure} (h : c.peek?.bind operator? = some op)
    (k : operand.run (c.advance 1).skipBlank = .error f) :
    chainFrom operand operator? left c = if f.fatal then .error f else .ok (left, c) := by
  rw [chainFrom]
  split
  · next h' =>
    rw [h] at h'
    cases h'
  · split
    · next k' =>
      rw [k] at k'
      cases k'
    · next k' =>
      rw [k] at k'
      cases k'
      rfl

/-- What is read onto an operand may fail, but only fatally: else it is left unread. -/
theorem fatal_of_chainFrom_error {f : Failure}
    (h : chainFrom operand operator? left c = .error f) : f.fatal = true := by
  fun_induction chainFrom operand operator? left c with
  | case1 => cases h
  | case2 _ _ _ _ _ _ _ ih => exact ih h
  | case3 _ _ _ _ _ _ hf =>
    cases h
    exact hf
  | case4 => cases h

/-- A chain refuses exactly where its first operand does. -/
theorem refuses_chain_iff : (chain operand operator?).Refuses c ↔ operand.Refuses c := by
  refine ⟨?_, fun h => h.bind _⟩
  rintro ⟨f, hf, hn⟩
  rcases run_bind_eq_error.1 hf with hf | ⟨left, m, -, hf⟩
  · exact ⟨f, hf, hn⟩
  · rw [fatal_of_chainFrom_error hf] at hn
    cases hn

end

/-! ## Blanks before an expression -/

section
variable {levels : Nat}

theorem run_atom_skipBlank : (atom limit inner).run c.skipBlank = (atom limit inner).run c := by
  rw [run_atom_eq, run_atom_eq, c.settled_skipBlank.skipBlank]

theorem run_term_skipBlank : (term limit inner).run c.skipBlank = (term limit inner).run c := by
  rw [term, chain, run_bind, run_bind, run_atom_skipBlank]

/-- Blanks before an expression make no difference. -/
theorem run_expression_skipBlank :
    (expression limit levels).run c.skipBlank = (expression limit levels).run c := by
  rw [expression_eq_sum, sum, chain, run_bind, run_bind, run_term_skipBlank]

end

/-! ## Refusals -/

/-- The characters that an expression may begin with. -/
def opensExpression (ch : Char) : Bool :=
  ['(', '$', '+', '-'].contains ch || Radix.decimal.isDigit ch || isIdentifierStart ch

/-- No blank is among them. -/
theorem isBlank_of_opensExpression {ch : Char} (h : opensExpression ch = true) :
    isBlank ch = false := by
  refine Bool.eq_false_iff.2 fun hb => ?_
  rw [opensExpression, Text.isDigit_of_isBlank _ hb, Text.isIdentifierStart_of_isBlank hb] at h
  simp only [isBlank, Text.blanks, List.contains_cons, List.contains_nil, Bool.or_false,
    Bool.or_eq_true, beq_iff_eq] at hb
  rcases hb with rfl | rfl | rfl | rfl | rfl | rfl <;> cases h

theorem refuses_group (h : Avoids (['('].contains) c.skipBlank.rest) :
    (group limit inner).Refuses c := by
  rw [group]
  exact refuses_bind rfl ((refuses_token (fun _ _ => rfl) h).bind _)

theorem refuses_numeral {digits : Rule Number} (h : digits.Refuses c) :
    (numeral digits).Refuses c := (h.bind _).bind _

/-- No call begins without a name. -/
theorem refuses_call_of_avoids (h : Avoids isIdentifierStart c.rest) :
    (call limit inner).Refuses c := ((Token.refuses_identifier h).bind _).bind _

/-- A name without a parenthesis after it is no call. -/
theorem refuses_call_of_peek? {name : String} {m : Cursor}
    (h : (lexeme Token.identifier).run c = .ok (name, m)) (hp : m.peek? ≠ some '(') :
    (call limit inner).Refuses c := by
  refine refuses_bind h (refuses_bind rfl ?_)
  rw [if_neg hp]
  exact refuses_fail rfl _

theorem refuses_reference (h : Avoids (['+', '-'].contains) c.rest)
    (hs : Avoids isIdentifierStart c.rest) : reference.Refuses c := by
  refine refuses_bind rfl ?_
  have hp : ¬ (c.peek? = some '+' ∨ c.peek? = some '-') := by
    rintro (hp | hp) <;> exact absurd (h _ hp) (by decide)
  rw [if_neg hp]
  exact ((Token.refuses_identifier hs).bind _).bind _

/-! ## The form by its first character

An operand's form is decided by its first character, but for names, which begin calls and labels.
-/

section
variable {ch : Char} {x : Expr × Cursor}

theorem avoids_of_peek? {p : Char → Bool} (h : c.peek? = some ch) (hp : p ch = false) :
    Avoids p c.rest := by
  obtain ⟨rest, hc⟩ := Cursor.peek?_eq_some.1 h
  rw [hc]
  exact Text.avoids_cons.2 hp

/-- Only a parenthesis begins a group. -/
theorem refuses_group_of_peek? (hc : c.Settled) (h : c.peek? = some ch) (hne : ch ≠ '(') :
    (group limit inner).Refuses c := by
  refine refuses_group ?_
  rw [hc.skipBlank]
  exact avoids_of_peek? h (by simpa using hne)

/-- Only `$` begins a hexadecimal number. -/
theorem refuses_hexadecimal_of_peek? (h : c.peek? = some ch) (hne : ch ≠ '$') :
    (numeral Token.hexadecimal).Refuses c :=
  refuses_numeral (Token.refuses_hexadecimal (avoids_of_peek? h (by simpa using hne)))

theorem run_atom_of_group (hc : c.Settled) (h : (group limit inner).run c = .ok x) :
    (atom limit inner).run c = .ok x := by
  rw [run_atom_eq, hc.skipBlank, run_choice_cons_eq_ok]
  exact .inl h

theorem run_atom_of_decimal (hc : c.Settled) (hp : c.peek? = some ch)
    (hch : Radix.decimal.isDigit ch = true) (h : (numeral Token.decimal).run c = .ok x) :
    (atom limit inner).run c = .ok x := by
  have hne : ch ≠ '(' := by
    rintro rfl
    cases hch
  rw [run_atom_eq, hc.skipBlank, run_choice_cons_eq_ok, run_choice_cons_eq_ok]
  exact .inr ⟨refuses_group_of_peek? hc hp hne, .inl h⟩

theorem run_atom_of_hexadecimal (hc : c.Settled) (hp : c.peek? = some '$')
    (h : (numeral Token.hexadecimal).run c = .ok x) : (atom limit inner).run c = .ok x := by
  rw [run_atom_eq, hc.skipBlank, run_choice_cons_eq_ok, run_choice_cons_eq_ok,
    run_choice_cons_eq_ok]
  exact .inr ⟨refuses_group_of_peek? hc hp (by decide),
    .inr ⟨refuses_numeral (Token.refuses_decimal (avoids_of_peek? hp rfl)), .inl h⟩⟩

/-- A name is no group and no number. -/
theorem refuses_of_name (limit : Nat) (inner : Option (Advancing Expr)) (hc : c.Settled)
    (hp : c.peek? = some ch) (hch : isIdentifierStart ch = true) :
    (group limit inner).Refuses c ∧ (numeral Token.decimal).Refuses c ∧
      (numeral Token.hexadecimal).Refuses c := by
  have hne : ∀ {ch'}, isIdentifierStart ch' = false → ch ≠ ch' := by
    rintro ch' h' rfl
    rw [h'] at hch
    cases hch
  exact ⟨refuses_group_of_peek? hc hp (hne (by decide)),
    refuses_numeral (Token.refuses_decimal
      (avoids_of_peek? hp (Text.isDigit_of_isIdentifierStart hch))),
    refuses_hexadecimal_of_peek? hp (hne (by decide))⟩

/-- A name is a call or a label. -/
theorem run_atom_of_name (hc : c.Settled) (hp : c.peek? = some ch)
    (hch : isIdentifierStart ch = true)
    (h : (choice "expression" [call limit inner, reference]).run c = .ok x) :
    (atom limit inner).run c = .ok x := by
  obtain ⟨hgroup, hdecimal, hhexadecimal⟩ := refuses_of_name limit inner hc hp hch
  rw [run_atom_eq, hc.skipBlank]
  exact run_choice_tail hgroup (run_choice_tail hdecimal (run_choice_tail hhexadecimal h))

theorem run_atom_of_marker (hc : c.Settled) (hp : c.peek? = some '+' ∨ c.peek? = some '-')
    (h : reference.run c = .ok x) : (atom limit inner).run c = .ok x := by
  obtain ⟨ch, hp, hgroup, hdollar, hdigit, hstart⟩ : ∃ ch, c.peek? = some ch ∧ ch ≠ '(' ∧
      ch ≠ '$' ∧ Radix.decimal.isDigit ch = false ∧ isIdentifierStart ch = false := by
    rcases hp with hp | hp
    · exact ⟨'+', hp, by decide⟩
    · exact ⟨'-', hp, by decide⟩
  rw [run_atom_eq, hc.skipBlank, run_choice_cons_eq_ok, run_choice_cons_eq_ok,
    run_choice_cons_eq_ok, run_choice_cons_eq_ok, run_choice_cons_eq_ok]
  exact .inr ⟨refuses_group_of_peek? hc hp hgroup,
    .inr ⟨refuses_numeral (Token.refuses_decimal (avoids_of_peek? hp hdigit)),
    .inr ⟨refuses_hexadecimal_of_peek? hp hdollar,
    .inr ⟨refuses_call_of_avoids (avoids_of_peek? hp hstart), .inl h⟩⟩⟩⟩

end

/-! ## Refusals of expressions -/

/-- A text without an opening character is no operand, whatever its other characters. -/
theorem refuses_atom (h : Avoids opensExpression c.skipBlank.rest) :
    (atom limit inner).Refuses c := by
  have part : ∀ {p : Char → Bool}, (∀ ch, p ch = true → opensExpression ch = true) →
      Avoids p c.skipBlank.rest := by
    intro p hp ch hch
    refine Bool.eq_false_iff.2 fun hpc => ?_
    have := h ch hch
    rw [hp ch hpc] at this
    cases this
  have start : Avoids isIdentifierStart c.skipBlank.rest :=
    part fun ch hch => by simp [opensExpression, hch]
  refine refuses_bind rfl (refuses_choice ?_)
  simp only [List.mem_cons, List.not_mem_nil, or_false, forall_eq_or_imp, forall_eq]
  refine ⟨refuses_group ?_, refuses_numeral (Token.refuses_decimal ?_),
    refuses_numeral (Token.refuses_hexadecimal ?_), refuses_call_of_avoids start,
    refuses_reference ?_ start⟩
  · rw [c.settled_skipBlank.skipBlank]
    exact part fun ch hch => by simp_all [opensExpression]
  · exact part fun ch hch => by simp [opensExpression, hch]
  · exact part fun ch hch => by simp_all [opensExpression]
  · exact part fun ch hch => by
      simp only [List.contains_cons, List.contains_nil, Bool.or_false, Bool.or_eq_true,
        beq_iff_eq] at hch
      rcases hch with rfl | rfl <;> decide

/-- An expression refuses exactly where its first operand does. -/
theorem refuses_expression_iff {levels : Nat} :
    (expression limit levels).Refuses c ↔ (atom limit (inside limit levels)).Refuses c := by
  rw [expression_eq_sum, sum, refuses_chain_iff, term, refuses_chain_iff]

theorem refuses_expression {levels : Nat} (h : Avoids opensExpression c.skipBlank.rest) :
    (expression limit levels).Refuses c :=
  refuses_expression_iff.2 (refuses_atom h)

end Grammar

end Asm65816
