import Asm65816.Parse
import Asm65816.Proofs.Forms

/-!
# What operands and statements read

As for expressions, one lemma for each rule tells when it matches. The shapes of an operand share
their parts, an opened bracket (`opened`) and a comma with a register (`indexedBy`), so each shape
is told by its parts and the order they stand in.
-/

namespace Asm65816

namespace Grammar

open Rule
open Text (Blanks Avoids isBlank isIdentifier isIdentifierPart isIdentifierStart)

variable {limit : Nat} {c d : Cursor} {e : Expr} {o : Operand} {s : Statement}

/-! ## Parts -/

theorem endsWord_iff {c : Cursor} : c.endsWord = true ↔ Avoids isIdentifierPart c.rest := by
  rw [Cursor.endsWord, Cursor.peek?, Avoids]
  cases c.rest.head? <;> simp

/-- An opened bracket is followed by an expression of the next level. -/
theorem run_opened_eq_ok {bracket : Char} : (opened limit bracket).run c = .ok (e, d) ↔
    ∃ i m, inside limit limit = some i ∧ c.Takes bracket m ∧ i.run m = .ok (e, d) := by
  rw [opened, run_cursor_bind]
  simp only [run_bind_eq_ok, run_token_eq_ok, run_enter_eq_ok, run_within_eq_ok,
    List.mem_singleton]
  refine ⟨?_, ?_⟩
  · rintro ⟨_, m, ⟨rfl, h⟩, i, _, ⟨hi, rfl⟩, he⟩
    exact ⟨i, m, hi, h, he⟩
  · rintro ⟨i, m, hi, h, he⟩
    exact ⟨_, m, ⟨rfl, h⟩, i, m, ⟨hi, rfl⟩, he⟩

theorem run_needed_eq_ok {ch x : Char} :
    (needed ch).run c = .ok (x, d) ↔ x = ch ∧ c.Takes ch d := by
  rw [needed, run_token_eq_ok, List.mem_singleton]
  refine ⟨?_, ?_⟩
  · rintro ⟨rfl, h⟩
    exact ⟨rfl, h⟩
  · rintro ⟨rfl, h⟩
    exact ⟨rfl, h⟩

theorem run_enclosed_eq_ok {opening closing : Char} :
    (enclosed limit opening closing).run c = .ok (e, d) ↔
      ∃ m, (opened limit opening).run c = .ok (e, m) ∧ m.Takes closing d := by
  rw [enclosed]
  simp only [run_bind_eq_ok, run_needed_eq_ok, run_pure_eq_ok]
  refine ⟨?_, ?_⟩
  · rintro ⟨_, m, h, _, _, ⟨rfl, ht⟩, rfl, rfl⟩
    exact ⟨m, h, ht⟩
  · rintro ⟨m, h, ht⟩
    exact ⟨e, m, h, _, d, ⟨rfl, ht⟩, rfl, rfl⟩

/-- A register is its letter in either case, where the word ends. -/
theorem run_register_eq_ok {letter : Char} {u : Unit} : (register letter).run c = .ok (u, d) ↔
    ∃ ch, ch.toLower = letter ∧ c.Takes ch d ∧
      Avoids isIdentifierPart (c.skipBlank.advance 1).rest := by
  rw [register, run_skipBlank_bind, run_lexeme_eq_ok]
  simp only [registerLetter]
  refine ⟨?_, ?_⟩
  · rintro ⟨m, h, hm⟩
    split at h
    · next hc =>
      cases h
      obtain ⟨ch, hpk, hch⟩ := Option.map_eq_some_iff.1 hc.1
      obtain ⟨hd, b, hb, hr⟩ := Cursor.skipBlank_eq_iff.1 hm
      exact ⟨ch, hch, ⟨hd, b, hb, (Cursor.reads_advance_one hpk).append hr⟩, endsWord_iff.1 hc.2⟩
    · cases h
  · rintro ⟨ch, hch, ⟨hd, b, hb, hr⟩, ha⟩
    obtain ⟨hpk, hr⟩ := Cursor.reads_cons.1 hr
    refine ⟨c.skipBlank.advance 1, ?_, Cursor.skipBlank_eq_iff.2 ⟨hd, b, hb, hr⟩⟩
    rw [if_pos ⟨by rw [hpk, Option.map_some, hch], endsWord_iff.2 ha⟩]

theorem run_indexedBy_eq_ok {letter : Char} {u : Unit} : (indexedBy letter).run c = .ok (u, d) ↔
    ∃ m, c.Takes ',' m ∧ (register letter).run m = .ok (u, d) := by
  rw [indexedBy]
  simp only [run_bind_eq_ok, run_needed_eq_ok]
  refine ⟨?_, ?_⟩
  · rintro ⟨_, m, ⟨rfl, h⟩, hr⟩
    exact ⟨m, h, hr⟩
  · rintro ⟨m, h, hr⟩
    exact ⟨_, m, ⟨rfl, h⟩, hr⟩

theorem run_enclosedIndexed_eq_ok {letter : Char} :
    (enclosedIndexed limit letter).run c = .ok (e, d) ↔
      ∃ m m', (opened limit '(').run c = .ok (e, m) ∧ (indexedBy letter).run m = .ok ((), m') ∧
        m'.Takes ')' d := by
  rw [enclosedIndexed]
  simp only [run_bind_eq_ok, run_needed_eq_ok, run_pure_eq_ok]
  refine ⟨?_, ?_⟩
  · rintro ⟨_, m, h, _, m', hi, _, _, ⟨rfl, ht⟩, rfl, rfl⟩
    exact ⟨m, m', h, hi, ht⟩
  · rintro ⟨m, m', h, hi, ht⟩
    exact ⟨e, m, h, _, m', hi, _, d, ⟨rfl, ht⟩, rfl, rfl⟩

/-! ## Shapes -/

/-- A shape that is one part and nothing after it. -/
theorem run_shape_eq_ok {r : Rule Expr} {shape : Shape} :
    (do let e ← r; pure (Operand.valued shape e)).run c = .ok (o, d) ↔
      ∃ e, o = .valued shape e ∧ r.run c = .ok (e, d) := by
  simp only [run_bind_eq_ok, run_pure_eq_ok]
  refine ⟨?_, ?_⟩
  · rintro ⟨e, _, h, rfl, rfl⟩
    exact ⟨e, rfl, h⟩
  · rintro ⟨e, rfl, h⟩
    exact ⟨e, d, h, rfl, rfl⟩

/-- A shape that is one part with `,y` after it. -/
theorem run_shape_indexed_eq_ok {r : Rule Expr} {shape : Shape} :
    (do let e ← r; indexedBy 'y'; pure (Operand.valued shape e)).run c = .ok (o, d) ↔
      ∃ e m, o = .valued shape e ∧ r.run c = .ok (e, m) ∧
        (indexedBy 'y').run m = .ok ((), d) := by
  simp only [run_bind_eq_ok, run_pure_eq_ok]
  refine ⟨?_, ?_⟩
  · rintro ⟨e, m, h, _, _, hi, rfl, rfl⟩
    exact ⟨e, m, rfl, h, hi⟩
  · rintro ⟨e, m, rfl, h, hi⟩
    exact ⟨e, m, h, _, d, hi, rfl, rfl⟩

theorem run_indirect_eq_ok : (indirect limit).run c = .ok (o, d) ↔
    ∃ e, o = .valued .indirect e ∧ (enclosed limit '(' ')').run c = .ok (e, d) ∧
      Avoids isOperator d.rest := by
  rw [indirect, run_bind_eq_ok]
  refine ⟨?_, ?_⟩
  · rintro ⟨e, m, h, h'⟩
    rw [run_cursor_bind] at h'
    split at h'
    · cases h'
    · next hp =>
      obtain ⟨rfl, rfl⟩ := run_pure_eq_ok.1 h'
      refine ⟨e, rfl, h, fun ch hch => Bool.eq_false_iff.2 fun hop => hp ?_⟩
      rw [Cursor.peek?, hch]
      exact hop
  · rintro ⟨e, rfl, h, ha⟩
    refine ⟨e, d, h, ?_⟩
    rw [run_cursor_bind, if_neg, run_pure_eq_ok]
    · exact ⟨rfl, rfl⟩
    · rw [Option.any_eq_true]
      rintro ⟨ch, hch, hop⟩
      rw [ha ch hch] at hop
      cases hop

theorem run_move_eq_ok : (move limit).run c = .ok (o, d) ↔
    ∃ e f m m', o = .valued (.move f) e ∧ (value limit).run c = .ok (e, m) ∧ m.Takes ',' m' ∧
      (value limit).run m' = .ok (f, d) := by
  rw [move]
  simp only [run_bind_eq_ok, run_needed_eq_ok, run_within_eq_ok, run_pure_eq_ok]
  refine ⟨?_, ?_⟩
  · rintro ⟨e, m, h, _, m', ⟨rfl, ht⟩, f, _, h', rfl, rfl⟩
    exact ⟨e, f, m, m', rfl, h, ht, h'⟩
  · rintro ⟨e, f, m, m', rfl, h, ht, h'⟩
    exact ⟨e, m, h, _, m', ⟨rfl, ht⟩, f, d, h', rfl, rfl⟩

theorem run_immediate_eq_ok : (immediate limit).run c = .ok (o, d) ↔
    ∃ e m, o = .valued .immediate e ∧ c.Takes '#' m ∧ (value limit).run m = .ok (e, d) := by
  rw [immediate]
  simp only [run_bind_eq_ok, run_token_eq_ok, run_within_eq_ok, run_pure_eq_ok,
    List.mem_singleton]
  refine ⟨?_, ?_⟩
  · rintro ⟨_, m, ⟨rfl, ht⟩, e, _, h, rfl, rfl⟩
    exact ⟨e, m, rfl, ht, h⟩
  · rintro ⟨e, m, rfl, ht, h⟩
    exact ⟨_, m, ⟨rfl, ht⟩, e, d, h, rfl, rfl⟩

theorem run_implied_eq_ok : implied.run c = .ok (o, d) ↔
    o = .implied ∧ c.endsStatement = true ∧ c.skipBlank = d := by
  rw [implied, run_cursor_bind]
  split
  · next h =>
    rw [run_skipBlank_bind, run_pure_eq_ok]
    refine ⟨?_, ?_⟩
    · rintro ⟨rfl, rfl⟩
      exact ⟨rfl, h, rfl⟩
    · rintro ⟨rfl, -, rfl⟩
      exact ⟨rfl, rfl⟩
  · next h =>
    refine ⟨nofun, ?_⟩
    rintro ⟨-, h', -⟩
    exact absurd h' h

/-! ## Statements -/

/-- The text is the keyword `org`, in either case. -/
def IsOrg (cs : List Char) : Prop := cs.map Char.toLower = ['o', 'r', 'g']

instance (cs : List Char) : Decidable (IsOrg cs) := inferInstanceAs (Decidable (_ = _))

theorem run_keyword_eq_ok : (keyword limit).run c = .ok (s, d) ↔
    ∃ name e m, s = .org e ∧ Token.identifier.run c = .ok (name, m) ∧ IsOrg name.toList ∧
      (value limit).run m = .ok (e, d) := by
  rw [keyword, run_cursor_bind, run_bind_eq_ok]
  refine ⟨?_, ?_⟩
  · rintro ⟨name, m, h, h'⟩
    split at h'
    · next hn =>
      simp only [run_bind_eq_ok, run_within_eq_ok, run_pure_eq_ok] at h'
      obtain ⟨e, _, h', rfl, rfl⟩ := h'
      exact ⟨name, e, m, rfl, h, hn, h'⟩
    · cases h'
  · rintro ⟨name, e, m, rfl, h, hn, h'⟩
    refine ⟨name, m, h, ?_⟩
    rw [if_pos (show name.toList.map Char.toLower = _ from hn)]
    simp only [run_bind_eq_ok, run_within_eq_ok, run_pure_eq_ok]
    exact ⟨e, d, h', rfl, rfl⟩

/-- A declaration is a run of markers alone in its statement, or a name and its colon. -/
theorem run_labelDeclaration_eq_ok : labelDeclaration.run c = .ok (s, d) ↔
    (∃ l m, s = .label l ∧ Token.relativeLabel.run c = .ok (l, m) ∧ m.endsStatement = true ∧
      m.skipBlank = d) ∨
    ∃ name m m', s = .label (.named name) ∧ Token.identifier.run c = .ok (name, m) ∧
      m.Reads [':'] m' ∧ m'.skipBlank = d := by
  rw [labelDeclaration, run_cursor_bind]
  split
  · next hp =>
    rw [run_bind_eq_ok]
    refine ⟨?_, ?_⟩
    · rintro ⟨l, m, h, h'⟩
      rw [run_cursor_bind] at h'
      split at h'
      · next hend =>
        rw [run_skipBlank_bind, run_pure_eq_ok] at h'
        exact .inl ⟨l, m, h'.1.symm, h, hend, h'.2⟩
      · cases h'
    · rintro (⟨l, m, rfl, h, hend, rfl⟩ | ⟨name, m, m', -, h, -, -⟩)
      · refine ⟨l, m, h, ?_⟩
        rw [run_cursor_bind, if_pos hend]
        rfl
      · exact absurd hp (Token.not_marker_of_identifier h)
  · next hp =>
    simp only [run_bind_eq_ok, run_lexeme_eq_ok, run_char_eq_ok, run_pure_eq_ok,
      List.mem_singleton]
    refine ⟨?_, ?_⟩
    · rintro ⟨name, m, h, _, _, ⟨m', ⟨rfl, hr⟩, hm'⟩, rfl, rfl⟩
      exact .inr ⟨name, m, m', rfl, h, hr, hm'⟩
    · rintro (⟨l, m, -, h, -, -⟩ | ⟨name, m, m', rfl, h, hr, hm'⟩)
      · exact absurd (Token.marker_of_relativeLabel h) hp
      · exact ⟨name, m, h, _, d, ⟨m', ⟨rfl, hr⟩, hm'⟩, rfl, rfl⟩

theorem run_assignment_eq_ok : (assignmentStatement limit).run c = .ok (s, d) ↔
    ∃ name e m m', s = .assignment name e ∧ Token.identifier.run c = .ok (name, m) ∧
      m.Takes '=' m' ∧ (value limit).run m' = .ok (e, d) := by
  rw [assignmentStatement, assignment]
  simp only [run_bind_eq_ok, run_token_eq_ok, run_within_eq_ok, run_pure_eq_ok,
    List.mem_singleton]
  refine ⟨?_, ?_⟩
  · rintro ⟨_, _, ⟨name, m, h, _, m', ⟨rfl, ht⟩, e, _, h', rfl, rfl⟩, rfl, rfl⟩
    exact ⟨name, e, m, m', rfl, h, ht, h'⟩
  · rintro ⟨name, e, m, m', rfl, h, ht, h'⟩
    exact ⟨(name, e), d, ⟨name, m, h, _, m', ⟨rfl, ht⟩, e, d, h', rfl, rfl⟩, rfl, rfl⟩

theorem ofLetter?_eq_some {ch : Char} {size : Size} :
    Size.ofLetter? ch = some size ↔ ch.toLower = size.letter := by
  rw [Size.ofLetter?]
  split
  · next h => rw [h]; cases size <;> decide
  · next h => rw [h]; cases size <;> decide
  · next h => rw [h]; cases size <;> decide
  · next hb hw hl =>
    refine ⟨nofun, fun h => ?_⟩
    cases size with
    | byte => exact absurd h hb
    | word => exact absurd h hw
    | long => exact absurd h hl

/-- A size suffix is a dot and a letter where the word ends; without a dot nothing is read. -/
theorem run_sizeSuffix_eq_ok {size : Option Size} : sizeSuffix.run c = .ok (size, d) ↔
    (size = none ∧ c = d ∧ c.skipBlank.peek? ≠ some '.') ∨
    ∃ z m ch, size = some z ∧ c.Takes '.' m ∧ m.Reads [ch] d ∧ ch.toLower = z.letter ∧
      Avoids isIdentifierPart d.rest := by
  rw [sizeSuffix, run_cursor_bind]
  split
  · next hp =>
    simp only [run_bind_eq_ok, run_token_eq_ok, run_pure_eq_ok, List.mem_singleton]
    refine ⟨?_, ?_⟩
    · rintro ⟨_, m, ⟨rfl, ht⟩, z, _, h, rfl, rfl⟩
      simp only [sizeLetter] at h
      split at h
      · next size hz =>
        split at h
        · next hend =>
          cases h
          obtain ⟨ch, hpk, hch⟩ := Option.bind_eq_some_iff.1 hz
          exact .inr ⟨_, m, ch, rfl, ht, Cursor.reads_advance_one hpk,
            ofLetter?_eq_some.1 hch, endsWord_iff.1 hend⟩
        · cases h
      · cases h
    · rintro (⟨-, -, h⟩ | ⟨z, m, ch, rfl, ht, hr, hch, ha⟩)
      · exact absurd hp h
      · refine ⟨_, m, ⟨rfl, ht⟩, z, d, ?_, rfl, rfl⟩
        obtain ⟨hpk, hr⟩ := Cursor.reads_cons.1 hr
        obtain rfl := Cursor.reads_nil_iff.1 hr
        simp only [sizeLetter, hpk, Option.bind_some, ofLetter?_eq_some.2 hch,
          endsWord_iff.2 ha, if_true]
  · next hp =>
    rw [run_pure_eq_ok]
    refine ⟨?_, ?_⟩
    · rintro ⟨rfl, rfl⟩
      exact .inl ⟨rfl, rfl, hp⟩
    · rintro (⟨rfl, rfl, -⟩ | ⟨z, m, ch, -, ht, -⟩)
      · exact ⟨rfl, rfl⟩
      · exact absurd ht.peek? hp

theorem run_instruction_eq_ok : (instruction limit).run c = .ok (s, d) ↔
    ∃ mnemonic size o m m', s = .instruction ⟨mnemonic, size, o⟩ ∧
      Token.identifier.run c = .ok (mnemonic, m) ∧ sizeSuffix.run m = .ok (size, m') ∧
      (operand limit).run m' = .ok (o, d) := by
  rw [instruction]
  simp only [run_bind_eq_ok, run_pure_eq_ok]
  refine ⟨?_, ?_⟩
  · rintro ⟨mnemonic, m, h, size, m', h', o, _, h'', rfl, rfl⟩
    exact ⟨mnemonic, size, o, m, m', rfl, h, h', h''⟩
  · rintro ⟨mnemonic, size, o, m, m', rfl, h, h', h''⟩
    exact ⟨mnemonic, m, h, size, m', h', o, d, h'', rfl, rfl⟩

end Grammar

/-! ## Whole texts -/

/-- A text is read from its first character on that is no blank. -/
theorem Rule.parse_eq_ok {α : Type} {r : Rule α} {text rest : String} {a : α} :
    Rule.parse (do skipBlank; r) text = .ok (a, rest) ↔
      ∃ d, r.run (Cursor.ofText text.toList 0).skipBlank = .ok (a, d) ∧
        String.ofList d.rest = rest := by
  rw [Rule.parse, run_skipBlank_bind]
  split
  · next a' d hd =>
    rw [hd]
    simp only [Except.ok.injEq, Prod.mk.injEq]
    refine ⟨?_, ?_⟩
    · rintro ⟨rfl, rfl⟩
      exact ⟨d, ⟨rfl, rfl⟩, rfl⟩
    · rintro ⟨_, ⟨rfl, rfl⟩, rfl⟩
      exact ⟨rfl, rfl⟩
  · next f hf =>
    rw [hf]
    simp

theorem Rule.parse_error_iff {α : Type} {r : Rule α} {text : String} {d : Diagnostic} :
    Rule.parse (do skipBlank; r) text = .error d ↔
      ∃ f, r.run (Cursor.ofText text.toList 0).skipBlank = .error f ∧
        d = .ofFailure text.toList f := by
  rw [Rule.parse, run_skipBlank_bind]
  split
  · next hd =>
    rw [hd]
    simp only [reduceCtorEq, false_and, exists_false]
  · next f hf =>
    rw [hf]
    simp only [Except.error.injEq, exists_eq_left', eq_comm]

end Asm65816
