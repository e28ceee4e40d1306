import Asm65816.Proofs.LockstepGrammar

/-!
# Reading does not depend on what came before

A rule that is run at a position of a text gives what it gives at the start of the text from there
on: the same value, with the same text left, or the same failure. Only positions differ, by the
position that the rule was run at, in every failure of a tree of failures (`Rule.Relocatable`).

No rule is opened for it. A text and the same text further on are a lockstep in which failures
belong together when one is the other, moved (`Lockstep.further`), and the grammar keeps in step
with itself.
-/

namespace Asm65816

/-- The outcomes of a rule at the start of a text without its first `pos` characters, and at that
position of the text. -/
inductive Relocated (text : List Char) (pos : Nat) {α : Type} :
    Except Failure (α × Cursor) → Except Failure (α × Cursor) → Prop
  | ok (a : α) (d : Cursor) : Relocated text pos (.ok (a, d)) (.ok (a, ⟨d.pos + pos, d.rest⟩))
  | error {f : Failure} : (f.shift pos).remainders text = f.remainders (text.drop pos) →
      Relocated text pos (.error f) (.error (f.shift pos))

/-- The rule does not depend on what came before the position it is run at. -/
def Rule.Relocatable {α : Type} (r : Rule α) : Prop :=
  ∀ (text : List Char) (pos : Nat),
    Relocated text pos (r.run (.ofText (text.drop pos) 0)) (r.run (.ofText text pos))

/-- A rule that keeps in step with itself is relocatable. -/
theorem Rule.Relocatable.of_similar {α : Type} {r : Rule α}
    (h : ∀ k, (Lockstep.further k).Similar r r) : r.Relocatable := by
  intro text pos
  have hstart : (Alignment.further pos).Near (.ofText (text.drop pos) 0) (.ofText text pos) :=
    Alignment.near_further_iff.2 ⟨(Nat.zero_add pos).symm, rfl⟩
  have hrun := h pos hstart
  generalize r.run (.ofText (text.drop pos) 0) = x, r.run (.ofText text pos) = x' at hrun
  cases hrun with
  | @ok a d d' hd =>
    obtain ⟨hpos, hrest⟩ := Alignment.near_further_iff.1 hd
    obtain ⟨pos', rest'⟩ := d'
    obtain rfl : pos' = d.pos + pos := hpos
    obtain rfl : rest' = d.rest := hrest
    exact .ok a d
  | error hf =>
    obtain ⟨rfl, hin⟩ := hf
    exact .error (hin.remainders_shift text pos)
  | excused hf => exact hf.elim

/-- A failure at the start of a text is the same one, moved, where the text stands further on. -/
theorem Rule.run_error_of_similar {α : Type} {r : Rule α}
    (h : ∀ k, (Lockstep.further k).Similar r r) {text : List Char} {f : Failure}
    (hrun : r.run (.ofText text 0) = .error f) (n : Nat) :
    r.run ⟨n, text⟩ = .error (f.shift n) := by
  have hnear : (Alignment.further n).Near (.ofText text 0) ⟨n, text⟩ :=
    Alignment.near_further_iff.2 ⟨(Nat.zero_add n).symm, rfl⟩
  have hagree := h n hnear
  rw [hrun] at hagree
  rcases hagree.of_error with hf | ⟨f', hrun', hf⟩
  · exact hf.elim
  · rw [hrun', hf.1]

open Lockstep Grammar

/-- Expressions at any depth and their forms, statements of each kind, operands of each shape and
tokens are read at a position as they are at the start of the text from there on. -/
theorem Grammar.relocatable (limit levels : Nat) :
    -- Expressions, from the tiers to the forms of an operand.
    ((expression limit levels).Relocatable ∧
      (term limit (inside limit levels)).Relocatable ∧
      (atom limit (inside limit levels)).Relocatable ∧
      (group limit (inside limit levels)).Relocatable ∧
      (call limit (inside limit levels)).Relocatable ∧
      (numeral Token.decimal).Relocatable ∧
      (numeral Token.hexadecimal).Relocatable ∧
      reference.Relocatable) ∧
    -- Statements.
    ((statement limit).Relocatable ∧
      (keyword limit).Relocatable ∧
      labelDeclaration.Relocatable ∧
      (assignmentStatement limit).Relocatable ∧
      (instruction limit).Relocatable ∧
      sizeSuffix.Relocatable) ∧
    -- Operands, their shapes and the parts of these.
    ((operand limit).Relocatable ∧
      (indirectY limit).Relocatable ∧
      (indirect limit).Relocatable ∧
      (xIndirect limit).Relocatable ∧
      (move limit).Relocatable ∧
      (address limit).Relocatable ∧
      (immediate limit).Relocatable ∧
      (longIndirectY limit).Relocatable ∧
      (longIndirect limit).Relocatable ∧
      (stackIndirectY limit).Relocatable ∧
      implied.Relocatable ∧
      ((expression limit levels).within (.expected "expression") false).Relocatable ∧
      (∀ opening closing, (enclosed limit opening closing).Relocatable) ∧
      (∀ letter, (indexedBy letter).Relocatable) ∧
      (∀ letter, (register letter).Relocatable)) ∧
    -- Tokens and characters.
    (Token.identifier.Relocatable ∧
      Token.decimal.Relocatable ∧
      Token.hexadecimal.Relocatable ∧
      Token.relativeLabel.Relocatable ∧
      Rule.skipBlank.Relocatable ∧
      (∀ accepted what, (Rule.char accepted what Failure.lexical).Relocatable ∧
        (Rule.char accepted what Failure.mismatch).Relocatable) ∧
      (∀ accepted what, (Rule.token accepted what Failure.lexical).Relocatable ∧
        (Rule.token accepted what Failure.mismatch).Relocatable)) ∧
    -- What is seen from a cursor.
    ∀ (text : List Char) (pos : Nat),
      (Cursor.ofText text pos).peek? = (Cursor.ofText (text.drop pos) 0).peek? ∧
      (Cursor.ofText text pos).endsWord = (Cursor.ofText (text.drop pos) 0).endsWord ∧
      (Cursor.ofText text pos).endsStatement =
        (Cursor.ofText (text.drop pos) 0).endsStatement ∧
      ∀ p, ((Cursor.ofText text pos).skipWhile p).pos =
        ((Cursor.ofText (text.drop pos) 0).skipWhile p).pos + pos := by
  have inner (k : Nat) := inside_of_deeper (Deeper.refl (Lockstep.further k) limit levels)
  have whole (k : Nat) := Deeper.refl (Lockstep.further k) limit limit
  refine ⟨⟨?_, ?_, ?_, ?_, ?_, ?_, ?_, ?_⟩, ⟨?_, ?_, ?_, ?_, ?_, ?_⟩,
    ⟨?_, ?_, ?_, ?_, ?_, ?_, ?_, ?_, ?_, ?_, ?_, ?_, ?_, ?_, ?_⟩, ⟨?_, ?_, ?_, ?_, ?_, ?_, ?_⟩, ?_⟩
  · exact .of_similar fun k => similar_expression (.refl ..)
  · exact .of_similar fun k => similar_term (inner k)
  · exact .of_similar fun k => similar_atom (inner k)
  · exact .of_similar fun k => similar_group (inner k)
  · exact .of_similar fun k => similar_call (inner k)
  · exact .of_similar fun k => similar_numeral tight_decimal
  · exact .of_similar fun k => similar_numeral tight_hexadecimal
  · exact .of_similar fun k => similar_reference
  · exact .of_similar fun k => similar_statement (whole k)
  · exact .of_similar fun k => similar_keyword (whole k)
  · exact .of_similar fun k => similar_labelDeclaration
  · exact .of_similar fun k => similar_assignmentStatement (whole k)
  · exact .of_similar fun k => similar_instruction (whole k)
  · exact .of_similar fun k => similar_sizeSuffix
  · exact .of_similar fun k => similar_operand (whole k)
  · exact .of_similar fun k => similar_indirectY (whole k)
  · exact .of_similar fun k => similar_indirect (whole k)
  · exact .of_similar fun k => similar_xIndirect (whole k)
  · exact .of_similar fun k => similar_move (whole k)
  · exact .of_similar fun k => similar_address (whole k)
  · exact .of_similar fun k => similar_immediate (whole k)
  · exact .of_similar fun k => similar_longIndirectY (whole k)
  · exact .of_similar fun k => similar_longIndirect (whole k)
  · exact .of_similar fun k => similar_stackIndirectY (whole k)
  · exact .of_similar fun k => similar_implied
  · exact .of_similar fun k => (similar_expression (.refl ..)).within _ _
  · exact fun _ _ => .of_similar fun k =>
      similar_enclosed (whole k) (Alignment.ends_further k _) (Alignment.ends_further k _)
  · exact fun _ => .of_similar fun k => similar_indexedBy (Alignment.ends_further k _)
  · exact fun _ => .of_similar fun k => similar_register (Alignment.ends_further k _)
  · exact .of_similar fun k => tight_identifier.similar
  · exact .of_similar fun k => tight_decimal.similar
  · exact .of_similar fun k => tight_hexadecimal.similar
  · exact .of_similar fun k => tight_relativeLabel.similar
  · exact .of_similar fun k => similar_skipBlank
  · exact fun _ _ =>
      ⟨.of_similar fun k => (tight_char (Alignment.ends_further k _) (reports_lexical _)).similar,
        .of_similar fun k => (tight_char (Alignment.ends_further k _) (reports_mismatch _)).similar⟩
  · exact fun _ _ =>
      ⟨.of_similar fun k => similar_token (Alignment.ends_further k _) (reports_lexical _),
        .of_similar fun k => similar_token (Alignment.ends_further k _) (reports_mismatch _)⟩
  · intro text pos
    refine ⟨rfl, rfl, rfl, fun p => ?_⟩
    simp only [Cursor.ofText, Cursor.skipWhile, List.drop_zero]
    omega

end Asm65816
