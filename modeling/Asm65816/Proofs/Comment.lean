import Asm65816.Proofs.LockstepGrammar
import Asm65816.Proofs.Shapes

/-!
# Comments are invisible to statements

A line loses its comment before its statements are read, and the grammar knows of comments as well:
some rules look for a semicolon where a statement may end. The two agree. A statement is read from a
text with a comment after it as it is from the text alone, up to the same place, and where it fails
both failures have the same shape (`Failure.SameShape`). Only their words may differ, since what is
missing is told together with what stands there instead.

A text and the same text with a comment are a lockstep in which failures belong together when they
have the same shape (`Lockstep.commented`).
-/

namespace Asm65816

/-! ## Failures of the same shape -/

/-- The failures are of one kind, at one place and fatal together, and so are those of their
alternatives, one by one. -/
inductive Failure.SameShape : Failure → Failure → Prop
  | leaf {cause cause' : Cause} {offset : Int} {hint hint' : Option String} :
      cause'.kind = cause.kind → cause'.fatal = cause.fatal →
      SameShape (.leaf cause offset hint) (.leaf cause' offset hint')
  | exhausted {reason : Reason} {offset : Int} {hint hint' : Option String}
      {fs fs' : List Failure} : List.Forall₂ SameShape fs fs' →
      SameShape (.exhausted reason offset hint fs) (.exhausted reason offset hint' fs')

namespace Failure.SameShape

variable {f f' : Failure}

theorem fatal_eq (h : f.SameShape f') : f'.fatal = f.fatal := by
  cases h with
  | leaf _ hfatal => exact hfatal
  | exhausted _ => rfl

theorem offset_eq (h : f.SameShape f') : f'.offset = f.offset := by
  cases h with
  | leaf _ _ => rfl
  | exhausted _ => rfl

end Failure.SameShape

/-! ## A text with a comment -/

/-- The second text goes on with a comment where the first ends. -/
def Alignment.commented (comment : List Char) : Alignment where
  shift := 0
  gap := []
  rest := ';' :: comment
  blanks_gap := Text.blanks_nil
  beginsIn_rest := Text.beginsIn_cons (by simp)
  avoids_colon := fun _ => Text.avoids_cons.2 rfl

/-- No blanks stand before the comment, so both readings are at the same place throughout. -/
theorem Alignment.near_commented_iff {comment : List Char} {c c' : Cursor} :
    (commented comment).Near c c' ↔ c'.pos = c.pos ∧ c'.rest = c.rest ++ ';' :: comment := by
  constructor
  · rintro (⟨hpos, hrest⟩ | ⟨hnil, hpos, hrest⟩)
    · exact ⟨hpos, hrest⟩
    · exact ⟨hpos, by rw [hrest, hnil]; rfl⟩
  · intro h
    exact .inl h

/-- A text and the same text with a comment after it. Nothing is excused. -/
def Lockstep.commented (comment : List Char) : Lockstep where
  toAlignment := .commented comment
  failure := Failure.SameShape
  excused := (Lockstep.sameKind (.commented comment)).excused
  fatal_of_excused := (Lockstep.sameKind (.commented comment)).fatal_of_excused
  fatal_eq h := h.fatal_eq
  leaf hint hc hkind hfatal _ := by
    rw [(Alignment.near_commented_iff.1 hc).1]
    exact .leaf hkind hfatal
  within reason committed h := by
    rw [h.offset_eq]
    exact .leaf rfl rfl
  alternatives reason hc hfs := by
    rw [(Alignment.near_commented_iff.1 hc).1]
    exact .exhausted hfs

/-- The outcomes of a rule on a text and on the text with a comment after it: the same value and the
same end, or failures of the same shape. -/
inductive Commented (comment : List Char) {α : Type} :
    Except Failure (α × Cursor) → Except Failure (α × Cursor) → Prop
  | ok (a : α) (d : Cursor) :
      Commented comment (.ok (a, d)) (.ok (a, ⟨d.pos, d.rest ++ ';' :: comment⟩))
  | error {f f' : Failure} : f.SameShape f' → Commented comment (.error f) (.error f')

open Lockstep

/-- A rule that keeps in step with itself does not see a comment. -/
theorem Rule.commented_of_similar {α : Type} {r : Rule α} {comment : List Char}
    (h : (Lockstep.commented comment).Similar r r) {code : List Char} {pos : Nat}
    (hpos : pos ≤ code.length) :
    Commented comment (r.run (.ofText code pos))
      (r.run (.ofText (code ++ ';' :: comment) pos)) := by
  have hstart : (Alignment.commented comment).Near (.ofText code pos)
      (.ofText (code ++ ';' :: comment) pos) :=
    Alignment.near_commented_iff.2 ⟨rfl, List.drop_append_of_le_length hpos⟩
  have hrun := h hstart
  generalize r.run (.ofText code pos) = x,
    r.run (.ofText (code ++ ';' :: comment) pos) = x' at hrun
  cases hrun with
  | @ok a d d' hd =>
    obtain ⟨hpos', hrest'⟩ := Alignment.near_commented_iff.1 hd
    obtain ⟨pos', rest'⟩ := d'
    obtain rfl : pos' = d.pos := hpos'
    obtain rfl : rest' = d.rest ++ ';' :: comment := hrest'
    exact .ok a d
  | error hf => exact .error hf
  | excused hf => exact False.elim hf

/-! ## Lines -/

namespace Line

/-- What a line has after its code. -/
def comment (line : List Char) : List Char := line.dropWhile (· ≠ ';')

theorem code_append_comment (line : List Char) : code line ++ comment line = line :=
  List.takeWhile_append_dropWhile

/-- A comment begins with the first semicolon. -/
theorem comment_cases (line : List Char) :
    comment line = [] ∨ ∃ text, comment line = ';' :: text := by
  cases hcomment : comment line with
  | nil => exact .inl rfl
  | cons ch text =>
    have hhead := List.head?_dropWhile_not (· ≠ ';') line
    rw [show line.dropWhile (· ≠ ';') = ch :: text from hcomment] at hhead
    obtain rfl : ch = ';' := by simpa using hhead
    exact .inr ⟨text, rfl⟩

end Line

/-- A rule that keeps in step with itself reads from a line what it reads from the code of the line,
and leaves the comment in addition. -/
theorem Rule.parse_line_eq_ok_iff {α : Type} {r : Rule α}
    (h : ∀ comment, (Lockstep.commented comment).Similar r r) {line : List Char} {a : α}
    {rest : String} :
    r.parse (String.ofList line) = .ok (a, rest) ↔
      ∃ left, r.parse (String.ofList (Line.code line)) = .ok (a, left) ∧
        rest = left ++ String.ofList (Line.comment line) := by
  have hline := Line.code_append_comment line
  generalize Line.code line = code at hline
  rcases Line.comment_cases line with hnil | ⟨text, htext⟩
  · rw [hnil, List.append_nil] at hline
    rw [hnil, hline]
    simp
  · rw [htext] at hline ⊢
    have hrun := Rule.commented_of_similar (h text) (Nat.zero_le code.length)
    rw [hline] at hrun
    unfold Rule.parse
    rw [String.toList_ofList, String.toList_ofList]
    generalize r.run (.ofText code 0) = x, r.run (.ofText line 0) = x' at hrun
    cases hrun with
    | ok b d =>
      simp only [Except.ok.injEq, Prod.mk.injEq, String.ofList_append]
      constructor
      · rintro ⟨rfl, rfl⟩
        exact ⟨_, ⟨rfl, rfl⟩, rfl⟩
      · rintro ⟨_, ⟨rfl, rfl⟩, rfl⟩
        exact ⟨rfl, rfl⟩
    | error hf => simp

/-- A comment is invisible to statements. From any place of a text on, a statement is read from the
text with a comment after it as it is from the text alone, with the same end, or both fail with
failures of the same shape. So it makes no difference to a statement whether the comment of a line
is taken off before: the same statement is read, and the comment is left in addition. -/
theorem Grammar.commented_statement :
    (∀ (limit : Nat) (code comment : List Char) (pos : Nat), pos ≤ code.length →
      Commented comment ((statement limit).run (.ofText code pos))
        ((statement limit).run (.ofText (code ++ ';' :: comment) pos))) ∧
    ∀ (depth : Depth) (line : List Char) (s : Statement) (rest : String),
      Statement.parse depth (String.ofList line) = .ok (s, rest) ↔
        ∃ left, Statement.parse depth (String.ofList (Line.code line)) = .ok (s, left) ∧
          rest = left ++ String.ofList (Line.comment line) := by
  refine ⟨fun limit code comment pos hpos => ?_, fun depth line s rest => ?_⟩
  · exact Rule.commented_of_similar (similar_statement (.refl ..)) hpos
  · refine Rule.parse_line_eq_ok_iff fun comment => ?_
    exact similar_skipBlank.bind fun _ => similar_statement (.refl ..)

/-- A size suffix before a comment is read, and a parenthesis that is open there is refused in the
same way. -/
theorem Grammar.commented_statement_suffix :
    let nop : Statement := .instruction ⟨"nop", some .byte, .implied⟩
    (2 ≤ ": nop.b ".toList.length ∧
      (statement 1).run (.ofText ": nop.b ".toList 2) = .ok (nop, ⟨8, []⟩) ∧
      (statement 1).run (.ofText (": nop.b ".toList ++ ';' :: ",y".toList) 2) =
        .ok (nop, ⟨8, ";,y".toList⟩)) ∧
    (0 ≤ "lda (a".toList.length ∧
      ∃ f f', (statement 1).run (.ofText "lda (a".toList 0) = .error f ∧
        (statement 1).run (.ofText ("lda (a".toList ++ ';' :: ")".toList) 0) = .error f' ∧
        f.SameShape f') := by
  intro nop
  have hlength : 2 ≤ ": nop.b ".toList.length := by decide
  have hread : (statement 1).run (.ofText ": nop.b ".toList 2) = .ok (nop, ⟨8, []⟩) := by
    decide +kernel
  have hfirst := commented_statement.1 1 _ ",y".toList 2 hlength
  have hsecond := commented_statement.1 1 _ ")".toList 0 (Nat.zero_le "lda (a".toList.length)
  have hnone : ((statement 1).run (.ofText "lda (a".toList 0)).toOption = none := by decide +kernel
  rw [hread] at hfirst
  generalize (statement 1).run (.ofText (": nop.b ".toList ++ ';' :: ",y".toList) 2) = x' at hfirst
  generalize (statement 1).run (.ofText "lda (a".toList 0) = y,
    (statement 1).run (.ofText ("lda (a".toList ++ ';' :: ")".toList) 0) = y' at hsecond hnone
  refine ⟨⟨hlength, hread, ?_⟩, Nat.zero_le _, ?_⟩
  · cases hfirst with
    | ok => rfl
  · cases hsecond with
    | ok => cases hnone
    | error hshape => exact ⟨_, _, rfl, rfl, hshape⟩

end Asm65816
