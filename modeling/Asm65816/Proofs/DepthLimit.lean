import Asm65816.Proofs.Position
import Asm65816.Proofs.ProgramLines

/-!
# The depth limit only cuts off

A text that is read, or refused, without nesting beyond a limit gets the same answer under every
higher limit: the limit never makes the grammar take another alternative. It could only do so if
some rule went on after a failure by nesting, and since that failure is fatal none does.

Two readings of one text under two limits are a lockstep in which failures belong together when they
are equal, and the first reading is excused where it nests too deep (`Lockstep.deeper`).
-/

namespace Asm65816

/-- The outcome is that the nesting goes beyond the limit. -/
def TooDeep {α : Type} (outcome : Except Diagnostic α) : Prop :=
  ∃ d, outcome = .error d ∧ d.failure.kind = .tooDeep

instance {α : Type} : (outcome : Except Diagnostic α) → Decidable (TooDeep outcome)
  | .ok _ => .isFalse nofun
  | .error d => decidable_of_iff (d.failure.kind = .tooDeep) (by simp [TooDeep])

/-! ## Two limits -/

namespace Alignment

/-- Two readings of one text are at the same place. -/
theorem near_further_zero_iff {c c' : Cursor} : (further 0).Near c c' ↔ c' = c := by
  obtain ⟨pos, rest⟩ := c
  obtain ⟨pos', rest'⟩ := c'
  rw [near_further_iff, Cursor.mk.injEq]
  rfl

end Alignment

namespace Lockstep

/-- A text under a limit and under a higher one. -/
def deeper : Lockstep where
  toAlignment := .further 0
  failure := Eq
  excused f := f.kind = .tooDeep
  fatal_of_excused := Failure.fatal_of_kind_eq_tooDeep
  fatal_eq h := congrArg Failure.fatal h.symm
  leaf hint hc _ _ hcause := by
    obtain rfl := Alignment.near_further_zero_iff.1 hc
    rw [hcause rfl]
  within reason committed h := by rw [h]
  alternatives reason hc hfs := by
    obtain rfl := Alignment.near_further_zero_iff.1 hc
    rw [List.forall₂_eq_eq_eq] at hfs
    rw [hfs]

variable {limit limit' : Nat}

theorem deeper_of_le (h : limit ≤ limit') : deeper.Deeper limit limit limit' limit' :=
  .inr ⟨h, fun _ => rfl⟩

end Lockstep

open Lockstep

/-- A rule gives the same under a higher limit, unless it nests too deep. -/
theorem Rule.parse_eq_of_similar {α : Type} {r r' : Rule α} (h : deeper.Similar r r')
    {text : String} (hdeep : ¬ TooDeep (r.parse text)) : r'.parse text = r.parse text := by
  have hrun := h (Alignment.near_further_zero_iff.2 (Eq.refl (Cursor.ofText text.toList 0)))
  unfold Rule.parse at hdeep ⊢
  generalize r.run (.ofText text.toList 0) = x, r'.run (.ofText text.toList 0) = x' at hrun hdeep
  cases hrun with
  | ok hd => rw [Alignment.near_further_zero_iff.1 hd]
  | error hf => rw [hf]
  | excused hf => exact absurd ⟨_, rfl, hf⟩ hdeep

variable {depth depth' : Depth}

/-- The statements of a line are the same under a higher limit, unless they nest too deep. -/
theorem Line.statements_of_le {limit limit' : Nat} (h : limit ≤ limit') (line : List Char) :
    (∃ f, Line.statements limit line = .error f ∧ f.kind = .tooDeep) ∨
      Line.statements limit' line = Line.statements limit line := by
  unfold Line.statements
  generalize (Cursor.ofText (Line.code line) 0).skipBlank = c
  have hend : c.rest = [] → deeper.Past c c := fun hnil => ⟨hnil, rfl, hnil⟩
  have hrun := continues_statementsFrom (deeper_of_le h) (Text.beginsIn_nil _)
    (Alignment.near_further_zero_iff.2 rfl) hend
  have hmore : Line.statementsFrom limit' (deeper.afterEnd c) = .ok [] :=
    Line.statementsFrom_of_end rfl
  rw [hmore] at hrun
  generalize Line.statementsFrom limit c = x, Line.statementsFrom limit' c = x' at hrun
  cases hrun with
  | ok found =>
    refine .inr (congrArg Except.ok ?_)
    show found.map (fun x => (x.1 + 0, x.2)) ++ [] = found
    rw [List.append_nil]
    exact List.map_id' found
  | error hf => exact .inr (by rw [hf])
  | excused hf => exact .inl ⟨_, rfl, hf⟩

theorem Line.parse_of_le (h : depth.levels ≤ depth'.levels) {file : String} {number : Int}
    {line : List Char} (hdeep : ¬ TooDeep (Line.parse depth file number line)) :
    Line.parse depth' file number line = Line.parse depth file number line := by
  unfold Line.parse at hdeep ⊢
  rcases Line.statements_of_le h line with ⟨f, hf, hkind⟩ | hsame
  · rw [hf] at hdeep
    exact absurd ⟨_, rfl, hkind⟩ hdeep
  · rw [hsame]

/-- A match is not too deep. -/
theorem not_tooDeep_of_ok {α : Type} {outcome : Except Diagnostic α} {a : α}
    (h : outcome = .ok a) : ¬ TooDeep outcome := by
  rintro ⟨d, hd, -⟩
  rw [h] at hd
  cases hd

namespace Program

/-- Lines that are all read give the same under a higher limit. -/
theorem lines_of_le (h : depth.levels ≤ depth'.levels) {file : String}
    {lines : List (List Char × Nat)} (hlines : errorsOf depth file lines = []) :
    errorsOf depth' file lines = [] ∧
      statementsOf depth' file lines = statementsOf depth file lines := by
  induction lines with
  | nil => simp [errorsOf, statementsOf]
  | cons x lines ih =>
    obtain ⟨line, number⟩ := x
    cases hline : Line.parse depth file number line with
    | error d =>
      rw [errorsOf_cons_of_error hline] at hlines
      cases hlines
    | ok found =>
      have hline' : Line.parse depth' file number line = .ok found := by
        rw [Line.parse_of_le h (not_tooDeep_of_ok hline), hline]
      rw [errorsOf_cons_of_ok hline] at hlines
      obtain ⟨herrors, hfound⟩ := ih hlines
      rw [errorsOf_cons_of_ok hline', statementsOf_cons_of_ok hline, statementsOf_cons_of_ok hline']
      exact ⟨herrors, by rw [hfound]⟩

theorem parse_of_le {limits limits' : Limits} (h : limits.depth.levels ≤ limits'.depth.levels)
    {file source : String} {program : Program} (hparse : parse limits file source = .ok program) :
    parse limits' file source = .ok program := by
  by_cases herrors : errorsOf limits.depth file ((Text.lines source.toList).zipIdx 1) = []
  · obtain ⟨herrors', hfound⟩ := lines_of_le h herrors
    rw [parse_of_errorsOf_eq_nil herrors', hfound, ← hparse, parse_of_errorsOf_eq_nil herrors]
  · rw [parse_of_errorsOf_ne_nil herrors] at hparse
    cases hparse

end Program

/-- The depth limit only cuts off. What is read or refused under a limit without nesting too deep is
read or refused in the same way under a higher one, be it an expression, a statement, an assignment
or a line; and a program that is read stays the same. -/
theorem parse_eq_of_depth_le (h : depth.levels ≤ depth'.levels) :
    (∀ text, ¬ TooDeep (Expr.parse depth text) → Expr.parse depth' text = Expr.parse depth text) ∧
    (∀ text, ¬ TooDeep (Statement.parse depth text) →
      Statement.parse depth' text = Statement.parse depth text) ∧
    (∀ text, ¬ TooDeep (Statement.parseAssignment depth text) →
      Statement.parseAssignment depth' text = Statement.parseAssignment depth text) ∧
    (∀ file number line, ¬ TooDeep (Line.parse depth file number line) →
      Line.parse depth' file number line = Line.parse depth file number line) ∧
    ∀ errors errors' file source program,
      Program.parse ⟨depth, errors⟩ file source = .ok program →
      Program.parse ⟨depth', errors'⟩ file source = .ok program := by
  refine ⟨fun text hdeep => ?_, fun text hdeep => ?_, fun text hdeep => ?_,
    fun _ _ _ => Line.parse_of_le h, fun _ _ _ _ _ hparse => ?_⟩
  · exact Rule.parse_eq_of_similar
      (similar_skipBlank.bind fun _ => similar_value (deeper_of_le h)) hdeep
  · exact Rule.parse_eq_of_similar
      (similar_skipBlank.bind fun _ => similar_statement (deeper_of_le h)) hdeep
  · exact Rule.parse_eq_of_similar
      (similar_skipBlank.bind fun _ => similar_assignmentStatement (deeper_of_le h)) hdeep
  · exact Program.parse_of_le h hparse

/-- One level is enough for the group, for the statement that is refused, for the call and for the
brackets, and two groups are too deep only in one another. -/
theorem parse_eq_of_depth_le_one :
    let one : Depth := ⟨1, by decide, by decide⟩
    (¬ TooDeep (Expr.parse one "(a)+") ∧
      Expr.parse .default "(a)+" = Expr.parse one "(a)+" ∧ TooDeep (Expr.parse one "((a))")) ∧
    (¬ TooDeep (Statement.parse one "lda (a") ∧
      Statement.parse .default "lda (a" = Statement.parse one "lda (a") ∧
    (¬ TooDeep (Statement.parseAssignment one "a = f(1)") ∧
      Statement.parseAssignment .default "a = f(1)" = Statement.parseAssignment one "a = f(1)") ∧
    (¬ TooDeep (Line.parse one "f" 1 "nop : lda [2]".toList) ∧
      Line.parse .default "f" 1 "nop : lda [2]".toList =
        Line.parse one "f" 1 "nop : lda [2]".toList) ∧
    ∃ program, Program.parse ⟨one, 1⟩ "f" "nop\n lda (2),y" = .ok program ∧
      Program.parse ⟨.default, 100⟩ "f" "nop\n lda (2),y" = .ok program := by
  intro one
  have hlevels : one.levels ≤ Depth.default.levels := by decide
  have h := parse_eq_of_depth_le hlevels
  have hexpr : ¬ TooDeep (Expr.parse one "(a)+") := by decide +kernel
  have hstatement : ¬ TooDeep (Statement.parse one "lda (a") := by decide +kernel
  have hassignment : ¬ TooDeep (Statement.parseAssignment one "a = f(1)") := by decide +kernel
  have hline : ¬ TooDeep (Line.parse one "f" 1 "nop : lda [2]".toList) := by decide +kernel
  have hprogram : ∃ program, Program.parse ⟨one, 1⟩ "f" "nop\n lda (2),y" = .ok program :=
    ⟨_, Program.parse_of_errorsOf_eq_nil (by decide +kernel)⟩
  obtain ⟨program, hprogram⟩ := hprogram
  exact ⟨⟨hexpr, h.1 _ hexpr, by decide +kernel⟩, ⟨hstatement, h.2.1 _ hstatement⟩,
    ⟨hassignment, h.2.2.1 _ hassignment⟩, ⟨hline, h.2.2.2.1 _ _ _ hline⟩,
    program, hprogram, h.2.2.2.2 _ _ _ _ _ hprogram⟩

end Asm65816
