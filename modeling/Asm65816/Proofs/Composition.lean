import Asm65816.Proofs.FailureShape
import Asm65816.Proofs.LockstepGrammar
import Asm65816.Proofs.ProgramLines
import Asm65816.Proofs.TextLines

/-!
# Programs compose by lines

Two sources joined by a line feed are read as the one and then the other, whose lines are numbered
on. A line is read by itself: its number is only written into the places of its statements and of
its diagnostic (`Line.parse_moveDown`), so nothing is carried from one line to the next but the
count of diagnostics. The line feed that joins the sources may end the last line of the first one or
add an empty line, which holds no statement.
-/

namespace Asm65816

/-! ## Further down -/

/-- A place `k` lines further down. -/
def Location.moveDown (k : Nat) (l : Location) : Location := { l with line := l.line + k }

/-- A statement `k` lines further down. -/
def Located.moveDown (k : Nat) (x : Located) : Located :=
  { x with location := x.location.moveDown k }

/-- A diagnostic `k` lines further down: the same failure on the same text and source line, in the
same column. -/
def Diagnostic.moveDown (k : Nat) (d : Diagnostic) : Diagnostic :=
  { d with location := d.location.map (Location.moveDown k) }

namespace Line

variable {depth : Depth} {file : String} {number : Nat} {line : List Char}

/-- A line further down has the same statements, further down. -/
theorem parse_moveDown {found : List Located} (k : Nat)
    (h : parse depth file number line = .ok found) :
    parse depth file (number + k : Nat) line = .ok (found.map (Located.moveDown k)) := by
  unfold parse at h ⊢
  split at h
  · cases h
    rw [List.map_map]
    rfl
  · cases h

/-- A line that fails does so wherever it stands. -/
theorem parse_error_moveDown {d : Diagnostic} (k : Nat)
    (h : parse depth file number line = .error d) :
    parse depth file (number + k : Nat) line = .error d := by
  unfold parse at h ⊢
  split at h
  · cases h
  · exact h

/-- An empty line holds no statement. -/
theorem parse_nil (depth : Depth) (file : String) (number : Int) :
    parse depth file number [] = .ok [] := by
  have h : statements depth.levels [] = .ok [] := statementsFrom_of_end rfl
  rw [parse, h]
  rfl

end Line

namespace Program

section
variable {depth : Depth} {file : String}

/-! ## Lines one after the other -/

theorem statementsOf_append (xs ys : List (List Char × Nat)) :
    statementsOf depth file (xs ++ ys) = statementsOf depth file xs ++ statementsOf depth file ys :=
  List.flatMap_append

theorem errorsOf_append (xs ys : List (List Char × Nat)) :
    errorsOf depth file (xs ++ ys) = errorsOf depth file xs ++ errorsOf depth file ys :=
  List.filterMap_append

/-- Lines numbered from `k` further on have the same statements, further down. -/
theorem statementsOf_moveDown (number k : Nat) (lines : List (List Char)) :
    statementsOf depth file (lines.zipIdx (number + k)) =
      (statementsOf depth file (lines.zipIdx number)).map (Located.moveDown k) := by
  induction lines generalizing number with
  | nil => rfl
  | cons line lines ih =>
    rw [List.zipIdx_cons, List.zipIdx_cons, Nat.add_right_comm]
    cases h : Line.parse depth file number line with
    | ok found =>
      rw [statementsOf_cons_of_ok h, statementsOf_cons_of_ok (Line.parse_moveDown k h), ih,
        List.map_append]
    | error d =>
      rw [statementsOf_cons_of_error h, statementsOf_cons_of_error (Line.parse_error_moveDown k h),
        ih]

/-- And the same diagnostics, further down. -/
theorem errorsOf_moveDown (number k : Nat) (lines : List (List Char)) :
    errorsOf depth file (lines.zipIdx (number + k)) =
      (errorsOf depth file (lines.zipIdx number)).map (Diagnostic.moveDown k) := by
  induction lines generalizing number with
  | nil => rfl
  | cons line lines ih =>
    rw [List.zipIdx_cons, List.zipIdx_cons, Nat.add_right_comm]
    cases h : Line.parse depth file number line with
    | ok found =>
      rw [errorsOf_cons_of_ok h, errorsOf_cons_of_ok (Line.parse_moveDown k h), ih]
    | error d =>
      rw [errorsOf_cons_of_error h, errorsOf_cons_of_error (Line.parse_error_moveDown k h), ih]
      rfl

/-- An empty line at the end adds nothing. -/
theorem of_append_nil (lines : List (List Char)) :
    statementsOf depth file ((lines ++ [[]]).zipIdx 1) =
        statementsOf depth file (lines.zipIdx 1) ∧
      errorsOf depth file ((lines ++ [[]]).zipIdx 1) = errorsOf depth file (lines.zipIdx 1) := by
  rw [List.zipIdx_append, statementsOf_append, errorsOf_append, List.zipIdx_singleton,
    statementsOf_cons_of_ok (Line.parse_nil _ _ _), errorsOf_cons_of_ok (Line.parse_nil _ _ _)]
  exact ⟨List.append_nil _, List.append_nil _⟩

/-- The statements and diagnostics of joined sources are those of the first, then those of the
second as many lines further down as the first has with the line feed. -/
theorem of_join (a b : String) :
    let k := (Text.lines (a ++ "\n").toList).length
    statementsOf depth file ((Text.lines (a ++ "\n" ++ b).toList).zipIdx 1) =
        statementsOf depth file ((Text.lines a.toList).zipIdx 1) ++
          (statementsOf depth file ((Text.lines b.toList).zipIdx 1)).map (Located.moveDown k) ∧
      errorsOf depth file ((Text.lines (a ++ "\n" ++ b).toList).zipIdx 1) =
        errorsOf depth file ((Text.lines a.toList).zipIdx 1) ++
          (errorsOf depth file ((Text.lines b.toList).zipIdx 1)).map (Diagnostic.moveDown k) := by
  intro k
  have hfirst : (a ++ "\n").toList = a.toList ++ ['\n'] := String.toList_append
  have hlines : Text.lines (a ++ "\n" ++ b).toList =
      Text.lines (a ++ "\n").toList ++ Text.lines b.toList := by
    rw [String.toList_append, hfirst, List.append_assoc]
    exact Text.lines_append_newline a.toList b.toList
  have hsame : statementsOf depth file ((Text.lines (a ++ "\n").toList).zipIdx 1) =
        statementsOf depth file ((Text.lines a.toList).zipIdx 1) ∧
      errorsOf depth file ((Text.lines (a ++ "\n").toList).zipIdx 1) =
        errorsOf depth file ((Text.lines a.toList).zipIdx 1) := by
    rw [hfirst]
    rcases Text.lines_newline a.toList with h | h
    · rw [h]
      exact ⟨rfl, rfl⟩
    · rw [h]
      exact of_append_nil _
  rw [hlines, List.zipIdx_append, statementsOf_append, errorsOf_append, statementsOf_moveDown,
    errorsOf_moveDown, hsame.1, hsame.2]
  exact ⟨rfl, rfl⟩

end

/-! ## Sources one after the other -/

variable {limits : Limits} {file : String}

/-- How many lines of a source fail. -/
def failingLines (limits : Limits) (file source : String) : Nat :=
  ((Text.lines source.toList).zipIdx 1).countP fun (line, number) =>
    !(Line.parse limits.depth file number line).isOk

/-- The diagnostics that come out of reading a program. -/
def diagnostics : Except Refusal Program → List Diagnostic
  | .ok _ => []
  | .error refusal => refusal.errors

theorem failingLines_eq (limits : Limits) (file source : String) : failingLines limits file source =
    (errorsOf limits.depth file ((Text.lines source.toList).zipIdx 1)).length := by
  rw [errorsOf, List.length_filterMap_eq_countP]
  refine List.countP_congr fun x _ => ?_
  obtain ⟨line, number⟩ := x
  cases h : Line.parse limits.depth file number line <;> simp [h, Except.isOk, Except.toBool]

/-- Below the limit the diagnostics of a program are those of all its lines. -/
theorem diagnostics_parse {source : String} (h : failingLines limits file source < limits.most) :
    diagnostics (parse limits file source) =
      errorsOf limits.depth file ((Text.lines source.toList).zipIdx 1) := by
  rw [failingLines_eq] at h
  by_cases hnil : errorsOf limits.depth file ((Text.lines source.toList).zipIdx 1) = []
  · rw [parse_of_errorsOf_eq_nil hnil, hnil]
    rfl
  · rw [parse_of_errorsOf_ne_nil hnil, findingsOf_of_lt h]
    rfl

end Program

end Asm65816
