import Asm65816.Program
import Asm65816.Proofs.Reading

/-!
# Programs as functions of their lines

Reading a program goes through its lines with findings that fill up, and stops when they are full.
The outcome depends on the lines one by one only: on the statements that each of them gives
(`Program.statementsOf`) and on the diagnostics of those that fail (`Program.errorsOf`). A program
without such diagnostics is the statements of its lines in order. Otherwise it is refused with the
first of the diagnostics, as many as the limit allows and one in any case, and there is a warning
exactly when the limit was reached.

What a step keeps is that the findings so far have room for one more diagnostic and no warning
(`Program.readLines_snd`).
-/

namespace Asm65816

/-! ## Statements of a line -/

namespace Line

/-- The statements of a line stand one after the other, none before the cursor. -/
theorem pairwise_statementsFrom {limit : Nat} {c : Cursor} {found : List (Nat × Statement)}
    (h : statementsFrom limit c = .ok found) :
    (∀ x ∈ found, c.pos ≤ x.1) ∧ found.Pairwise fun x y => x.1 < y.1 := by
  fun_induction statementsFrom limit c generalizing found with
  | case1 =>
    cases h
    exact ⟨nofun, .nil⟩
  | case2 c rest hc ih =>
    obtain ⟨hle, hlt⟩ := ih h
    have hskip := (c.advance 1).reads_skipBlank.2
    have hadv : (c.advance 1).pos = c.pos + 1 := rfl
    refine ⟨fun x hx => ?_, hlt⟩
    have := hle x hx
    omega
  | case3 => cases h
  | case4 => cases h
  | case5 c ch rest hc hne s d hrun _ later hlater ih =>
    cases h
    obtain ⟨hle, hlt⟩ := ih hlater
    obtain ⟨used, hused, hread⟩ := (Grammar.statement limit).advances hrun
    have hpos : c.pos < d.skipBlank.pos := by
      have hskip := d.reads_skipBlank.2
      have hlen := List.length_pos_iff.2 hused
      have := hread.2
      omega
    refine ⟨?_, .cons ?_ hlt⟩
    · intro x hx
      rcases List.mem_cons.1 hx with rfl | hx
      · exact Nat.le_refl _
      · have := hle x hx
        omega
    · intro x hx
      have := hle x hx
      show c.pos < x.1
      omega
  | case6 => cases h

end Line

/-- One place comes before another in the same file. -/
def Location.Before (a b : Location) : Prop :=
  a.line < b.line ∨ a.line = b.line ∧ a.column < b.column

namespace Line

variable {depth : Depth} {file : String} {number : Int} {line : List Char} {found : List Located}

/-- A line gives its statements in the order of their columns. -/
theorem pairwise_parse (h : parse depth file number line = .ok found) :
    (∀ x ∈ found, x.location.line = number) ∧
      found.Pairwise fun x y => x.location.Before y.location := by
  unfold parse at h
  split at h
  · next placed hplaced =>
    cases h
    obtain ⟨-, hlt⟩ := pairwise_statementsFrom hplaced
    refine ⟨?_, ?_⟩
    · intro x hx
      obtain ⟨y, -, rfl⟩ := List.mem_map.1 hx
      rfl
    · rw [List.pairwise_map]
      refine hlt.imp fun {x y} hxy => .inr ⟨rfl, ?_⟩
      show (x.1 : Int) + 1 < y.1 + 1
      omega
  · cases h

end Line

/-! ## Lines one by one -/

/-- The number of failing lines at which reading stops: the limit, or one if the limit is less. -/
def Limits.most (limits : Limits) : Nat := (max limits.errors 1).toNat

namespace Program

/-- The statements of numbered lines, each line read alone. -/
def statementsOf (depth : Depth) (file : String) (lines : List (List Char × Nat)) : List Located :=
  lines.flatMap fun (line, number) =>
    match Line.parse depth file number line with
    | .ok statements => statements
    | .error _ => []

/-- The diagnostics of numbered lines, each line read alone, and each put where the line stands. -/
def errorsOf (depth : Depth) (file : String) (lines : List (List Char × Nat)) : List Diagnostic :=
  lines.filterMap fun (line, number) =>
    match Line.parse depth file number line with
    | .ok _ => none
    | .error d => some { d with
        location := some ⟨file, number, d.failure.offset + 1⟩
        sourceLine := some (String.ofList line) }

/-- The findings on a program whose lines give these diagnostics. -/
def findingsOf (limits : Limits) (errors : List Diagnostic) : Findings where
  maxErrors := limits.errors
  errors := errors.take limits.most
  warnings :=
    if limits.most ≤ errors.length then
      ["too many errors (" ++ Text.decimalInt limits.errors ++ "), stopping"]
    else []

section
variable {limits : Limits} {depth : Depth} {file : String} {line : List Char} {number : Nat}
  {lines : List (List Char × Nat)}

theorem errorsOf_cons_of_ok {found : List Located}
    (h : Line.parse depth file number line = .ok found) :
    errorsOf depth file ((line, number) :: lines) = errorsOf depth file lines := by
  rw [errorsOf, List.filterMap_cons_none]
  · rfl
  · simp only [h]

theorem errorsOf_cons_of_error {d : Diagnostic} (h : Line.parse depth file number line = .error d) :
    errorsOf depth file ((line, number) :: lines) =
      locate file number line d :: errorsOf depth file lines := by
  rw [errorsOf, List.filterMap_cons_some]
  · rfl
  · simp only [h]
    rfl

theorem statementsOf_cons_of_ok {found : List Located}
    (h : Line.parse depth file number line = .ok found) :
    statementsOf depth file ((line, number) :: lines) = found ++ statementsOf depth file lines := by
  rw [statementsOf, List.flatMap_cons]
  simp only [h]
  rfl

/-- A line that failed gives no statements. -/
theorem statementsOf_cons_of_error {d : Diagnostic}
    (h : Line.parse depth file number line = .error d) :
    statementsOf depth file ((line, number) :: lines) = statementsOf depth file lines := by
  rw [statementsOf, List.flatMap_cons]
  simp only [h]
  rfl

end

/-- The statements of lines numbered in order stand in order, none before the first line. -/
theorem pairwise_statementsOf (depth : Depth) (file : String) (number : Nat)
    (lines : List (List Char)) :
    (∀ x ∈ statementsOf depth file (lines.zipIdx number), (number : Int) ≤ x.location.line) ∧
      (statementsOf depth file (lines.zipIdx number)).Pairwise fun x y =>
        x.location.Before y.location := by
  induction lines generalizing number with
  | nil => exact ⟨nofun, .nil⟩
  | cons line lines ih =>
    obtain ⟨hle, hlt⟩ := ih (number + 1)
    rw [List.zipIdx_cons]
    cases h : Line.parse depth file number line with
    | error d =>
      rw [statementsOf_cons_of_error h]
      refine ⟨fun x hx => ?_, hlt⟩
      have := hle x hx
      omega
    | ok found =>
      obtain ⟨hline, hfound⟩ := Line.pairwise_parse h
      rw [statementsOf_cons_of_ok h]
      refine ⟨?_, List.pairwise_append.2 ⟨hfound, hlt, ?_⟩⟩
      · intro x hx
        rcases List.mem_append.1 hx with hx | hx
        · exact Int.le_of_eq (hline x hx).symm
        · have := hle x hx
          omega
      · intro x hx y hy
        have hx := hline x hx
        have hy := hle y hy
        exact .inl (by omega)

/-! ## Reading lines -/

variable {limits : Limits} {file : String}

/-- Diagnostics that leave room are all kept, and nothing is said of their number. -/
theorem findingsOf_of_lt {errors : List Diagnostic} (h : errors.length < limits.most) :
    findingsOf limits errors = ⟨limits.errors, errors, []⟩ := by
  unfold findingsOf
  rw [List.take_of_length_le (Nat.le_of_lt h), if_neg (by omega)]

/-- The diagnostic that takes the last room is the last one. -/
theorem findingsOf_of_eq {seen later : List Diagnostic} (h : seen.length = limits.most) :
    findingsOf limits (seen ++ later) =
      (⟨limits.errors, seen, []⟩ : Findings).warn
        (⟨limits.errors, seen, []⟩ : Findings).fullMessage := by
  have hle : limits.most ≤ (seen ++ later).length := by
    rw [List.length_append]
    omega
  unfold findingsOf
  rw [if_pos hle, ← h, List.take_left]
  rfl

/-- Findings with a diagnostic are full when there are as many as the limit allows, or one. -/
theorem isFull_iff (limits : Limits) {seen : List Diagnostic} (hne : seen ≠ []) :
    (⟨limits.errors, seen, []⟩ : Findings).isFull = true ↔ limits.most ≤ seen.length := by
  have hpos := List.length_pos_iff.2 hne
  unfold Findings.isFull Limits.most
  rw [decide_eq_true_eq]
  show limits.errors ≤ (seen.length : Int) ↔ _
  omega

section
variable {line : List Char} {number : Nat}

/-- A line that is read adds its statements. -/
theorem readLines_cons_of_ok {found : List Located} (lines : List (List Char))
    (findings : Findings) (h : Line.parse limits.depth file number line = .ok found) :
    readLines limits file number (line :: lines) findings =
      (found ++ (readLines limits file (number + 1) lines findings).1,
        (readLines limits file (number + 1) lines findings).2) := by
  rw [readLines, h]

/-- A line that fails adds its diagnostic, and reading goes on where there is room for another. -/
theorem readLines_cons_of_error {d : Diagnostic} (lines : List (List Char))
    {seen seen' : List Diagnostic} (h : Line.parse limits.depth file number line = .error d)
    (hseen : seen' = seen ++ [locate file number line d]) :
    readLines limits file number (line :: lines) ⟨limits.errors, seen, []⟩ =
      if limits.most ≤ seen'.length then
        ([], (⟨limits.errors, seen', []⟩ : Findings).warn
          (⟨limits.errors, seen', []⟩ : Findings).fullMessage)
      else readLines limits file (number + 1) lines ⟨limits.errors, seen', []⟩ := by
  subst hseen
  have hne : seen ++ [locate file number line d] ≠ [] := by simp
  simp only [← isFull_iff limits hne]
  rw [readLines, h]
  rfl

end

/-- Reading lines from findings with room for one more diagnostic ends with the findings on all the
diagnostics, those of before and those of the lines. -/
theorem readLines_snd {seen : List Diagnostic} (hroom : seen.length < limits.most) (number : Nat)
    (lines : List (List Char)) :
    (readLines limits file number lines ⟨limits.errors, seen, []⟩).2 =
      findingsOf limits (seen ++ errorsOf limits.depth file (lines.zipIdx number)) := by
  induction lines generalizing number seen with
  | nil =>
    show _ = findingsOf limits (seen ++ [])
    rw [List.append_nil, findingsOf_of_lt hroom]
    rfl
  | cons line lines ih =>
    rw [List.zipIdx_cons]
    cases h : Line.parse limits.depth file number line with
    | ok found =>
      rw [readLines_cons_of_ok lines _ h, errorsOf_cons_of_ok h]
      exact ih hroom (number + 1)
    | error d =>
      obtain ⟨seen', hseen⟩ : ∃ seen', seen' = seen ++ [locate file number line d] := ⟨_, rfl⟩
      have hlen : seen'.length = seen.length + 1 := by
        rw [hseen, List.length_append]
        rfl
      rw [readLines_cons_of_error lines h hseen, errorsOf_cons_of_error h, List.append_cons,
        ← hseen]
      split
      · next hfull =>
        rw [findingsOf_of_eq (by omega)]
      · next hfull => exact ih (by omega) (number + 1)

/-- Lines without diagnostics give all their statements. -/
theorem readLines_fst (number : Nat) (lines : List (List Char)) (findings : Findings)
    (h : errorsOf limits.depth file (lines.zipIdx number) = []) :
    (readLines limits file number lines findings).1 =
      statementsOf limits.depth file (lines.zipIdx number) := by
  induction lines generalizing number with
  | nil => rfl
  | cons line lines ih =>
    rw [List.zipIdx_cons] at h ⊢
    cases hline : Line.parse limits.depth file number line with
    | ok found =>
      rw [errorsOf_cons_of_ok hline] at h
      rw [readLines_cons_of_ok lines _ hline, statementsOf_cons_of_ok hline, ih (number + 1) h]
    | error d =>
      rw [errorsOf_cons_of_error hline] at h
      cases h

/-- At the start there is room for one diagnostic, whatever the limit. -/
theorem room_at_start (limits : Limits) : ([] : List Diagnostic).length < limits.most := by
  unfold Limits.most
  show 0 < (max limits.errors 1).toNat
  omega

section
variable {source : String}

/-- What is found in a source is what is found in its lines. -/
theorem read_snd (limits : Limits) (file source : String) :
    (read limits file source).2 =
      findingsOf limits (errorsOf limits.depth file ((Text.lines source.toList).zipIdx 1)) :=
  readLines_snd (room_at_start limits) 1 (Text.lines source.toList)

/-- A source whose lines are all read is a program. -/
theorem parse_of_errorsOf_eq_nil
    (h : errorsOf limits.depth file ((Text.lines source.toList).zipIdx 1) = []) :
    parse limits file source =
      .ok ⟨file, statementsOf limits.depth file ((Text.lines source.toList).zipIdx 1)⟩ := by
  have hfindings := read_snd limits file source
  have hfound := readLines_fst 1 (Text.lines source.toList) (.empty limits.errors) h
  rw [h, findingsOf_of_lt (room_at_start limits)] at hfindings
  show ofReading file (read limits file source).1 (read limits file source).2 = _
  rw [hfindings, read, hfound]
  rfl

/-- A source with a line that fails is refused with the findings. -/
theorem parse_of_errorsOf_ne_nil
    (h : errorsOf limits.depth file ((Text.lines source.toList).zipIdx 1) ≠ []) :
    parse limits file source = .error
      ⟨(findingsOf limits
          (errorsOf limits.depth file ((Text.lines source.toList).zipIdx 1))).errors,
        (findingsOf limits
          (errorsOf limits.depth file ((Text.lines source.toList).zipIdx 1))).report⟩ := by
  have hpos : 0 < limits.most := room_at_start limits
  have hne : (findingsOf limits (errorsOf limits.depth file
      ((Text.lines source.toList).zipIdx 1))).errors.isEmpty = false := by
    rw [List.isEmpty_eq_false_iff]
    exact fun hnil => (List.take_eq_nil_iff.1 hnil).elim (by omega) h
  show ofReading file (read limits file source).1 (read limits file source).2 = _
  rw [read_snd, ofReading, hne]
  rfl

/-- A source that is read has no diagnostics, and its program is the statements of its lines. -/
theorem of_parse_ok {program : Program} (h : parse limits file source = .ok program) :
    errorsOf limits.depth file ((Text.lines source.toList).zipIdx 1) = [] ∧
      program.statements =
        statementsOf limits.depth file ((Text.lines source.toList).zipIdx 1) := by
  by_cases hnil : errorsOf limits.depth file ((Text.lines source.toList).zipIdx 1) = []
  · rw [parse_of_errorsOf_eq_nil hnil] at h
    cases h
    exact ⟨hnil, rfl⟩
  · rw [parse_of_errorsOf_ne_nil hnil] at h
    cases h

/-- A source that is refused has findings, and they make the refusal. -/
theorem of_parse_error {refusal : Refusal} (h : parse limits file source = .error refusal) :
    ∃ errors, errors = errorsOf limits.depth file ((Text.lines source.toList).zipIdx 1) ∧
      refusal = ⟨(findingsOf limits errors).errors, (findingsOf limits errors).report⟩ := by
  by_cases hnil : errorsOf limits.depth file ((Text.lines source.toList).zipIdx 1) = []
  · rw [parse_of_errorsOf_eq_nil hnil] at h
    cases h
  · rw [parse_of_errorsOf_ne_nil hnil] at h
    cases h
    exact ⟨_, rfl, rfl⟩

end

/-- The report on findings has the warning, if there is one, and ends with the counts. -/
theorem report_findingsOf (limits : Limits) (errors : List Diagnostic) :
    (findingsOf limits errors).report = "\n".intercalate
      ((errors.take limits.most).flatMap (fun d => [d.render, ""])
        ++ (if limits.most ≤ errors.length then
            ["Warnings:",
              "  " ++ ("too many errors (" ++ Text.decimalInt limits.errors ++ "), stopping")]
          else [])
        ++ [Findings.counted (errors.take limits.most).length "error" ++ ", "
          ++ if limits.most ≤ errors.length then "1 warning" else "0 warnings"]) := by
  have hone : Findings.counted 1 "warning" = "1 warning" := by decide +kernel
  have hzero : Findings.counted 0 "warning" = "0 warnings" := by decide +kernel
  unfold Findings.report Findings.reportLines findingsOf
  rw [← hone, ← hzero]
  split
  · rfl
  · rfl

end Program

end Asm65816
