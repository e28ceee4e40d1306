import Asm65816.Proofs.ProgramLines
import Asm65816.Proofs.TextLines
import Asm65816.Proofs.Wording

/-!
# Diagnostics as they are shown

Every diagnostic of a refused program is shown on four lines: the place and the message, the source
line, a caret under the place, and a hint. That there are four needs a message and a hint without
line feeds (`Failure.Clear`); that the caret stands under what could not be read needs an offset
within the code of the line (`Failure.Proper`), which a comment behind it does not move.

A line fails as one of its statements does, or where something is left over after a statement
(`Line.told_of_statementsFrom`).
-/

namespace Asm65816

open Text (OneLine Shown)

/-- What stands nowhere in a text stands nowhere in the rest of it. -/
theorem Cursor.Reads.not_mem {c d : Cursor} {t : List Char} {ch : Char} (h : c.Reads t d)
    (hc : ch ∉ c.rest) : ch ∉ d.rest := by
  rw [h.1] at hc
  exact fun hmem => hc (List.mem_append_right _ hmem)

/-! ## Failures of a line -/

/-- What a failure says that reaches the reader of a line whose code ends at `last`. -/
structure Failure.Told (last : Nat) (f : Failure) : Prop where
  message : Shown f.message
  hint : f.Hinted
  nonneg : 0 ≤ f.offset
  le_last : f.offset ≤ last

theorem Grammar.told_of_statement {limit : Nat} {c : Cursor} {f : Failure}
    (h : (statement limit).run c = .error f) : f.Told c.textEnd where
  message := (clear_statement limit h).shown
  hint := hinted_of_statement h
  nonneg := (fails_statement limit 0 (Nat.zero_le _) h).1.first_le
  le_last := (fails_statement limit 0 (Nat.zero_le _) h).1.le_last

namespace Line

/-- What is left over is shown without the white space behind it. -/
theorem told_leftover {c : Cursor} (h : '\n' ∉ c.rest) : (leftover c).Told c.textEnd where
  message := by
    have htrim : '\n' ∉ Text.trimRight c.rest := by
      intro hmem
      have hmem := (List.dropWhile_sublist _).subset (List.mem_reverse.1 hmem)
      exact h (List.mem_reverse.1 hmem)
    have hclear : Reason.Clear (.trailing _) := Text.oneLine_ofList.2 htrim
    exact hclear.shown
  hint := ⟨_, rfl, by decide⟩
  nonneg := Int.natCast_nonneg _
  le_last := Int.ofNat_le.2 c.pos_le_textEnd

/-- A line fails as one of its statements does, or where something is left over. -/
theorem told_of_statementsFrom {limit : Nat} {c : Cursor} {f : Failure} (hc : '\n' ∉ c.rest)
    (h : statementsFrom limit c = .error f) : f.Told c.textEnd := by
  fun_induction statementsFrom limit c with
  | case1 => cases h
  | case2 c rest hrest ih =>
    have hread := (Cursor.reads_advance_one (Cursor.peek?_eq_some.2 ⟨rest, hrest⟩)).append
      (Cursor.reads_skipBlank _)
    rw [← hread.textEnd_eq]
    exact ih (hread.not_mem hc) h
  | case3 c ch rest hrest hne g hrun =>
    cases h
    exact Grammar.told_of_statement hrun
  | case4 c ch rest hrest hne s d hrun hfollow g hlater ih =>
    cases h
    obtain ⟨t, -, hread⟩ := (Grammar.statement limit).advances hrun
    have hread := hread.append d.reads_skipBlank
    rw [← hread.textEnd_eq]
    exact ih (hread.not_mem hc) hlater
  | case5 => cases h
  | case6 c ch rest hrest hne s d hrun hfollow =>
    cases h
    obtain ⟨t, -, hread⟩ := (Grammar.statement limit).advances hrun
    have hread := hread.append d.reads_skipBlank
    rw [← hread.textEnd_eq]
    exact told_leftover (hread.not_mem hc)

/-- The diagnostic of a line is about its code, and the failure stands in it. -/
theorem told_of_parse {depth : Depth} {file : String} {number : Int} {line : List Char}
    {d : Diagnostic} (hline : '\n' ∉ line) (h : parse depth file number line = .error d) :
    d = .ofFailure (code line) d.failure ∧ d.failure.Told (code line).length := by
  unfold parse at h
  split at h
  · cases h
  · next f hf =>
    cases h
    have hstart : ((Cursor.ofText (code line) 0).skipBlank).textEnd = (code line).length := by
      rw [(Cursor.reads_skipBlank _).textEnd_eq, Cursor.textEnd_ofText (Nat.zero_le _)]
    have hcode : '\n' ∉ (Cursor.ofText (code line) 0).rest := fun hmem =>
      hline ((List.takeWhile_sublist _).subset hmem)
    rw [← hstart]
    exact ⟨rfl, told_of_statementsFrom ((Cursor.reads_skipBlank _).not_mem hcode) hf⟩

end Line

/-! ## Four lines -/

namespace Diagnostic

variable {file : String} {line : List Char} {number offset : Nat} {f : Failure} {hint : String}

/-- A diagnostic placed on its line. -/
theorem locate_eq (hoffset : f.offset = offset) :
    Program.locate file number line (.ofFailure (Line.code line) f) =
      ⟨f, some (String.ofList (Line.code line)), some ⟨file, number, (offset + 1 : Nat)⟩,
        some (String.ofList line)⟩ := by
  have hcolumn : ((offset + 1 : Nat) : Int) = f.offset + 1 := by omega
  rw [hcolumn]
  rfl

/-- Such a diagnostic with a hint is shown as four lines. -/
theorem render_eq {text : Option String} (hhint : f.hint = some hint) (hne : hint ≠ "") :
    (⟨f, text, some ⟨file, number, (offset + 1 : Nat)⟩, some (String.ofList line)⟩ :
      Diagnostic).render = "\n".intercalate
      [file ++ ":" ++ Text.decimal number ++ ":" ++ Text.decimal (offset + 1) ++ ": error: " ++
        f.message,
        "    " ++ String.ofList line, String.ofList (List.replicate (4 + offset) ' ' ++ ['^']),
        "hint: " ++ hint] := by
  have hcaret : (4 + ((offset + 1 : Nat) : Int) - 1).toNat = 4 + offset := by omega
  have hpositive : (0 : Int) < (offset + 1 : Nat) := by omega
  simp only [render, heading, excerpt, hintLine, hhint, hcaret, hpositive, if_true]
  rfl

/-- None of the four has a line feed in it. -/
theorem splitOn_render {text : Option String} (hfile : OneLine file) (hline : '\n' ∉ line)
    (hmessage : Shown f.message) (hhint : f.hint = some hint) (hshown : Shown hint) :
    (⟨f, text, some ⟨file, number, (offset + 1 : Nat)⟩, some (String.ofList line)⟩ :
      Diagnostic).render.toList.splitOn '\n' =
      [(file ++ ":" ++ Text.decimal number ++ ":" ++ Text.decimal (offset + 1) ++ ": error: " ++
          f.message).toList,
        "    ".toList ++ line, List.replicate (4 + offset) ' ' ++ ['^'],
        ("hint: " ++ hint).toList] := by
  have hcolon : OneLine ":" := by decide
  have herror : OneLine ": error: " := by decide
  have hindent : OneLine "    " := by decide
  have hcaret : OneLine "^" := by decide
  have hword : OneLine "hint: " := by decide
  have hdecimal : ∀ n, OneLine (Text.decimal n) := fun n => (Text.visible_decimal n).newline_not_mem
  rw [render_eq hhint hshown.1, Text.splitOn_intercalate (by simp)]
  · simp
  · simp [hfile, hcolon, herror, hindent, hcaret, hword, hdecimal, hmessage.2, hline,
      hshown.2]

end Diagnostic

/-! ## Programs -/

namespace Program

variable {limits : Limits} {file source : String} {refusal : Refusal}

/-- Each diagnostic of a refused program comes from one of its lines. -/
theorem exists_line_of_mem (h : parse limits file source = .error refusal) {d : Diagnostic}
    (hd : d ∈ refusal.errors) :
    ∃ line number d', (line, number) ∈ (Text.lines source.toList).zipIdx 1 ∧
      Line.parse limits.depth file number line = .error d' ∧ d = locate file number line d' := by
  obtain ⟨errors, rfl, rfl⟩ := of_parse_error h
  have hmem : d ∈ errorsOf limits.depth file ((Text.lines source.toList).zipIdx 1) :=
    List.mem_of_mem_take hd
  obtain ⟨⟨line, number⟩, hline, hd⟩ := List.mem_filterMap.1 hmem
  cases hparse : Line.parse limits.depth file number line with
  | ok found => simp [hparse] at hd
  | error d' =>
    refine ⟨line, number, d', hline, hparse, ?_⟩
    simp only [hparse, Option.some.injEq] at hd
    exact hd.symm

/-- Every diagnostic of a refused program is four aligned lines. It stands on one of the lines of
the source, at an offset within the code of the line, and it keeps the code from there on. It is
shown as the place and the message, the line set in by four spaces, a caret, and a hint that is not
empty; and the caret stands under the first character of what was kept, or behind the code. -/
theorem diagnostic_four_lines (hfile : '\n' ∉ file.toList)
    (h : parse limits file source = .error refusal) : ∀ d ∈ refusal.errors,
    ∃ (line : List Char) (number offset : Nat) (hint : String),
      (line, number) ∈ (Text.lines source.toList).zipIdx 1 ∧
      d.location = some ⟨file, number, offset + 1⟩ ∧ d.sourceLine = some (String.ofList line) ∧
      d.failure.offset = offset ∧ offset ≤ (Line.code line).length ∧
      d.remainder = some (String.ofList ((Line.code line).drop offset)) ∧
      d.failure.hint = some hint ∧ hint ≠ "" ∧
      d.render.toList.splitOn '\n' =
        [(file ++ ":" ++ Text.decimal number ++ ":" ++ Text.decimal (offset + 1) ++ ": error: " ++
            d.failure.message).toList,
          "    ".toList ++ line,
          List.replicate (4 + offset) ' ' ++ ['^'],
          ("hint: " ++ hint).toList] ∧
      (Line.code line).drop offset <+: ("    ".toList ++ line).drop (4 + offset) := by
  intro d hd
  obtain ⟨line, number, d', hmem, hparse, rfl⟩ := exists_line_of_mem h hd
  have hline : '\n' ∉ line := by
    intro hfeed
    have hlines : line ∈ Text.lines source.toList := by
      rw [← List.zipIdx_map_fst 1 (Text.lines source.toList)]
      exact List.mem_map_of_mem hmem
    exact absurd (Text.isLineEnd_of_mem_lines hlines _ hfeed) (by decide)
  obtain ⟨hd', htold⟩ := Line.told_of_parse hline hparse
  obtain ⟨offset, hoffset⟩ := Int.eq_ofNat_of_zero_le htold.nonneg
  obtain ⟨hint, hhint, hshown⟩ := htold.hint
  have hlast : offset ≤ (Line.code line).length := by
    have := htold.le_last
    omega
  refine ⟨line, number, offset, hint, hmem, ?_⟩
  rw [hd', Diagnostic.locate_eq hoffset]
  refine ⟨rfl, rfl, hoffset, hlast, ?_, hhint, hshown.1,
    Diagnostic.splitOn_render hfile hline htold.message hhint hshown, ?_⟩
  · simp [Diagnostic.remainder, hoffset, Diagnostic.textFrom]
  · obtain ⟨comment, hcomment⟩ : ∃ comment, Line.code line ++ comment = line :=
      ⟨_, List.takeWhile_append_dropWhile⟩
    have hsource : ("    ".toList ++ line).drop (4 + offset) = line.drop offset := by
      rw [← List.drop_drop]
      rfl
    refine ⟨comment, ?_⟩
    rw [hsource, ← List.drop_append_of_le_length hlast, hcomment]

/-- Two diagnostics of three lines: something left over behind a statement, and a statement that
does not begin, with a comment behind it. -/
theorem diagnostic_four_lines_leftover :
    let source := "nop 1 2\n  nop\n  = ; a"
    ∃ refusal, parse ⟨.default, 20⟩ "f" source = .error refusal ∧
      refusal.errors.length = 2 ∧
      ∀ d ∈ refusal.errors, (d.render.toList.splitOn '\n').length = 4 := by
  intro source
  have hlength : ((parse ⟨.default, 20⟩ "f" source).mapError fun r => r.errors.length) =
      .error 2 := by decide +kernel
  obtain ⟨refusal, hparse, hlength⟩ := exists_of_mapError hlength
  refine ⟨refusal, hparse, hlength, fun d hd => ?_⟩
  obtain ⟨line, number, offset, hint, -, -, -, -, -, -, -, -, hlines, -⟩ :=
    diagnostic_four_lines (by decide) hparse d hd
  rw [hlines]
  rfl

end Program

end Asm65816
