import Asm65816.Proofs.Position

/-!
# Lines joined by a separator

A line that is two lines with ` : ` between them holds the statements of the first and then those of
the second, further to the right. A colon is more than a separator: it ends the name of a label, and
some rules look for it where a statement may end. With a blank before it none of them can tell it
from the end of the line.

So up to the separator the joined line is in step with the first line (`Lockstep.sameKind`, which
keeps the kind of a failure and not its words: what is missing is told together with what stands
there instead). From the separator on it is the second line further on (`Lockstep.further`).
-/

namespace Asm65816

/-- The second text goes on with a separator and `code` where the first ends. -/
def Alignment.separated (code : List Char) : Alignment where
  shift := 0
  gap := [' ']
  rest := ':' :: code
  blanks_gap := by decide
  beginsIn_rest := Text.beginsIn_cons (by decide)
  avoids_colon := nofun

namespace Line

open Lockstep

variable {limit : Nat} {a b : List Char}

/-- A comment begins no earlier than the first semicolon. -/
theorem code_append (h : ';' ∉ a) (b : List Char) : code (a ++ b) = a ++ code b := by
  rw [code, List.takeWhile_append_of_pos]
  · rfl
  · intro ch hch
    refine decide_eq_true ?_
    rintro rfl
    exact h hch

theorem code_of_not_mem (h : ';' ∉ a) : code a = a := by
  have happend := code_append h []
  rw [List.append_nil] at happend
  exact happend.trans (List.append_nil a)

/-- The statements of a text further on are its statements, moved. -/
theorem statementsFrom_further (limit n : Nat) (cs : List Char) :
    statementsFrom limit (Cursor.mk n cs).skipBlank =
      match statementsFrom limit (Cursor.mk 0 cs).skipBlank with
      | .ok found => .ok (found.map fun (pos, s) => (pos + n, s))
      | .error f => .error (f.shift n) := by
  have hstart : (Lockstep.further n).Near ⟨0, cs⟩ ⟨n, cs⟩ :=
    Alignment.near_further_iff.2 ⟨(Nat.zero_add n).symm, rfl⟩
  obtain ⟨hskip, hend⟩ := hstart.skipBlank
  have hrun := continues_statementsFrom (Deeper.refl (Lockstep.further n) limit limit)
    (Text.beginsIn_nil _) hskip hend
  rw [statementsFrom_of_end (c := (Lockstep.further n).afterEnd _) rfl] at hrun
  generalize statementsFrom limit (Cursor.mk 0 cs).skipBlank = x,
    statementsFrom limit (Cursor.mk n cs).skipBlank = x' at hrun
  cases hrun with
  | ok found => exact congrArg Except.ok (List.append_nil _)
  | error hf => rw [hf.1]
  | excused hf => exact hf.elim

/-- From the separator on the joined line is the second line. -/
theorem statementsFrom_afterEnd (limit : Nat) (a b : List Char) :
    statementsFrom limit
        ((sameKind (.separated (' ' :: b))).afterEnd (Cursor.ofText a 0).skipBlank) =
      statementsFrom limit (Cursor.mk (a.length + 3) b).skipBlank := by
  have hread : (Cursor.mk (a.length + 2) (' ' :: b)).Reads [' '] ⟨a.length + 3, b⟩ := ⟨rfl, rfl⟩
  have hafter : (sameKind (.separated (' ' :: b))).afterEnd (Cursor.ofText a 0) =
      ⟨a.length + 1, ':' :: ' ' :: b⟩ := by
    show Cursor.mk (0 + a.length + 0 + 1) _ = _
    rw [Nat.zero_add]
    rfl
  rw [afterEnd_eq_of_reads (Cursor.reads_skipBlank _), hafter, statementsFrom_of_colon rfl,
    ← hread.skipBlank_eq (by decide)]
  rfl

/-- The statements of the first line, and then those of the second further on, or a failure of the
same kind. -/
theorem continues_join (limit : Nat) (ha : ';' ∉ a) (b : List Char) :
    (sameKind (.separated (' ' :: code b))).Continues
      (statementsFrom limit (Cursor.mk (a.length + 3) (code b)).skipBlank)
      (statements limit a) (statements limit (a ++ [' ', ':', ' '] ++ b)) := by
  have hcode : code (a ++ [' ', ':', ' '] ++ b) = a ++ ([' '] ++ ':' :: ' ' :: code b) := by
    rw [code_append]
    · simp
    · simpa using ha
  have hstart : (sameKind (.separated (' ' :: code b))).Exact (.ofText a 0)
      (.ofText (code (a ++ [' ', ':', ' '] ++ b)) 0) := ⟨rfl, hcode⟩
  obtain ⟨hskip, hend⟩ := Alignment.Near.skipBlank (.inl hstart)
  rw [statements, statements, code_of_not_mem ha, ← statementsFrom_afterEnd]
  exact continues_statementsFrom (.refl ..) (Text.beginsIn_cons List.mem_cons_self) hskip hend

theorem statements_join_of_ok {found later : List (Nat × Statement)} (ha : ';' ∉ a)
    (hfirst : statements limit a = .ok found) (hsecond : statements limit b = .ok later) :
    statements limit (a ++ [' ', ':', ' '] ++ b) =
      .ok (found ++ later.map fun (pos, s) => (pos + (a.length + 3), s)) := by
  have hjoin := continues_join limit ha b
  have hlater : statementsFrom limit (Cursor.mk 0 (code b)).skipBlank = .ok later := hsecond
  rw [statementsFrom_further, hlater, hfirst] at hjoin
  generalize statements limit (a ++ [' ', ':', ' '] ++ b) = joined at hjoin
  cases hjoin with
  | ok => exact congrArg (fun xs => Except.ok (xs ++ _)) (List.map_id' found)

theorem statements_join_of_error_left {f : Failure} (ha : ';' ∉ a)
    (hfirst : statements limit a = .error f) (b : List Char) :
    ∃ f', statements limit (a ++ [' ', ':', ' '] ++ b) = .error f' ∧ f'.kind = f.kind := by
  have hjoin := continues_join limit ha b
  rw [hfirst] at hjoin
  generalize statements limit (a ++ [' ', ':', ' '] ++ b) = joined at hjoin
  cases hjoin with
  | error hf => exact ⟨_, rfl, hf.1⟩
  | excused hf => exact hf.elim

theorem statements_join_of_error_right {found : List (Nat × Statement)} {f : Failure}
    (ha : ';' ∉ a) (hfirst : statements limit a = .ok found)
    (hsecond : statements limit b = .error f) :
    statements limit (a ++ [' ', ':', ' '] ++ b) = .error (f.shift (a.length + 3 : Nat)) := by
  have hjoin := continues_join limit ha b
  have hlater : statementsFrom limit (Cursor.mk 0 (code b)).skipBlank = .error f := hsecond
  rw [statementsFrom_further, hlater, hfirst] at hjoin
  generalize statements limit (a ++ [' ', ':', ' '] ++ b) = joined at hjoin
  cases hjoin with
  | ok => rfl

section
variable {depth : Depth} {file : String} {number : Int} {line : List Char}

theorem parse_of_statements {found : List (Nat × Statement)}
    (h : statements depth.levels line = .ok found) :
    parse depth file number line =
      .ok (found.map fun (pos, s) => ⟨s, ⟨file, number, pos + 1⟩⟩) := by
  rw [parse, h]

theorem parse_of_statements_error {f : Failure} (h : statements depth.levels line = .error f) :
    parse depth file number line = .error (.ofFailure (code line) f) := by
  rw [parse, h]

end

end Line

/-- A statement `n` columns to the right. -/
def Located.moveRight (n : Nat) (x : Located) : Located :=
  { x with location := { x.location with column := x.location.column + n } }

/-- Positions further on are columns to the right. -/
theorem map_moveRight (file : String) (number : Int) (n : Nat) (found : List (Nat × Statement)) :
    (found.map fun (pos, s) => (pos + n, s)).map
        (fun (pos, s) => (⟨s, ⟨file, number, pos + 1⟩⟩ : Located)) =
      (found.map fun (pos, s) => ⟨s, ⟨file, number, pos + 1⟩⟩).map (Located.moveRight n) := by
  rw [List.map_map, List.map_map]
  refine List.map_congr_left fun x _ => ?_
  simp only [Function.comp_apply, Located.moveRight, Located.mk.injEq, Location.mk.injEq, true_and]
  omega

/-- The outcome of a joined line, after those of its two lines: both are read, the first fails, or
only the second does. -/
inductive Joined (n : Nat) : Except Diagnostic (List Located) → Except Diagnostic (List Located) →
    Except Diagnostic (List Located) → Prop
  | ok (found later : List Located) :
      Joined n (.ok found) (.ok later) (.ok (found ++ later.map (Located.moveRight n)))
  | left {d d' : Diagnostic} {second : Except Diagnostic (List Located)} :
      d'.failure.kind = d.failure.kind → Joined n (.error d) second (.error d')
  | right {found : List Located} {d d' : Diagnostic} : d'.failure = d.failure.shift n →
      Joined n (.ok found) (.error d) (.error d')

theorem Line.joined_parse {a : List Char} (ha : ';' ∉ a) (depth : Depth) (file : String)
    (number : Int) (b : List Char) :
    Joined (a.length + 3) (Line.parse depth file number a) (Line.parse depth file number b)
      (Line.parse depth file number (a ++ [' ', ':', ' '] ++ b)) := by
  cases hfirst : Line.statements depth.levels a with
  | error f =>
    obtain ⟨f', hjoin, hkind⟩ := Line.statements_join_of_error_left ha hfirst b
    rw [Line.parse_of_statements_error hfirst, Line.parse_of_statements_error hjoin]
    exact .left hkind
  | ok found =>
    cases hsecond : Line.statements depth.levels b with
    | error f =>
      have hjoin := Line.statements_join_of_error_right ha hfirst hsecond
      rw [Line.parse_of_statements hfirst, Line.parse_of_statements_error hsecond,
        Line.parse_of_statements_error hjoin]
      exact .right rfl
    | ok later =>
      have hjoin := Line.statements_join_of_ok ha hfirst hsecond
      rw [Line.parse_of_statements hfirst, Line.parse_of_statements hsecond,
        Line.parse_of_statements hjoin, List.map_append, map_moveRight]
      exact .ok _ _

/-- Joining lines by a separator is concatenation. The joined line is read exactly when both lines
are, and then it has the statements of the first and those of the second moved to the right. If the
first line fails, so does the joined line, with a failure of the same kind; and if only the second
fails, with the same failure further on. -/
theorem Line.parse_join {a : List Char} (ha : ';' ∉ a) (depth : Depth) (file : String)
    (number : Int) (b : List Char) :
    let first := Line.parse depth file number a
    let second := Line.parse depth file number b
    let joined := Line.parse depth file number (a ++ [' ', ':', ' '] ++ b)
    ((∃ found, joined = .ok found) ↔
      (∃ found, first = .ok found) ∧ ∃ later, second = .ok later) ∧
    (∀ found later, first = .ok found → second = .ok later →
      joined = .ok (found ++ later.map (Located.moveRight (a.length + 3)))) ∧
    (∀ d, first = .error d →
      ∃ d', joined = .error d' ∧ d'.failure.kind = d.failure.kind) ∧
    ∀ found d, first = .ok found → second = .error d →
      ∃ d', joined = .error d' ∧ d'.failure = d.failure.shift (a.length + 3 : Nat) := by
  intro first second joined
  have hjoined : Joined (a.length + 3) first second joined :=
    Line.joined_parse ha depth file number b
  generalize first = x, second = y, joined = z at hjoined
  cases hjoined with
  | ok found later => simp
  | left hkind => simp [hkind]
  | right hfailure => simp [hfailure]

/-- A label and an instruction before two others; a line that ends in an open parenthesis before one
that is read; and a line that is read before one that is not. -/
theorem Line.parse_join_label :
    let parse := Line.parse .default "f" 1
    let found : List Located :=
      [⟨.label (.named "a"), ⟨"f", 1, 1⟩⟩, ⟨.instruction ⟨"nop", none, .implied⟩, ⟨"f", 1, 4⟩⟩]
    let later : List Located :=
      [⟨.instruction ⟨"b", none, .implied⟩, ⟨"f", 1, 1⟩⟩,
        ⟨.instruction ⟨"rts", none, .implied⟩, ⟨"f", 1, 5⟩⟩]
    (';' ∉ "a: nop".toList ∧ parse "a: nop".toList = .ok found ∧
      parse "b : rts ; c".toList = .ok later ∧
      parse ("a: nop".toList ++ [' ', ':', ' '] ++ "b : rts ; c".toList) =
        .ok (found ++ later.map (Located.moveRight 9))) ∧
    (';' ∉ "lda (".toList ∧ ∃ d d', parse "lda (".toList = .error d ∧
      parse ("lda (".toList ++ [' ', ':', ' '] ++ "b : rts ; c".toList) = .error d' ∧
      d'.failure.kind = d.failure.kind) ∧
    ∃ d d', parse "lda (".toList = .error d ∧
      parse ("a: nop".toList ++ [' ', ':', ' '] ++ "lda (".toList) = .error d' ∧
      d'.failure = d.failure.shift 9 := by
  intro parse found later
  have hfirst : parse "a: nop".toList = .ok found := by decide +kernel
  have hsecond : parse "b : rts ; c".toList = .ok later := by decide +kernel
  have hsemi : ';' ∉ "a: nop".toList := by decide +kernel
  have hopen : ';' ∉ "lda (".toList := by decide +kernel
  obtain ⟨d, hd⟩ : ∃ d, parse "lda (".toList = .error d := by
    have hnone : (parse "lda (".toList).toOption = none := by decide +kernel
    cases h : parse "lda (".toList with
    | error d => exact ⟨d, rfl⟩
    | ok found =>
      rw [h] at hnone
      cases hnone
  have hjoin := (Line.parse_join hsemi .default "f" 1 "b : rts ; c".toList).2.1 found later
    hfirst hsecond
  obtain ⟨d₁, hd₁, hkind⟩ := (Line.parse_join hopen .default "f" 1 "b : rts ; c".toList).2.2.1 d hd
  obtain ⟨d₂, hd₂, hfailure⟩ :=
    (Line.parse_join hsemi .default "f" 1 "lda (".toList).2.2.2 found d hfirst hd
  exact ⟨⟨hsemi, hfirst, hsecond, hjoin⟩, ⟨hopen, d, d₁, hd, hd₁, hkind⟩,
    d, d₂, hd, hd₂, hfailure⟩

end Asm65816
