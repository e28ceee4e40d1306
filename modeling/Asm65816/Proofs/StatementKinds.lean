import Asm65816.Proofs.FailureReach
import Asm65816.Proofs.OperandDecision

/-!
# The kind of a statement is told by what follows its name

The kinds of a statement are tried in order, and the keyword comes first although any name may turn
out to be a label, an assignment or an instruction. A reader of the assembler looks at what follows
the name instead (`KindDecided`): a colon right after it, an equals sign after blanks, and for the
word `org` an address.

The order does no harm because no expression begins with a colon or an equals sign, so the keyword
refuses both. Nor is a failed assignment rescued as an instruction: no operand begins with an equals
sign, and without a line feed no statement ends before one.

Assignments can also be read on their own. Both ways read the same ones, and where an assignment
fails for good the statement fails with the same failure.
-/

namespace Asm65816

open Text (Avoids)

namespace Rule

variable {α : Type} {r : Rule α} {c : Cursor} {f : Failure}

/-- A fatal failure is not told in other words. -/
theorem Aborts.of_within {reason : Reason} (h : (r.within reason false).Aborts c f) :
    r.Aborts c f := by
  obtain ⟨hrun, hfatal⟩ := h
  obtain ⟨g, hg, rfl⟩ := run_within_error hrun
  cases hgfatal : g.fatal with
  | true =>
    have hwithin : g.within reason false = g := by rw [Failure.within, if_pos hgfatal]
    rw [hwithin]
    exact ⟨hg, hgfatal⟩
  | false =>
    rw [Failure.within, hgfatal] at hfatal
    cases hfatal

end Rule

theorem Token.tentative_identifier : Token.identifier.Tentative := fun c f h => by
  simp only [identifier] at h
  split at h
  · cases h
    rfl
  · split at h
    · cases h
    · cases h
      rfl

namespace Grammar

open Rule

variable {limit : Nat} {c d m : Cursor} {name : String} {e : Expr} {s : Statement} {f : Failure}

/-! ## After a name -/

section
variable (hname : Token.identifier.run c = .ok (name, m))
include hname

/-- Where no expression follows the name, it is no keyword. -/
theorem refuses_keyword_of_avoids (h : Avoids opensExpression m.skipBlank.rest) :
    (keyword limit).Refuses c :=
  (refuses_keyword_iff hname).2 fun _ => refuses_expression h

/-- A name and a colon right after it declare a label, whatever the name. -/
theorem run_statement_of_colon (h : m.peek? = some ':') :
    (statement limit).run c = .ok (.label (.named name), (m.advance 1).skipBlank) := by
  have hm : m.Settled := avoids_of_peek? h rfl
  refine run_choice_tail (refuses_keyword_of_avoids hname ?_) (run_choice_head ?_)
  · rw [hm.skipBlank]
    exact avoids_of_peek? h rfl
  · exact run_labelDeclaration_eq_ok.2
      (.inr ⟨name, m, _, rfl, hname, Cursor.reads_advance_one h, rfl⟩)

/-- The word `org` and an expression are the keyword and its address. -/
theorem run_statement_of_org (horg : IsOrg name.toList) (h : (value limit).run m = .ok (e, d)) :
    (statement limit).run c = .ok (.org e, d) :=
  run_choice_head (run_keyword_eq_ok.2 ⟨name, e, m, rfl, hname, horg, h⟩)

/-- An equals sign begins no operand, and it does not end a statement. -/
theorem read?_instruction_of_equals (hn : '\n' ∉ m.rest) (h : m.skipBlank.peek? = some '=') :
    (instruction limit).read? c = none := by
  have hoperand : (operand limit).read? m = none := by
    refine read?_operand_of_avoids (avoids_of_peek? h rfl) ?_ ?_ ?_
    · exact read?_bind_eq_none (refuses_token (fun _ _ => rfl) (avoids_of_peek? h rfl)).read?
    · exact (refuses_enclosed (avoids_of_peek? h rfl)).read?
    · exact Cursor.endsStatement_eq_false hn h (by decide)
  refine Option.eq_none_iff_forall_ne_some.2 fun x hx => ?_
  obtain ⟨_, size, o, m', m'', -, hname', hsize, ho⟩ := run_instruction_eq_ok.1 (read?_eq_some.1 hx)
  rw [hname] at hname'
  cases hname'
  rcases run_sizeSuffix_eq_ok.1 hsize with ⟨-, rfl, -⟩ | ⟨_, _, _, -, hdot, -⟩
  · rw [read?_of_ok ho] at hoperand
    cases hoperand
  · rw [hdot.peek?] at h
    cases h

/-- A statement with a name is a keyword, a label, an assignment or an instruction, and each kind
has its mark: which one was read is known from what follows the name. -/
theorem statement_cases (h : (statement limit).run c = .ok (s, d)) :
    (IsOrg name.toList ∧ ∃ e, (value limit).run m = .ok (e, d) ∧ s = .org e) ∨
    (m.peek? = some ':' ∧ s = .label (.named name)) ∨
    (m.skipBlank.peek? = some '=' ∧ ∃ e, s = .assignment name e) ∨
    ((instruction limit).run c = .ok (s, d) ∧ ∃ size o, s = .instruction ⟨name, size, o⟩) := by
  obtain ⟨rule, hrule, h⟩ := run_choice_ok h
  simp only [List.mem_cons, List.not_mem_nil, or_false] at hrule
  rcases hrule with rfl | rfl | rfl | rfl
  · obtain ⟨_, e, _, rfl, hname', horg, he⟩ := run_keyword_eq_ok.1 h
    rw [hname] at hname'
    cases hname'
    exact .inl ⟨horg, e, he, rfl⟩
  · rcases run_labelDeclaration_eq_ok.1 h with ⟨_, _, -, hlabel, -⟩ | ⟨_, _, _, rfl, hname', hr, -⟩
    · exact absurd (Token.marker_of_relativeLabel hlabel) (Token.not_marker_of_identifier hname)
    · rw [hname] at hname'
      cases hname'
      exact .inr (.inl ⟨(Cursor.reads_cons.1 hr).1, rfl⟩)
  · obtain ⟨_, e, _, _, rfl, hname', htakes, -⟩ := run_assignment_eq_ok.1 h
    rw [hname] at hname'
    cases hname'
    exact .inr (.inr (.inl ⟨htakes.peek?, e, rfl⟩))
  · obtain ⟨_, size, o, _, _, rfl, hname', -⟩ := run_instruction_eq_ok.1 h
    rw [hname] at hname'
    cases hname'
    exact .inr (.inr (.inr ⟨h, size, o, rfl⟩))

/-- What a statement with a name comes to, by what follows the name. Each field takes the text that
those before it leave. -/
structure KindDecided (limit : Nat) (name : String) (m : Cursor)
    (outcome : Except Failure (Statement × Cursor)) : Prop where
  label : m.peek? = some ':' →
    outcome = .ok (.label (.named name), (m.advance 1).skipBlank)
  assignment : m.peek? ≠ some ':' → m.skipBlank.peek? = some '=' →
    ∀ s d, outcome = .ok (s, d) → ∃ e, s = .assignment name e
  keyword : m.peek? ≠ some ':' → m.skipBlank.peek? ≠ some '=' → IsOrg name.toList →
    ∀ e d, (value limit).run m = .ok (e, d) → outcome = .ok (.org e, d)
  instruction : m.peek? ≠ some ':' → m.skipBlank.peek? ≠ some '=' →
    ¬ (IsOrg name.toList ∧ ∃ x, (value limit).run m = .ok x) →
    ∀ s d, outcome = .ok (s, d) → ∃ size o, s = .instruction ⟨name, size, o⟩

theorem kindDecided (hn : '\n' ∉ m.rest) :
    KindDecided limit name m ((statement limit).run c) where
  label := run_statement_of_colon hname
  assignment hcolon hequals s d h := by
    rcases statement_cases hname h with ⟨-, e, he, -⟩ | ⟨hlabel, -⟩ | ⟨-, hs⟩ | ⟨hinstruction, -⟩
    · exact absurd (refuses_expression (avoids_of_peek? hequals rfl)) (not_refuses_of_ok he)
    · exact absurd hlabel hcolon
    · exact hs
    · have hnone : (instruction limit).read? c = none :=
        read?_instruction_of_equals hname hn hequals
      rw [read?_of_ok hinstruction] at hnone
      cases hnone
  keyword _ _ horg _ _ h := run_statement_of_org hname horg h
  instruction hcolon hequals hkeyword s d h := by
    rcases statement_cases hname h with ⟨horg, e, he, -⟩ | ⟨hlabel, -⟩ | ⟨hassignment, -⟩ | ⟨-, hs⟩
    · exact absurd ⟨horg, _, he⟩ hkeyword
    · exact absurd hlabel hcolon
    · exact absurd hassignment hequals
    · exact hs

end

/-! ## Assignments on their own -/

/-- No colon stands right after a name that an equals sign follows. -/
theorem avoids_colon_of_takes (h : m.Takes '=' d) : Avoids ([':'].contains) m.rest := by
  refine avoids_singleton fun hcolon => ?_
  have hm : m.Settled := avoids_of_peek? hcolon rfl
  have hpeek := h.peek?
  rw [hm.skipBlank, hcolon] at hpeek
  cases hpeek

/-- An assignment is read as a statement: the kinds before it refuse. -/
theorem run_statement_of_assignment (h : (assignmentStatement limit).run c = .ok (s, d)) :
    (statement limit).run c = .ok (s, d) := by
  obtain ⟨name, e, m, m', -, hname, htakes, -⟩ := run_assignment_eq_ok.1 h
  have hcolon := avoids_colon_of_takes htakes
  refine run_choice_tail (refuses_keyword_of_avoids hname (avoids_of_peek? htakes.peek? rfl)) ?_
  exact run_choice_tail (refuses_labelDeclaration hname hcolon) (run_choice_head h)

/-- Both ways read the same assignments. -/
theorem run_assignment_iff : (assignmentStatement limit).run c = .ok (s, d) ↔
    (statement limit).run c = .ok (s, d) ∧ ∃ name e, s = .assignment name e := by
  refine ⟨fun h => ⟨run_statement_of_assignment h, ?_⟩, ?_⟩
  · obtain ⟨name, e, _, _, hs, -⟩ := run_assignment_eq_ok.1 h
    exact ⟨name, e, hs⟩
  · rintro ⟨h, name, e, rfl⟩
    obtain ⟨rule, hrule, h⟩ := run_choice_ok h
    simp only [List.mem_cons, List.not_mem_nil, or_false] at hrule
    rcases hrule with rfl | rfl | rfl | rfl
    · obtain ⟨_, _, _, hs, -⟩ := run_keyword_eq_ok.1 h
      cases hs
    · rcases run_labelDeclaration_eq_ok.1 h with ⟨_, _, hs, -⟩ | ⟨_, _, _, hs, -⟩ <;> cases hs
    · exact h
    · obtain ⟨_, _, _, _, _, hs, -⟩ := run_instruction_eq_ok.1 h
      cases hs

/-- An assignment fails for good only in its value. -/
theorem aborts_value_of_assignment (h : (assignmentStatement limit).Aborts c f) :
    ∃ name m d, Token.identifier.run c = .ok (name, m) ∧ m.Takes '=' d ∧
      (value limit).Aborts d f := by
  obtain ⟨hrun, hfatal⟩ := h
  rcases run_bind_eq_error.1 (run_map_error hrun) with hrun | ⟨name, m, hname, hrun⟩
  · rw [Token.tentative_identifier hrun] at hfatal
    cases hfatal
  · rcases run_bind_eq_error.1 hrun with hrun | ⟨ch, d, htoken, hrun⟩
    · rw [tentative_token _ _ (fun _ _ => rfl) hrun] at hfatal
      cases hfatal
    · obtain ⟨hch, htakes⟩ := run_token_eq_ok.1 htoken
      obtain rfl := List.mem_singleton.1 hch
      exact ⟨name, m, d, hname, htakes, .of_within ⟨run_map_error hrun, hfatal⟩⟩

/-- Where an assignment fails for good, so does the statement. -/
theorem aborts_statement_of_aborts_assignment (h : (assignmentStatement limit).Aborts c f) :
    (statement limit).Aborts c f := by
  obtain ⟨name, m, d, hname, htakes, hvalue⟩ := aborts_value_of_assignment h
  exact aborts_statement_of_assignment hname (avoids_colon_of_takes htakes) htakes hvalue

end Grammar

/-! ## Whole texts -/

namespace Statement

open Grammar

/-- The kind of a statement is decided by what follows its name, in every text without a line feed
and at every place where a name stands. Assignments that are read on their own are the statements
that are assignments, and a fatal failure of one is the failure of the statement. -/
theorem kind_decided (depth : Depth) :
    (∀ (text : List Char) (pos : Nat) (name : String) (m : Cursor), '\n' ∉ text →
      Token.identifier.run (.ofText text pos) = .ok (name, m) →
      KindDecided depth.levels name m ((statement depth.levels).run (.ofText text pos))) ∧
    (∀ (text : String) (s : Statement) (rest : String),
      parseAssignment depth text = .ok (s, rest) ↔
        parse depth text = .ok (s, rest) ∧ ∃ name e, s = .assignment name e) ∧
    ∀ (text : String) (d : Diagnostic), parseAssignment depth text = .error d →
      d.failure.fatal = true → parse depth text = .error d := by
  refine ⟨fun text pos name m hn hname => ?_, fun text s rest => ?_, fun text d h hfatal => ?_⟩
  · refine kindDecided hname fun hmem => hn ?_
    obtain ⟨-, hr, -⟩ := Token.run_identifier_eq_ok.1 hname
    refine List.mem_of_mem_drop (i := pos) ?_
    have hrest : text.drop pos = name.toList ++ m.rest := hr.1
    rw [hrest]
    exact List.mem_append_right _ hmem
  · unfold parseAssignment parse
    rw [Rule.parse_eq_ok, Rule.parse_eq_ok]
    refine ⟨?_, ?_⟩
    · rintro ⟨d, hrun, hrest⟩
      obtain ⟨hrun, hs⟩ := run_assignment_iff.1 hrun
      exact ⟨⟨d, hrun, hrest⟩, hs⟩
    · rintro ⟨⟨d, hrun, hrest⟩, hs⟩
      exact ⟨d, run_assignment_iff.2 ⟨hrun, hs⟩, hrest⟩
  · obtain ⟨f, hrun, rfl⟩ := Rule.parse_error_iff.1 h
    obtain ⟨hrun, -⟩ := aborts_statement_of_aborts_assignment ⟨hrun, hfatal⟩
    exact Rule.parse_error_iff.2 ⟨f, hrun, rfl⟩

/-- A label that spells the keyword, an assignment, the keyword, an instruction, and an assignment
that fails for good. -/
theorem kind_decided_of_names :
    let run (text : String) := (statement Depth.default.levels).run (.ofText text.toList 0)
    let five : Expr := .number ⟨5, .unsized, by decide⟩
    run "org: 5" = .ok (.label (.named "org"), ⟨5, ['5']⟩) ∧
    (∀ s d, run "x =1 :nop" = .ok (s, d) → ∃ e, s = .assignment "x" e) ∧
    run "Org 5" = .ok (.org five, ⟨5, []⟩) ∧
    (∀ s d, run "org #5" = .ok (s, d) → ∃ size o, s = .instruction ⟨"org", size, o⟩) ∧
    (∃ s, parse .default " a = 5 ;c" = .ok (s, ";c") ∧ ∃ name e, s = .assignment name e) ∧
    ∃ d, parse .default "a = $100000000" = .error d ∧ d.failure.fatal = true := by
  intro run five
  obtain ⟨hkind, hassignment, hfatal⟩ := kind_decided .default
  have hvalue : (value Depth.default.levels).run ⟨3, " 5".toList⟩ = .ok (five, ⟨5, []⟩) := by
    decide +kernel
  have hfails : (value Depth.default.levels).run ⟨3, " #5".toList⟩ |>.toOption.isNone := by
    decide +kernel
  refine ⟨(hkind "org: 5".toList 0 "org" ⟨3, ": 5".toList⟩ (by decide) (by decide +kernel)).label
      (by decide),
    (hkind "x =1 :nop".toList 0 "x" ⟨1, " =1 :nop".toList⟩ (by decide)
      (by decide +kernel)).assignment (by decide) (by decide),
    (hkind "Org 5".toList 0 "Org" ⟨3, " 5".toList⟩ (by decide) (by decide +kernel)).keyword
      (by decide) (by decide) (by decide) _ _ hvalue,
    (hkind "org #5".toList 0 "org" ⟨3, " #5".toList⟩ (by decide) (by decide +kernel)).instruction
      (by decide) (by decide) ?_, ⟨.assignment "a" five, ?_⟩, ?_⟩
  · rintro ⟨-, x, hx⟩
    rw [hx] at hfails
    cases hfails
  · exact (hassignment " a = 5 ;c" (.assignment "a" five) ";c").1 (by decide +kernel)
  · have hrun : (parseAssignment .default "a = $100000000").mapError (·.failure.fatal) =
        .error true := by decide +kernel
    obtain ⟨d, hd, hd'⟩ := exists_of_mapError hrun
    exact ⟨d, hfatal _ d hd hd', hd'⟩

end Statement

end Asm65816
