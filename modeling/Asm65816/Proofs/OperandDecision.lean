import Asm65816.Proofs.FatalFailures

/-!
# The choice of an operand by looking ahead

Ten shapes are tried in order where an operand stands, and six of them may begin with a parenthesis.
A reader of the assembler does not try them: the first character that is no blank tells which parts
can stand there, and what follows those parts tells the shape. `Grammar.predict` is this decision,
and it agrees with the ordered choice.

The reason is that after a bracket and its expression no shape fails fatally (`Rule.Tentative`): a
shape that did not match has given way to the next one, and a bracket that failed fatally fails all
the shapes that begin with it.
-/

namespace Asm65816

open Text (Avoids isBlank)

namespace Cursor

variable {c : Cursor} {ch : Char}

/-- Without a line feed only the separator and a comment end a statement before the text does. -/
theorem endsStatement_eq_false (hn : '\n' ∉ c.rest) (hpk : c.skipBlank.peek? = some ch)
    (hch : ch ≠ ':' ∧ ch ≠ ';') : c.endsStatement = false := by
  have hblanks : '\n' ∉ c.rest.takeWhile isBlank := fun h =>
    hn ((List.takeWhile_prefix isBlank).subset h)
  simp [endsStatement, hpk, hblanks, hch]

end Cursor

/-! ## Rules that match or do not -/

namespace Rule

variable {α β : Type} {r : Rule α} {rs : List (Rule α)} {c d : Cursor} {what : String}

/-- What a rule gives where it matches. -/
def read? (r : Rule α) (c : Cursor) : Option (α × Cursor) := (r.run c).toOption

theorem read?_of_ok {x : α × Cursor} (h : r.run c = .ok x) : r.read? c = some x := by
  rw [read?, h]
  rfl

theorem read?_of_error {f : Failure} (h : r.run c = .error f) : r.read? c = none := by
  rw [read?, h]
  rfl

theorem read?_eq_some {x : α × Cursor} : r.read? c = some x ↔ r.run c = .ok x :=
  ⟨eq_ok_of_toOption, read?_of_ok⟩

theorem Refuses.read? (h : r.Refuses c) : r.read? c = none := by
  obtain ⟨f, hf, -⟩ := h
  exact read?_of_error hf

/-- A sequence matches only where its first part does. -/
theorem read?_bind_eq_none {k : α → Rule β} (h : r.read? c = none) : (r >>= k).read? c = none := by
  cases hrun : r.run c with
  | ok x =>
    rw [read?_of_ok hrun] at h
    cases h
  | error f => exact read?_of_error (run_bind_eq_error.2 (.inl hrun))

/-- An alternative that gives way leaves the choice to the others. -/
theorem read?_choice_tail (h : r.Refuses c) :
    (choice what (r :: rs)).read? c = (choice what rs).read? c := by
  refine Option.ext fun x => ?_
  rw [read?_eq_some, read?_eq_some, run_choice_cons_eq_ok]
  refine ⟨?_, fun hx => .inr ⟨h, hx⟩⟩
  rintro (hx | ⟨-, hx⟩)
  · exact absurd h (not_refuses_of_ok hx)
  · exact hx

/-- A choice matches only where one of its alternatives does. -/
theorem read?_choice_eq_none (h : ∀ r ∈ rs, r.read? c = none) :
    (choice what rs).read? c = none := by
  refine Option.eq_none_iff_forall_ne_some.2 fun x hx => ?_
  obtain ⟨r, hr, hrun⟩ := run_choice_ok (read?_eq_some.1 hx)
  have hnone := h r hr
  rw [read?_of_ok hrun] at hnone
  cases hnone

/-- No failure of the rule forbids another alternative. -/
def Tentative (r : Rule α) : Prop := ∀ ⦃c : Cursor⦄ ⦃f : Failure⦄, r.run c = .error f →
  f.fatal = false

/-- A rule whose failures are not fatal gives way wherever it does not match. -/
theorem Tentative.refuses (hr : r.Tentative) (h : r.read? c = none) : r.Refuses c := by
  cases hrun : r.run c with
  | ok x =>
    rw [read?_of_ok hrun] at h
    cases h
  | error f => exact ⟨f, hrun, hr hrun⟩

theorem tentative_pure (a : α) : (pure a : Rule α).Tentative := nofun

theorem tentative_skipBlank : skipBlank.Tentative := nofun

theorem Tentative.bind {k : α → Rule β} (hr : r.Tentative) (hk : ∀ a, (k a).Tentative) :
    (r >>= k).Tentative := by
  intro c f h
  rcases run_bind_eq_error.1 h with h | ⟨a, d, -, h⟩
  · exact hr h
  · exact hk a h

theorem Tentative.lexeme (hr : r.Tentative) : (lexeme r).Tentative :=
  hr.bind fun a => tentative_skipBlank.bind fun _ => tentative_pure a

theorem tentative_char (accepted : List Char) (what : String) {report : Reason → Int → Failure}
    (hreport : ∀ reason offset, (report reason offset).fatal = false) :
    (char accepted what report).Tentative := by
  intro c f h
  simp only [char] at h
  split at h
  · cases h
    exact hreport ..
  · split at h
    · cases h
    · cases h
      exact hreport ..

theorem tentative_token (accepted : List Char) (what : String) {report : Reason → Int → Failure}
    (hreport : ∀ reason offset, (report reason offset).fatal = false) :
    (token accepted what report).Tentative :=
  tentative_skipBlank.bind fun _ => (tentative_char accepted what hreport).lexeme

end Rule

namespace Grammar

open Rule

variable {limit : Nat} {c d m q : Cursor} {e v : Expr} {ch : Char}

/-! ## The decision -/

/-- An expression outside all brackets: with a comma and another expression after it the two of
them, else the first one. A fatal failure after the comma leaves nothing to fall back on. -/
def predictValue (limit : Nat) (c : Cursor) : Option (Operand × Cursor) :=
  match (value limit).read? c with
  | none => none
  | some (e, r) =>
    if r.peek? = some ',' then
      match (value limit).run (r.advance 1) with
      | .ok (f, d) => some (.valued (.move f) e, d)
      | .error g => if g.fatal then none else some (.valued .address e, r)
    else some (.valued .address e, r)

/-- What begins with a parenthesis: a closed group, with `,y` or an operator after it or neither,
or an expression with a register after it. -/
def predictGroup (limit : Nat) (c : Cursor) : Option (Operand × Cursor) :=
  match (enclosed limit '(' ')').read? c with
  | some (e, q) =>
    match (indexedBy 'y').read? q with
    | some (_, d) => some (.valued .indirectY e, d)
    | none =>
      if q.peek?.any isOperator then predictValue limit c else some (.valued .indirect e, q)
  | none =>
    match (enclosedIndexed limit 'x').read? c with
    | some (e, d) => some (.valued .xIndirect e, d)
    | none =>
      match (enclosedIndexed limit 's').read? c with
      | some (e, q) => ((indexedBy 'y').read? q).map fun (_, d) => (.valued .stackIndirectY e, d)
      | none => none

/-- What begins with a bracket. -/
def predictBracket (limit : Nat) (c : Cursor) : Option (Operand × Cursor) :=
  match (enclosed limit '[' ']').read? c with
  | none => none
  | some (e, q) =>
    match (indexedBy 'y').read? q with
    | some (_, d) => some (.valued .longIndirectY e, d)
    | none => some (.valued .longIndirect e, q)

/-- The operand at the cursor, decided by looking ahead. -/
def predict (limit : Nat) (c : Cursor) : Option (Operand × Cursor) :=
  if c.skipBlank.peek? = some '#' then
    ((value limit).read? (c.skipBlank.advance 1)).map fun (e, d) => (.valued .immediate e, d)
  else if c.skipBlank.peek? = some '[' then predictBracket limit c
  else if c.skipBlank.peek? = some '(' then predictGroup limit c
  else if ((value limit).read? c).isSome then predictValue limit c
  else if c.endsStatement then some (.implied, c.skipBlank)
  else none

/-! ## Parts -/

theorem tentative_needed (ch : Char) : (needed ch).Tentative :=
  tentative_token _ _ fun _ _ => rfl

theorem tentative_registerLetter (letter : Char) : (registerLetter letter).Tentative := by
  intro c f h
  simp only [registerLetter] at h
  split at h
  · cases h
  · cases h
    rfl

theorem tentative_indexedBy (letter : Char) : (indexedBy letter).Tentative :=
  (tentative_needed ',').bind fun _ =>
    tentative_skipBlank.bind fun _ => (tentative_registerLetter letter).lexeme

/-- After the bracket and its expression a group with a register gives way if it does not match. -/
theorem refuses_enclosedIndexed_of_opened {letter : Char}
    (hopen : (opened limit '(').run c = .ok (e, m))
    (h : (enclosedIndexed limit letter).read? c = none) :
    (enclosedIndexed limit letter).Refuses c := by
  have htail : Rule.Tentative (do indexedBy letter; let _ ← needed ')'; pure e) :=
    (tentative_indexedBy letter).bind fun _ => (tentative_needed ')').bind fun _ =>
      tentative_pure e
  refine refuses_bind hopen (htail.refuses ?_)
  refine Option.eq_none_iff_forall_ne_some.2 fun x hx => ?_
  have hrun : (enclosedIndexed limit letter).run c = .ok x :=
    run_bind_eq_ok.2 ⟨e, m, hopen, read?_eq_some.1 hx⟩
  rw [read?_of_ok hrun] at h
  cases h

/-- Where an expression begins with a parenthesis, a closed group stands. -/
theorem exists_enclosed_of_value (hpk : c.skipBlank.peek? = some '(')
    (h : (value limit).run c = .ok (e, d)) :
    ∃ x, (enclosed limit '(' ')').run c = .ok x := by
  rw [value, expression_eq_sum] at h
  obtain ⟨_, _, hterm, -⟩ := run_chain_eq_ok.1 h
  obtain ⟨v, q, hatom, -⟩ := run_chain_eq_ok.1 hterm
  rw [run_atom_eq] at hatom
  obtain ⟨rule, hrule, hrun⟩ := run_choice_ok hatom
  have hno := not_refuses_of_ok hrun
  simp only [List.mem_cons, List.not_mem_nil, or_false] at hrule
  rcases hrule with rfl | rfl | rfl | rfl | rfl
  · obtain ⟨i, m, m', hi, hopen, hinner, hclose⟩ := run_group_eq_ok.1 hrun
    have hopened : (opened limit '(').run c = .ok (v, m') :=
      run_opened_eq_ok.2 ⟨i, m, hi, Cursor.takes_skipBlank.1 hopen, hinner⟩
    exact ⟨(v, q), run_enclosed_eq_ok.2 ⟨m', hopened, hclose⟩⟩
  · exact absurd (refuses_numeral (Token.refuses_decimal (avoids_of_peek? hpk rfl))) hno
  · exact absurd (refuses_hexadecimal_of_peek? hpk (by decide)) hno
  · exact absurd (refuses_call_of_avoids (avoids_of_peek? hpk rfl)) hno
  · exact absurd (refuses_reference (avoids_of_peek? hpk rfl) (avoids_of_peek? hpk rfl)) hno

/-! ## Outside all brackets -/

/-- Blanks after an expression have been read with it. -/
theorem settled_of_value (h : (value limit).run c = .ok (e, d)) : d.Settled :=
  (faithful limit limit h).1

/-- Where an expression stands or fails for good, the comma after it decides. -/
theorem read?_choice_of_value {rs : List (Rule Operand)} {what : String}
    (h : ¬ (value limit).Refuses c) :
    (choice what (move limit :: address limit :: rs)).read? c = predictValue limit c := by
  unfold predictValue
  cases hrun : (value limit).run c with
  | error f =>
    have hvalue : (value limit).Aborts c f := by
      refine ⟨hrun, ?_⟩
      cases hf : f.fatal with
      | true => rfl
      | false => exact absurd ⟨f, hrun, hf⟩ h
    rw [read?_of_error hrun]
    exact read?_of_error (aborts_choice_head (hvalue.bind _)).1
  | ok x =>
    obtain ⟨e, r⟩ := x
    have hr := settled_of_value hrun
    have haddress : (address limit).run c = .ok (.valued .address e, r) :=
      run_shape_eq_ok.2 ⟨e, rfl, hrun⟩
    simp only [read?_of_ok hrun]
    by_cases hcomma : r.peek? = some ','
    · have htakes : r.Takes ',' (r.advance 1).skipBlank :=
        Cursor.takes_iff_peek?.2 (by rw [hr.skipBlank]; exact ⟨hcomma, rfl⟩)
      have hneeded : (needed ',').run r = .ok (',', (r.advance 1).skipBlank) :=
        run_needed_eq_ok.2 ⟨rfl, htakes⟩
      rw [if_pos hcomma, value, ← run_expression_skipBlank, ← value]
      cases hsecond : (value limit).run (r.advance 1).skipBlank with
      | ok y =>
        obtain ⟨f, d⟩ := y
        exact read?_of_ok (run_choice_head
          (run_move_eq_ok.2 ⟨e, f, r, _, rfl, hrun, htakes, hsecond⟩))
      | error g =>
        cases hg : g.fatal with
        | true =>
          have hmove : (move limit).Aborts c g := aborts_bind hrun
            (aborts_bind hneeded ((Aborts.within ⟨hsecond, hg⟩ _ _).bind _))
          rw [read?_of_error (aborts_choice_head hmove).1]
          simp only [hg, if_true]
        | false =>
          have hrefuses : (value limit).Refuses (r.advance 1).skipBlank := ⟨g, hsecond, hg⟩
          have hmove : (move limit).Refuses c :=
            refuses_bind hrun (refuses_bind hneeded ((hrefuses.within _).bind _))
          rw [read?_of_ok (run_choice_tail hmove (run_choice_head haddress))]
          simp only [hg, Bool.false_eq_true, if_false]
    · have hmove : (move limit).Refuses c := by
        refine refuses_bind hrun ((refuses_needed ?_).bind _)
        rw [hr.skipBlank]
        exact avoids_singleton hcomma
      rw [if_neg hcomma]
      exact read?_of_ok (run_choice_tail hmove (run_choice_head haddress))

/-! ## Where no shape matches -/

theorem read?_implied_eq_none (h : c.endsStatement = false) : implied.read? c = none := by
  refine Option.eq_none_iff_forall_ne_some.2 fun x hx => ?_
  obtain ⟨-, hend, -⟩ := run_implied_eq_ok.1 (read?_eq_some.1 hx)
  rw [h] at hend
  cases hend

/-- Without its parts no shape matches. -/
theorem read?_operand_eq_none (hgroup : (enclosed limit '(' ')').read? c = none)
    (hx : (enclosedIndexed limit 'x').read? c = none) (hvalue : (value limit).read? c = none)
    (himmediate : (immediate limit).read? c = none)
    (hbracket : (enclosed limit '[' ']').read? c = none)
    (hs : (stackIndirectY limit).read? c = none) (hend : c.endsStatement = false) :
    (operand limit).read? c = none := by
  refine read?_choice_eq_none ?_
  simp only [List.mem_cons, List.not_mem_nil, or_false, forall_eq_or_imp, forall_eq]
  exact ⟨read?_bind_eq_none hgroup, read?_bind_eq_none hgroup, read?_bind_eq_none hx,
    read?_bind_eq_none hvalue, read?_bind_eq_none hvalue, himmediate,
    read?_bind_eq_none hbracket, read?_bind_eq_none hbracket, hs, read?_implied_eq_none hend⟩

/-- Where neither a parenthesis nor an expression begins, the marks and the bracket are left. -/
theorem read?_operand_of_avoids (h : Avoids opensExpression c.skipBlank.rest)
    (himmediate : (immediate limit).read? c = none)
    (hbracket : (enclosed limit '[' ']').read? c = none) (hend : c.endsStatement = false) :
    (operand limit).read? c = none := by
  have hparen : Avoids (['('].contains) c.skipBlank.rest := by
    refine avoids_singleton fun hpk => ?_
    cases h '(' hpk
  exact read?_operand_eq_none (refuses_enclosed hparen).read? (refuses_enclosedIndexed hparen).read?
    (refuses_expression h).read? himmediate hbracket
    ((refuses_enclosedIndexed hparen).bind _).read? hend

/-! ## By the first character -/

theorem read?_operand_of_mark (hn : '\n' ∉ c.rest) (hpk : c.skipBlank.peek? = some '#') :
    (operand limit).read? c = ((value limit).read? (c.skipBlank.advance 1)).map
      fun (e, d) => (.valued .immediate e, d) := by
  have havoids : Avoids opensExpression c.skipBlank.rest := avoids_of_peek? hpk rfl
  have hskip : (value limit).read? (c.skipBlank.advance 1) =
      (value limit).read? (c.skipBlank.advance 1).skipBlank := by
    rw [read?, read?, value, run_expression_skipBlank]
  rw [hskip]
  cases hvalue : (value limit).read? (c.skipBlank.advance 1).skipBlank with
  | some x =>
    obtain ⟨e, d⟩ := x
    refine read?_of_ok (run_operand_of_avoids_expression havoids (run_choice_head ?_))
    exact run_immediate_eq_ok.2
      ⟨e, _, rfl, Cursor.takes_iff_peek?.2 ⟨hpk, rfl⟩, read?_eq_some.1 hvalue⟩
  | none =>
    refine read?_operand_of_avoids havoids ?_ ?_ ?_
    · refine Option.eq_none_iff_forall_ne_some.2 fun x hx => ?_
      obtain ⟨e, m, -, htakes, hrun⟩ := run_immediate_eq_ok.1 (read?_eq_some.1 hx)
      obtain ⟨-, rfl⟩ := Cursor.takes_iff_peek?.1 htakes
      rw [read?_of_ok hrun] at hvalue
      cases hvalue
    · exact (refuses_enclosed (avoids_of_peek? hpk rfl)).read?
    · exact Cursor.endsStatement_eq_false hn hpk (by decide)

theorem read?_operand_of_bracket (hn : '\n' ∉ c.rest) (hpk : c.skipBlank.peek? = some '[') :
    (operand limit).read? c = predictBracket limit c := by
  unfold predictBracket
  cases hbracket : (enclosed limit '[' ']').read? c with
  | none =>
    refine read?_operand_of_avoids (avoids_of_peek? hpk rfl) ?_ hbracket ?_
    · have hmark : (token ['#'] "'#'" Failure.lexical).Refuses c :=
        refuses_token (fun _ _ => rfl) (avoids_of_peek? hpk rfl)
      exact (hmark.bind _).read?
    · exact Cursor.endsStatement_eq_false hn hpk (by decide)
  | some x =>
    obtain ⟨e, q⟩ := x
    have henclosed := read?_eq_some.1 hbracket
    have hreads := Cursor.reads_advance_one hpk
    dsimp only
    cases hy : (indexedBy 'y').read? q with
    | some y =>
      obtain ⟨⟨⟩, d⟩ := y
      exact read?_of_ok (run_operand_of_bracket hreads (run_choice_head
        (run_shape_indexed_eq_ok.2 ⟨e, q, rfl, henclosed, read?_eq_some.1 hy⟩)))
    | none =>
      have hindexed := (tentative_indexedBy 'y').refuses hy
      exact read?_of_ok (run_operand_of_bracket hreads (run_choice_tail
        (refuses_bind henclosed (hindexed.bind _))
        (run_choice_head (run_shape_eq_ok.2 ⟨e, rfl, henclosed⟩))))

/-- A closed group is decided by what follows it. -/
theorem read?_operand_of_enclosed (henclosed : (enclosed limit '(' ')').run c = .ok (e, q)) :
    (operand limit).read? c = predictGroup limit c := by
  simp only [predictGroup, read?_of_ok henclosed]
  cases hy : (indexedBy 'y').read? q with
  | some y =>
    obtain ⟨⟨⟩, d⟩ := y
    exact read?_of_ok (run_choice_head
      (run_shape_indexed_eq_ok.2 ⟨e, q, rfl, henclosed, read?_eq_some.1 hy⟩))
  | none =>
    have hindirectY : (indirectY limit).Refuses c :=
      refuses_bind henclosed (((tentative_indexedBy 'y').refuses hy).bind _)
    cases hop : q.peek?.any isOperator with
    | false =>
      have havoids : Avoids isOperator q.rest := by
        rw [Option.any_eq_false] at hop
        exact fun ch hch => by simpa using hop ch hch
      exact read?_of_ok (run_choice_tail hindirectY (run_choice_head
        (run_indirect_eq_ok.2 ⟨e, rfl, henclosed, havoids⟩)))
    | true =>
      have hindirect := refuses_indirect_of_operator henclosed hop
      have hxIndirect := refuses_xIndirect_of_enclosed henclosed
      rw [if_pos rfl, operand, read?_choice_tail hindirectY, read?_choice_tail hindirect,
        read?_choice_tail hxIndirect]
      exact read?_choice_of_value (not_refuses_value_of_enclosed henclosed)

theorem read?_operand_of_paren (hn : '\n' ∉ c.rest) (hpk : c.skipBlank.peek? = some '(') :
    (operand limit).read? c = predictGroup limit c := by
  cases hgroup : (enclosed limit '(' ')').read? c with
  | some x => exact read?_operand_of_enclosed (read?_eq_some.1 hgroup)
  | none =>
    simp only [predictGroup, hgroup]
    cases hx : (enclosedIndexed limit 'x').read? c with
    | some x => exact read?_of_ok (run_operand_of_xIndirect (read?_eq_some.1 hx))
    | none =>
      have hnone (hs : (stackIndirectY limit).read? c = none) : (operand limit).read? c = none := by
        have hvalue : (value limit).read? c = none := by
          refine Option.eq_none_iff_forall_ne_some.2 fun x hvalue => ?_
          obtain ⟨y, hy⟩ := exists_enclosed_of_value hpk (read?_eq_some.1 hvalue)
          rw [read?_of_ok hy] at hgroup
          cases hgroup
        have hmark : (token ['#'] "'#'" Failure.lexical).Refuses c :=
          refuses_token (fun _ _ => rfl) (avoids_of_peek? hpk rfl)
        exact read?_operand_eq_none hgroup hx hvalue (hmark.bind _).read?
          (refuses_enclosed (avoids_of_peek? hpk rfl)).read? hs
          (Cursor.endsStatement_eq_false hn hpk (by decide))
      cases hs : (enclosedIndexed limit 's').read? c with
      | none => exact hnone (read?_bind_eq_none hs)
      | some x =>
        obtain ⟨e, q⟩ := x
        dsimp only
        cases hy : (indexedBy 'y').read? q with
        | some y =>
          obtain ⟨⟨⟩, d⟩ := y
          have henclosed := read?_eq_some.1 hs
          obtain ⟨m, -, hopen, -, -⟩ := run_enclosedIndexed_eq_ok.1 henclosed
          exact read?_of_ok (run_operand_of_stackIndirectY
            (refuses_enclosedIndexed_of_opened hopen hx) henclosed (read?_eq_some.1 hy))
        | none =>
          have hindexed := (tentative_indexedBy 'y').refuses hy
          exact hnone (refuses_bind (read?_eq_some.1 hs) (hindexed.bind _)).read?

/-- Where an expression fails for good one begins, so the statement does not end. -/
theorem endsStatement_of_aborts {f : Failure} (hn : '\n' ∉ c.rest) (h : (value limit).Aborts c f) :
    c.endsStatement = false := by
  obtain ⟨ch, hpk, hch⟩ : ∃ ch, c.skipBlank.peek? = some ch ∧ opensExpression ch = true := by
    by_contra hno
    refine h.not_refuses (refuses_expression fun ch hch => Bool.eq_false_iff.2 fun hopens => ?_)
    exact hno ⟨ch, hch, hopens⟩
  refine Cursor.endsStatement_eq_false hn hpk ⟨?_, ?_⟩
  · rintro rfl
    cases hch
  · rintro rfl
    cases hch

/-- Without a mark or a bracket only an expression or the end of the statement is left. -/
theorem read?_operand_of_other (hn : '\n' ∉ c.rest) (hmark : c.skipBlank.peek? ≠ some '#')
    (hbracket : c.skipBlank.peek? ≠ some '[') (hparen : c.skipBlank.peek? ≠ some '(') :
    (operand limit).read? c =
      if ((value limit).read? c).isSome then predictValue limit c
      else if c.endsStatement then some (.implied, c.skipBlank)
      else none := by
  have hgroup : (enclosed limit '(' ')').Refuses c := refuses_enclosed (avoids_singleton hparen)
  have hindirectY : (indirectY limit).Refuses c := hgroup.bind _
  have hindirect : (indirect limit).Refuses c := hgroup.bind _
  have hxIndirect : (xIndirect limit).Refuses c :=
    (refuses_enclosedIndexed (avoids_singleton hparen)).bind _
  rw [operand, read?_choice_tail hindirectY, read?_choice_tail hindirect,
    read?_choice_tail hxIndirect]
  cases hvalue : (value limit).run c with
  | ok x =>
    rw [read?_of_ok hvalue]
    exact read?_choice_of_value (not_refuses_of_ok hvalue)
  | error f =>
    rw [read?_of_error hvalue]
    cases hf : f.fatal with
    | true =>
      have haborts : (value limit).Aborts c f := ⟨hvalue, hf⟩
      rw [endsStatement_of_aborts hn haborts]
      exact read?_of_error (aborts_choice_head (haborts.bind _)).1
    | false =>
      have hrefuses : (value limit).Refuses c := ⟨f, hvalue, hf⟩
      have htoken : (token ['#'] "'#'" Failure.lexical).Refuses c :=
        refuses_token (fun _ _ => rfl) (avoids_singleton hmark)
      have hlong : (enclosed limit '[' ']').Refuses c :=
        refuses_enclosed (avoids_singleton hbracket)
      have hmove : (move limit).Refuses c := hrefuses.bind _
      have haddress : (address limit).Refuses c := hrefuses.bind _
      have himmediate : (immediate limit).Refuses c := htoken.bind _
      have hlongIndirectY : (longIndirectY limit).Refuses c := hlong.bind _
      have hlongIndirect : (longIndirect limit).Refuses c := hlong.bind _
      have hstackIndirectY : (stackIndirectY limit).Refuses c :=
        (refuses_enclosedIndexed (avoids_singleton hparen)).bind _
      rw [read?_choice_tail hmove, read?_choice_tail haddress, read?_choice_tail himmediate,
        read?_choice_tail hlongIndirectY, read?_choice_tail hlongIndirect,
        read?_choice_tail hstackIndirectY]
      cases hend : c.endsStatement with
      | true => exact read?_of_ok (run_choice_head (run_implied_eq_ok.2 ⟨rfl, hend, rfl⟩))
      | false =>
        refine read?_choice_eq_none fun r hr => ?_
        obtain rfl := List.mem_singleton.1 hr
        exact read?_implied_eq_none hend

/-- The ordered choice of an operand is a decision by looking ahead: in every text without a line
feed and at every place, the operand that is read there, and the place where it ends, are the ones
predicted, and where none is predicted the operand fails. -/
theorem operand_eq_predict (limit : Nat) (text : List Char) (pos : Nat) (hn : '\n' ∉ text) :
    ((operand limit).run (.ofText text pos)).toOption = predict limit (.ofText text pos) := by
  obtain ⟨c, hc⟩ : ∃ c, c = Cursor.ofText text pos := ⟨_, rfl⟩
  have hrest : '\n' ∉ c.rest := by
    rw [hc]
    exact fun h => hn (List.mem_of_mem_drop h)
  rw [← hc]
  show (operand limit).read? c = predict limit c
  unfold predict
  split
  · next hpk => exact read?_operand_of_mark hrest hpk
  · next hmark =>
    split
    · next hpk => exact read?_operand_of_bracket hrest hpk
    · next hbracket =>
      split
      · next hpk => exact read?_operand_of_paren hrest hpk
      · next hparen => exact read?_operand_of_other hrest hmark hbracket hparen

/-- Where a group is closed and an operator follows, the operand is the whole expression; and the
stack shape is found behind the shapes that begin as it does. -/
theorem operand_eq_predict_of_parens :
    let sum := "mvn (1)+2,3".toList
    let stack := "lda ( 1, S ) ,y".toList
    let number (n : Nat) (h : n ≤ Number.largest) : Expr := .number ⟨n, .unsized, h⟩
    '\n' ∉ sum ∧
    ((operand 2).run (.ofText sum 3)).toOption = predict 2 (.ofText sum 3) ∧
    predict 2 (.ofText sum 3) =
      some (.valued (.move (number 3 (by decide)))
        (.binary .add (number 1 (by decide)) (number 2 (by decide))), ⟨11, []⟩) ∧
    '\n' ∉ stack ∧
    ((operand 2).run (.ofText stack 3)).toOption = predict 2 (.ofText stack 3) ∧
    predict 2 (.ofText stack 3) =
      some (.valued .stackIndirectY (number 1 (by decide)), ⟨15, []⟩) := by
  intro sum stack number
  have hsum : '\n' ∉ sum := by decide
  have hstack : '\n' ∉ stack := by decide
  exact ⟨hsum, operand_eq_predict 2 sum 3 hsum, by decide +kernel,
    hstack, operand_eq_predict 2 stack 3 hstack, by decide +kernel⟩

end Grammar

end Asm65816
