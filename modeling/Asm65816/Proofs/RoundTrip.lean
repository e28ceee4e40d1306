import Asm65816.Proofs.OperandRoundTrip
import Asm65816.Proofs.Soundness

/-!
# Statements read back

A statement that was read is written in its normal form and read again. The result is the statement
itself, except where the operand is a binary node in the shapes `address` and `move`
(`Operand.WritesGroup`): there the addressing mode changes.

The alternatives of a statement are tried in order, so a normal form also has to be refused by the
kinds before its own. The one delicate case is an instruction whose mnemonic is `org`. Such a
statement was only read as an instruction because no expression follows the mnemonic, and the normal
form keeps that: no shape that begins with an expression was read there (`Operand.beginsValue`), and
the other shapes begin with none when they are written either.
-/

namespace Asm65816

open Text (Blanks Avoids BeginsIn isBlank isIdentifier isIdentifierPart isIdentifierStart)

/-- Whether an operand begins as an expression does, whatever the value. -/
def Operand.beginsValue (o : Operand) : Bool :=
  [Mode.address, .move, .indirect, .indirectY].contains o.mode

namespace Grammar

open Rule

variable {limit : Nat} {c d m : Cursor} {name : String} {e : Expr} {o : Operand} {s : Statement}

/-! ## Kinds that refuse -/

/-- The keyword refuses a word other than `org`, and `org` where no expression follows. -/
theorem refuses_keyword_iff (hname : Token.identifier.run c = .ok (name, m)) :
    (keyword limit).Refuses c ↔ (IsOrg name.toList → (value limit).Refuses m) := by
  refine ⟨fun h horg => ?_, fun h => ?_⟩
  · obtain ⟨f, hf, hfatal⟩ := h
    rw [keyword, run_cursor_bind, run_bind_eq_error] at hf
    rcases hf with hf | ⟨_, _, hok, hf⟩
    · rw [hname] at hf
      cases hf
    · rw [hname] at hok
      cases hok
      rw [if_pos (show name.toList.map Char.toLower = _ from horg), run_bind_eq_error] at hf
      rcases hf with hf | ⟨_, _, -, hf⟩
      · exact Refuses.of_within ⟨f, hf, hfatal⟩
      · cases hf
  · refine refuses_bind rfl (refuses_bind hname ?_)
    split
    · next horg => exact ((h horg).within _).bind _
    · exact refuses_fail rfl _

/-- A name without a colon right after it declares nothing. -/
theorem refuses_labelDeclaration (hname : Token.identifier.run c = .ok (name, m))
    (hm : Avoids ([':'].contains) m.rest) : labelDeclaration.Refuses c := by
  refine refuses_bind rfl ?_
  rw [if_neg (Token.not_marker_of_identifier hname)]
  exact refuses_bind hname (((refuses_char (fun _ _ => rfl) hm).bind _).bind _)

theorem refuses_assignment (hname : Token.identifier.run c = .ok (name, m))
    (hm : Avoids (['='].contains) m.skipBlank.rest) : (assignmentStatement limit).Refuses c := by
  have htoken : (token ['='] "'='" Failure.lexical).Refuses m := refuses_token (fun _ _ => rfl) hm
  exact (refuses_bind hname (htoken.bind _)).bind _

/-- A word that begins no expression begins no statement with a name. -/
theorem refuses_keyword_of_marker (h : c.peek? = some '+' ∨ c.peek? = some '-') :
    (keyword limit).Refuses c := by
  refine refuses_bind rfl ((Token.refuses_identifier ?_).bind _)
  rcases h with h | h
  · exact avoids_of_peek? h rfl
  · exact avoids_of_peek? h rfl

/-! ## Operands after the keyword -/

/-- A closed group begins an expression. -/
theorem not_refuses_value_of_enclosed (h : (enclosed limit '(' ')').run c = .ok (e, d)) :
    ¬ (value limit).Refuses c := by
  obtain ⟨m', hopen, hclose⟩ := run_enclosed_eq_ok.1 h
  obtain ⟨i, m, hi, htakes, hrun⟩ := run_opened_eq_ok.1 hopen
  have hgroup : (group limit (inside limit limit)).run c.skipBlank = .ok (e, d) :=
    run_group_eq_ok.2 ⟨i, m, m', hi, Cursor.takes_skipBlank.2 htakes, hrun, hclose⟩
  rw [value, refuses_expression_iff]
  refine not_refuses_of_ok (x := (e, d)) ?_
  rw [run_atom_eq]
  exact run_choice_head hgroup

/-- A shape that begins with an expression is read where one is read. -/
theorem not_refuses_value_of_operand (h : (operand limit).run c = .ok (o, d))
    (ho : o.beginsValue = true) : ¬ (value limit).Refuses c := by
  obtain ⟨rule, hrule, h⟩ := run_choice_ok h
  simp only [List.mem_cons, List.not_mem_nil, or_false] at hrule
  rcases hrule with rfl | rfl | rfl | rfl | rfl | rfl | rfl | rfl | rfl | rfl
  · obtain ⟨e, m, rfl, he, -⟩ := run_shape_indexed_eq_ok.1 h
    exact not_refuses_value_of_enclosed he
  · obtain ⟨e, rfl, he, -⟩ := run_indirect_eq_ok.1 h
    exact not_refuses_value_of_enclosed he
  · obtain ⟨e, rfl, -⟩ := run_shape_eq_ok.1 h
    cases ho
  · obtain ⟨e, f, m, m', rfl, he, -⟩ := run_move_eq_ok.1 h
    exact not_refuses_of_ok he
  · obtain ⟨e, rfl, he⟩ := run_shape_eq_ok.1 h
    exact not_refuses_of_ok he
  · obtain ⟨e, m, rfl, -⟩ := run_immediate_eq_ok.1 h
    cases ho
  · obtain ⟨e, m, rfl, -⟩ := run_shape_indexed_eq_ok.1 h
    cases ho
  · obtain ⟨e, rfl, -⟩ := run_shape_eq_ok.1 h
    cases ho
  · obtain ⟨e, m, rfl, -⟩ := run_shape_indexed_eq_ok.1 h
    cases ho
  · obtain ⟨rfl, -⟩ := run_implied_eq_ok.1 h
    cases ho

/-- The other shapes begin with no expression when they are written. -/
theorem refuses_value_of_chars (ho : o.Normal) (hn : o.nesting ≤ limit)
    (hv : o.beginsValue = false) (hr : c.skipBlank.Reads o.chars d) (hd : d.rest = []) :
    (value limit).Refuses c := by
  cases o with
  | implied =>
    refine refuses_expression ?_
    rw [hr.1, hd]
    exact Text.avoids_nil _
  | valued shape e =>
    have hfirst : ∀ {ch u}, c.skipBlank.Reads (ch :: u) d → opensExpression ch = false →
        (value limit).Refuses c := by
      intro ch u hr hch
      exact refuses_expression (hr.avoids hch)
    cases shape with
    | immediate => exact hfirst hr rfl
    | longIndirect => exact hfirst hr rfl
    | longIndirectY => exact hfirst hr rfl
    | xIndirect => exact (refuses_of_comma Text.blanks_nil ho.sum (Nat.one_add_le_iff.1 hn) hr).2
    | stackIndirectY =>
      exact (refuses_of_comma Text.blanks_nil ho.sum (Nat.one_add_le_iff.1 hn) hr).2
    | address => cases hv
    | indirect => cases hv
    | indirectY => cases hv
    | move f => cases hv
    | accumulator => exact ho.elim

/-- An instruction called `org` has a size suffix or an operand that begins with no expression. -/
theorem beginsValue_of_statement {mnemonic : String} {size : Option Size}
    (h : (statement limit).run c = .ok (.instruction ⟨mnemonic, size, o⟩, d))
    (horg : IsOrg mnemonic.toList) (hsize : size = none) : o.beginsValue = false := by
  rcases run_choice_cons_eq_ok.1 h with h | ⟨hkeyword, h⟩
  · obtain ⟨_, _, _, hs, -⟩ := run_keyword_eq_ok.1 h
    cases hs
  · obtain ⟨rule, hrule, h⟩ := run_choice_ok h
    simp only [List.mem_cons, List.not_mem_nil, or_false] at hrule
    rcases hrule with rfl | rfl | rfl
    · rcases run_labelDeclaration_eq_ok.1 h with ⟨_, _, hs, -⟩ | ⟨_, _, _, hs, -⟩ <;> cases hs
    · obtain ⟨_, _, _, _, hs, -⟩ := run_assignment_eq_ok.1 h
      cases hs
    · obtain ⟨_, _, _, m, m', hs, hname, hsuffix, ho⟩ := run_instruction_eq_ok.1 h
      cases hs
      have hvalue := (refuses_keyword_iff hname).1 hkeyword horg
      subst hsize
      rcases run_sizeSuffix_eq_ok.1 hsuffix with ⟨-, rfl, -⟩ | ⟨_, _, _, hz, -⟩
      · exact Bool.eq_false_iff.2 fun hv => not_refuses_value_of_operand ho hv hvalue
      · cases hz

/-! ## Kinds that match -/

/-- The normal form of a statement is read as another statement, and a text is left of it. -/
def ReadsBack (limit : Nat) (s s' : Statement) (rest : List Char) : Prop :=
  Avoids isBlank s.chars ∧ ∀ ⦃c d : Cursor⦄, c.Reads s.chars d → d.rest = [] →
    ∃ m, (statement limit).run c = .ok (s', m) ∧ m.rest = rest

/-- A space before a text that begins with none is skipped. -/
theorem reads_of_space {t : List Char} (ht : Avoids isBlank (t ++ d.rest))
    (hr : c.Reads (' ' :: t) d) : c.skipBlank.Reads t d := by
  obtain ⟨m, hspace, hr⟩ := Cursor.reads_append (s := [' ']).1 hr
  have hm : m.Settled := by
    rwa [Cursor.Settled, hr.1]
  rwa [Cursor.skipBlank_eq_iff.2 ⟨hm, [' '], by decide, hspace⟩]

/-- An expression does not begin with a blank, whatever follows it. -/
theorem avoids_blank_of_normal (he : e.Normal) (t : List Char) : Avoids isBlank (e.chars ++ t) := by
  obtain ⟨ch, rest, hcons, hch⟩ := he.sum.opens nofun
  rw [hcons, List.cons_append, Text.avoids_cons]
  exact isBlank_of_opensExpression hch

theorem avoids_blank_of_isIdentifier {cs : List Char} (h : isIdentifier cs = true)
    (t : List Char) : Avoids isBlank (cs ++ t) := by
  obtain ⟨ch, rest, rfl, hs, -⟩ := Text.isIdentifier_iff.1 h
  rw [List.cons_append, Text.avoids_cons]
  refine Bool.eq_false_iff.2 fun hb => ?_
  rw [Text.isIdentifierStart_of_isBlank hb] at hs
  cases hs

theorem readsBack_org (he : e.Normal) (hn : e.nesting ≤ limit) :
    ReadsBack limit (.org e) (.org e) [] := by
  refine ⟨Text.avoids_cons.2 rfl, fun c d hr hd => ?_⟩
  obtain ⟨m, hword, hr⟩ := Cursor.reads_append (s := "org".toList).1 hr
  have hname : Token.identifier.run c = .ok ("org", m) :=
    Token.run_identifier_eq_ok.2 ⟨by decide, hword, hr.avoids rfl⟩
  have hvalue : (value limit).run m = .ok (e, d) :=
    run_value_of_layout he.sum hn (reads_of_space (avoids_blank_of_normal he _) hr)
      (beginsIn_of_end hd)
  refine ⟨d, run_choice_head ?_, hd⟩
  exact run_keyword_eq_ok.2 ⟨"org", e, m, rfl, hname, by decide, hvalue⟩

theorem readsBack_named (hn : isIdentifier name.toList = true) :
    ReadsBack limit (.label (.named name)) (.label (.named name)) [] := by
  refine ⟨avoids_blank_of_isIdentifier hn _, fun c d hr hd => ?_⟩
  obtain ⟨m, hword, hcolon⟩ := Cursor.reads_append.1 hr
  have hset : d.Settled := settled_of_closers (beginsIn_of_end hd)
  have hname : Token.identifier.run c = .ok (name, m) :=
    Token.run_identifier_eq_ok.2 ⟨hn, hword, hcolon.avoids rfl⟩
  have hm : m.Settled := hcolon.avoids rfl
  have hkeyword : (keyword limit).Refuses c := by
    refine (refuses_keyword_iff hname).2 fun _ => refuses_expression ?_
    rw [hm.skipBlank]
    exact hcolon.avoids rfl
  refine ⟨d, run_choice_tail hkeyword (run_choice_head ?_), hd⟩
  exact run_labelDeclaration_eq_ok.2 (.inr ⟨name, m, d, rfl, hname, hcolon, hset.skipBlank⟩)

theorem readsBack_relative {k : Int} (hk : k ≠ 0) :
    ReadsBack limit (.label (.relative k hk)) (.label (.relative k hk)) [] := by
  obtain ⟨rest, hcons⟩ := Label.markers_eq_cons hk
  refine ⟨?_, fun c d hr hd => ?_⟩
  · show Avoids isBlank (Label.markers k)
    rw [hcons, Text.avoids_cons]
    rcases Label.marker_eq k with h | h <;> rw [h] <;> decide
  · have hset : d.Settled := settled_of_closers (beginsIn_of_end hd)
    have hlabel : Token.relativeLabel.run c = .ok (.relative k hk, d) := by
      refine Token.run_relativeLabel_eq_ok.2 ⟨k, hk, rfl, hr, ?_⟩
      rw [hd]
      exact Text.avoids_nil _
    have hend : d.endsStatement = true := by
      rw [Cursor.endsStatement, hset.skipBlank, Cursor.peek?, hd]
      simp
    refine ⟨d, run_choice_tail (refuses_keyword_of_marker ?_) (run_choice_head ?_), hd⟩
    · exact Token.marker_of_relativeLabel hlabel
    · exact run_labelDeclaration_eq_ok.2 (.inl ⟨_, d, rfl, hlabel, hend, hset.skipBlank⟩)

theorem readsBack_assignment (hn : isIdentifier name.toList = true) (he : e.Normal)
    (hle : e.nesting ≤ limit) :
    ReadsBack limit (.assignment name e) (.assignment name e) [] := by
  refine ⟨avoids_blank_of_isIdentifier hn _, fun c d hr hd => ?_⟩
  obtain ⟨m, hword, hr⟩ := Cursor.reads_append.1 hr
  have hname : Token.identifier.run c = .ok (name, m) :=
    Token.run_identifier_eq_ok.2 ⟨hn, hword, hr.avoids rfl⟩
  have hskip := reads_of_space (Text.avoids_cons.2 rfl) hr
  obtain ⟨m', hequals, hre⟩ := Cursor.reads_append (s := ['=', ' ']).1 hskip
  have hm' : m'.Settled := he.sum.settled nofun hre
  have hkeyword : (keyword limit).Refuses c :=
    (refuses_keyword_iff hname).2 fun _ => refuses_expression (hequals.avoids rfl)
  refine ⟨d, run_choice_tail hkeyword ?_, hd⟩
  refine run_choice_tail (refuses_labelDeclaration hname (hr.avoids rfl)) (run_choice_head ?_)
  exact run_assignment_eq_ok.2 ⟨name, e, m, m', rfl, hname, ⟨hm', [' '], by decide, hequals⟩,
    run_expression_of_layout (he.sum.mono hle) hre (beginsIn_of_end hd)⟩

/-! ## Instructions -/

/-- What begins an operand: an expression, a mark or a bracket. -/
theorem avoids_of_operand {p : Char → Bool} (ho : o.Normal)
    (hp : ∀ ch, opensExpression ch = true → p ch = false) (hmark : p '#' = false)
    (hbracket : p '[' = false) : Avoids p o.chars := by
  have hexpr : ∀ {e : Expr} (u : List Char), e.Normal → Avoids p (e.chars ++ u) := by
    intro e u he
    obtain ⟨ch, rest, hcons, hch⟩ := he.sum.opens nofun
    rw [hcons, List.cons_append, Text.avoids_cons]
    exact hp ch hch
  have hparen : p '(' = false := hp '(' (by decide)
  cases o with
  | implied => exact Text.avoids_nil p
  | valued shape e =>
    cases shape with
    | immediate => exact Text.avoids_cons.2 hmark
    | address => exact (hexpr [] ho).of_append
    | indirect => exact Text.avoids_cons.2 hparen
    | xIndirect => exact Text.avoids_cons.2 hparen
    | indirectY => exact Text.avoids_cons.2 hparen
    | stackIndirectY => exact Text.avoids_cons.2 hparen
    | longIndirect => exact Text.avoids_cons.2 hbracket
    | longIndirectY => exact Text.avoids_cons.2 hbracket
    | move f => exact hexpr _ ho.1
    | accumulator => exact ho.elim

/-- A character that begins no expression does not begin an operand unless it is a mark or a
bracket. -/
theorem avoids_char_of_operand {ch : Char} (ho : o.Normal) (hch : opensExpression ch = false)
    (hmark : ch ≠ '#') (hbracket : ch ≠ '[') : Avoids ([ch].contains) o.chars := by
  refine avoids_of_operand ho ?_ (by simpa using hmark.symm) (by simpa using hbracket.symm)
  intro x hx
  refine Bool.eq_false_iff.2 fun hxc => ?_
  obtain rfl : x = ch := by simpa using hxc
  rw [hx] at hch
  cases hch

theorem avoids_blank_of_operand (ho : o.Normal) : Avoids isBlank o.chars := by
  exact avoids_of_operand ho (fun _ => isBlank_of_opensExpression) rfl rfl

/-- The operand of an instruction as it is written after the mnemonic and the suffix. -/
def operandChars (o : Operand) : List Char :=
  match o.chars with
  | [] => []
  | operand => ' ' :: operand

/-- Before the operand stands a space, or the text ends. -/
theorem avoids_operandChars {p : Char → Bool} (hp : p ' ' = false) : Avoids p (operandChars o) := by
  unfold operandChars
  split
  · exact Text.avoids_nil p
  · exact Text.avoids_cons.2 hp

/-- The space before the operand is skipped. -/
theorem reads_operandChars (ho : o.Normal) (hr : c.Reads (operandChars o) d) (hd : d.rest = []) :
    c.skipBlank.Reads o.chars d := by
  unfold operandChars at hr
  split at hr
  · next hnil =>
    obtain rfl := Cursor.reads_nil_iff.1 hr
    rw [(settled_of_closers (beginsIn_of_end hd)).skipBlank, hnil]
    exact Cursor.reads_nil _
  · refine reads_of_space ?_ hr
    rw [hd, List.append_nil]
    exact avoids_blank_of_operand ho

/-- An instruction is read where the kinds before it refuse what follows the mnemonic. -/
theorem run_statement_of_mnemonic {mnemonic : String} {size : Option Size} {m' : Cursor}
    (hname : Token.identifier.run c = .ok (mnemonic, m)) (hcolon : Avoids ([':'].contains) m.rest)
    (hequals : Avoids (['='].contains) m.skipBlank.rest)
    (hvalue : IsOrg mnemonic.toList → (value limit).Refuses m)
    (hsize : sizeSuffix.run m = .ok (size, m')) (ho : (operand limit).run m' = .ok (o, d)) :
    (statement limit).run c = .ok (.instruction ⟨mnemonic, size, o⟩, d) := by
  refine run_choice_tail ((refuses_keyword_iff hname).2 hvalue) ?_
  refine run_choice_tail (refuses_labelDeclaration hname hcolon) ?_
  refine run_choice_tail (refuses_assignment hname hequals) (run_choice_head ?_)
  exact run_instruction_eq_ok.2 ⟨mnemonic, size, o, m, m', rfl, hname, hsize, ho⟩

section
variable {mnemonic : String} {o' : Operand} {rest : List Char}

/-- An instruction without suffix is read back as its operand is. -/
theorem readsBack_unsized (hn : isIdentifier mnemonic.toList = true) (ho : o.Normal)
    (hle : o.nesting ≤ limit) (horg : IsOrg mnemonic.toList → o.beginsValue = false)
    (hop : OperandReadsBack limit o o' rest) :
    ReadsBack limit (.instruction ⟨mnemonic, none, o⟩) (.instruction ⟨mnemonic, none, o'⟩)
      rest := by
  have htext : (Statement.instruction ⟨mnemonic, none, o⟩).chars =
      mnemonic.toList ++ operandChars o := by
    show mnemonic.toList ++ [] ++ operandChars o = _
    rw [List.append_nil]
  refine ⟨?_, fun c d hr hd => ?_⟩
  · rw [htext]
    exact avoids_blank_of_isIdentifier hn _
  · rw [htext] at hr
    obtain ⟨m, hword, hr⟩ := Cursor.reads_append.1 hr
    have hro := reads_operandChars ho hr hd
    have hrest : m.rest = operandChars o := by rw [hr.1, hd, List.append_nil]
    have hskip : m.skipBlank.rest = o.chars := by rw [hro.1, hd, List.append_nil]
    have hfirst : ∀ {p : Char → Bool}, p ' ' = false → Avoids p m.rest := by
      intro p hp
      rw [hrest]
      exact avoids_operandChars hp
    have hname : Token.identifier.run c = .ok (mnemonic, m) :=
      Token.run_identifier_eq_ok.2 ⟨hn, hword, hfirst rfl⟩
    have hequals : Avoids (['='].contains) m.skipBlank.rest := by
      rw [hskip]
      exact avoids_char_of_operand ho (by decide) (by decide) (by decide)
    have hsize : sizeSuffix.run m = .ok (none, m) := by
      refine run_sizeSuffix_eq_ok.2 (.inl ⟨rfl, rfl, fun hp => ?_⟩)
      rw [Cursor.peek?, hskip] at hp
      have hdot : Avoids (['.'].contains) o.chars :=
        avoids_char_of_operand ho (by decide) (by decide) (by decide)
      exact absurd (hdot _ hp) (by decide)
    obtain ⟨m', hrun, hm'⟩ := hop hro hd
    exact ⟨m', run_statement_of_mnemonic hname (hfirst rfl) hequals
      (fun h => refuses_value_of_chars ho hle (horg h) hro hd) hsize hrun, hm'⟩

/-- A suffix keeps the other kinds away, so the mnemonic may be any. -/
theorem readsBack_sized {size : Size} (hn : isIdentifier mnemonic.toList = true) (ho : o.Normal)
    (hop : OperandReadsBack limit o o' rest) :
    ReadsBack limit (.instruction ⟨mnemonic, some size, o⟩)
      (.instruction ⟨mnemonic, some size, o'⟩) rest := by
  have htext : (Statement.instruction ⟨mnemonic, some size, o⟩).chars =
      mnemonic.toList ++ ('.' :: ([size.letter] ++ operandChars o)) := by
    show mnemonic.toList ++ ['.', size.letter] ++ operandChars o = _
    rw [List.append_assoc]
    rfl
  refine ⟨?_, fun c d hr hd => ?_⟩
  · rw [htext]
    exact avoids_blank_of_isIdentifier hn _
  · rw [htext] at hr
    obtain ⟨m, hword, hr⟩ := Cursor.reads_append.1 hr
    have hm : m.Settled := hr.avoids rfl
    obtain ⟨k, hdot, hrk⟩ := Cursor.reads_append (s := ['.']).1 hr
    obtain ⟨m', hletter, hro⟩ := Cursor.reads_append (s := [size.letter]).1 hrk
    have hname : Token.identifier.run c = .ok (mnemonic, m) :=
      Token.run_identifier_eq_ok.2 ⟨hn, hword, hr.avoids rfl⟩
    have hsize : sizeSuffix.run m = .ok (some size, m') := by
      have hk : k.Settled := hletter.avoids (by cases size <;> rfl)
      refine run_sizeSuffix_eq_ok.2 (.inr ⟨size, k, size.letter, rfl, takes_of_reads ?_ hk, hletter,
        by cases size <;> rfl, ?_⟩)
      · rwa [hm.skipBlank]
      · rw [hro.1, hd, List.append_nil]
        exact avoids_operandChars rfl
    obtain ⟨m'', hrun, hm''⟩ := hop (reads_operandChars ho hro hd) hd
    refine ⟨m'', run_statement_of_mnemonic hname (hr.avoids rfl) ?_ (fun _ => ?_) hsize hrun, hm''⟩
    · rw [hm.skipBlank]
      exact hr.avoids rfl
    · refine refuses_expression ?_
      rw [hm.skipBlank]
      exact hr.avoids rfl

theorem readsBack_instruction {size : Option Size} (hn : isIdentifier mnemonic.toList = true)
    (ho : o.Normal) (hle : o.nesting ≤ limit)
    (horg : IsOrg mnemonic.toList → size = none → o.beginsValue = false)
    (hop : OperandReadsBack limit o o' rest) :
    ReadsBack limit (.instruction ⟨mnemonic, size, o⟩) (.instruction ⟨mnemonic, size, o'⟩)
      rest := by
  cases size with
  | none => exact readsBack_unsized hn ho hle (fun h => horg h rfl) hop
  | some size => exact readsBack_sized hn ho hop

end

end Grammar

/-! ## Statements -/

/-- What was read back from a cursor is read back from the text. -/
theorem Grammar.ReadsBack.parse {depth : Depth} {s s' : Statement} {rest : List Char}
    (h : ReadsBack depth.levels s s' rest) :
    Statement.parse depth s.render = .ok (s', String.ofList rest) := by
  obtain ⟨hblank, h⟩ := h
  have hset : (Cursor.ofText s.chars 0).Settled := hblank
  have hreads : (Cursor.ofText s.chars 0).Reads s.chars ⟨s.chars.length, []⟩ :=
    ⟨(List.append_nil _).symm, (Nat.zero_add _).symm⟩
  obtain ⟨m, hrun, rfl⟩ := h hreads rfl
  refine Rule.parse_eq_ok.2 ⟨m, ?_, rfl⟩
  rw [Statement.render, String.toList_ofList, hset.skipBlank]
  exact hrun

/-- A statement that was read has a mnemonic and an operand that can be read again. -/
theorem Grammar.instruction_of_run {limit : Nat} {c d : Cursor} {mnemonic : String}
    {size : Option Size} {o : Operand}
    (h : (statement limit).run c = .ok (.instruction ⟨mnemonic, size, o⟩, d)) :
    isIdentifier mnemonic.toList = true ∧ o.Normal ∧
      (IsOrg mnemonic.toList → size = none → o.beginsValue = false) := by
  obtain ⟨-, t, -, ht⟩ := laid_statement h
  cases ht with
  | instruction hn _ _ ho _ => exact ⟨hn, ho.normal, beginsValue_of_statement h⟩

/-- But for an operand that writes a group, a statement that was read is read back. -/
theorem Grammar.readsBack_of_run {limit : Nat} {c d : Cursor} {s : Statement}
    (h : (statement limit).run c = .ok (s, d)) (hn : s.nesting ≤ limit)
    (hg : ∀ i, s = .instruction i → ¬ i.operand.WritesGroup) : ReadsBack limit s s [] := by
  obtain ⟨-, t, -, ht⟩ := laid_statement h
  cases ht with
  | org _ _ ht _ => exact readsBack_org ht.normal hn
  | named hname _ => exact readsBack_named hname
  | relative _ => exact readsBack_relative _
  | assignment hname _ _ ht => exact readsBack_assignment hname ht.normal hn
  | instruction =>
    obtain ⟨hname, ho, horg⟩ := instruction_of_run h
    exact readsBack_instruction hname ho hn horg (operandReadsBack_of_normal ho hn (hg _ rfl))

/-- A statement that was read is written and read again, as long as its normal form nests no deeper
than the limit. It comes back as it was and whole, but for the binary nodes that stand for
themselves or before a comma. Those come back as the indirect value of the same instruction. Before
a comma, the comma is left with what follows it, unless a name or a call of `y` follows: then the
value is indexed. -/
theorem Statement.parse_render {depth : Depth} {text rest : String} {s : Statement}
    (h : Statement.parse depth text = .ok (s, rest)) (hn : s.nesting ≤ depth.levels) :
    ((∀ i, s = .instruction i → ¬ i.operand.WritesGroup) →
      Statement.parse depth s.render = .ok (s, "")) ∧
    (∀ mnemonic size op l r,
      s = .instruction ⟨mnemonic, size, .valued .address (.binary op l r)⟩ →
      Statement.parse depth s.render =
        .ok (.instruction ⟨mnemonic, size, .valued .indirect (.binary op l r)⟩, "")) ∧
    (∀ mnemonic size second op l r,
      s = .instruction ⟨mnemonic, size, .valued (.move second) (.binary op l r)⟩ →
      (second.name? = some "y" ∨ second.name? = some "Y" → Statement.parse depth s.render =
        .ok (.instruction ⟨mnemonic, size, .valued .indirectY (.binary op l r)⟩,
          String.ofList (second.chars.drop 1))) ∧
      (¬ (second.name? = some "y" ∨ second.name? = some "Y") → Statement.parse depth s.render =
        .ok (.instruction ⟨mnemonic, size, .valued .indirect (.binary op l r)⟩,
          String.ofList (',' :: second.chars))) ∧
      ∀ rest', Statement.parse depth s.render ≠ .ok (s, rest')) := by
  obtain ⟨d, hrun, -⟩ := Rule.parse_eq_ok.1 h
  refine ⟨fun hg => ?_, ?_, ?_⟩
  · exact (Grammar.readsBack_of_run hrun hn hg).parse
  · rintro mnemonic size op l r rfl
    obtain ⟨hname, ho, horg⟩ := Grammar.instruction_of_run hrun
    exact (Grammar.readsBack_instruction hname ho hn horg
      (Grammar.operandReadsBack_group ho hn)).parse
  · rintro mnemonic size second op l r rfl
    obtain ⟨hname, ho, horg⟩ := Grammar.instruction_of_run hrun
    have hle : (Expr.binary op l r).nesting ≤ depth.levels := Nat.le_trans (Nat.le_max_left ..) hn
    have hindexed : second.name? = some "y" ∨ second.name? = some "Y" → _ := fun hy =>
      (Grammar.readsBack_instruction hname ho hn horg
        (Grammar.operandReadsBack_y ho.1 hy hle)).parse
    have hindirect : ¬ (second.name? = some "y" ∨ second.name? = some "Y") → _ := fun hy =>
      (Grammar.readsBack_instruction hname ho hn horg
        (Grammar.operandReadsBack_comma ho.1 ho.2 hy hle)).parse
    refine ⟨hindexed, hindirect, fun rest' hback => ?_⟩
    by_cases hy : second.name? = some "y" ∨ second.name? = some "Y"
    · rw [hindexed hy] at hback
      cases hback
    · rw [hindirect hy] at hback
      cases hback

/-- An operand in brackets comes back; a sum becomes indirect, and with a `y` after it indexed. -/
theorem Statement.parse_render_group :
    Statement.parse ⟨2, by decide, by decide⟩ "org.w [(a + b)],y" =
      .ok (.instruction ⟨"org", some .word, .valued .longIndirectY
        (.binary .add (.label (.named "a")) (.label (.named "b")))⟩, "") ∧
    Statement.parse ⟨2, by decide, by decide⟩ "lda (a + b)" =
      .ok (.instruction ⟨"lda", none, .valued .indirect
        (.binary .add (.label (.named "a")) (.label (.named "b")))⟩, "") ∧
    Statement.parse ⟨2, by decide, by decide⟩ "lda (a + b),y(c)" =
      .ok (.instruction ⟨"lda", none, .valued .indirectY
        (.binary .add (.label (.named "a")) (.label (.named "b")))⟩, "(c)") := by
  have bracketed : Statement.parse ⟨2, by decide, by decide⟩ "org.w [ a+b ],Y" =
      .ok (.instruction ⟨"org", some .word, .valued .longIndirectY
        (.binary .add (.label (.named "a")) (.label (.named "b")))⟩, "") :=
    eq_ok_of_toOption (by decide +kernel)
  have address : Statement.parse ⟨2, by decide, by decide⟩ "lda a+b" =
      .ok (.instruction ⟨"lda", none, .valued .address
        (.binary .add (.label (.named "a")) (.label (.named "b")))⟩, "") :=
    eq_ok_of_toOption (by decide +kernel)
  have move : Statement.parse ⟨2, by decide, by decide⟩ "lda a+b,y( c )" =
      .ok (.instruction ⟨"lda", none, .valued (.move (.call "y" [.label (.named "c")]))
        (.binary .add (.label (.named "a")) (.label (.named "b")))⟩, "") :=
    eq_ok_of_toOption (by decide +kernel)
  refine ⟨(Statement.parse_render bracketed (by decide)).1 ?_,
    (Statement.parse_render address (by decide)).2.1 _ _ _ _ _ rfl,
    ((Statement.parse_render move (by decide)).2.2 _ _ _ _ _ _ rfl).1 (.inl rfl)⟩
  rintro _ ⟨⟩
  exact id

end Asm65816
