import Asm65816.Proofs.Completeness
import Asm65816.Proofs.NormalForm

/-!
# Operands read back

The normal form of an operand is read as that operand, but for two shapes. A binary node in
parentheses that stands for itself or before a comma is taken for the indirect shape, which is tried
first: `address` and `move` become `indirect` or, where `y` follows the comma, `indirectY`. Both are
told here too, so that nothing is left open about what a normal form reads as.

The shapes are tried in order, so each proof has two halves: the shapes before it refuse, for the
first character or for the one after the expression, and then the shape itself matches.
-/

namespace Asm65816.Grammar

open Rule
open Text (Blanks Avoids BeginsIn blanks_nil isBlank isIdentifier isIdentifierPart
  isIdentifierStart)

variable {limit levels n : Nat} {c d m : Cursor} {e : Expr} {b t : List Char} {x : Operand × Cursor}

/-! ## Parts that match -/

theorem run_value_of_layout (h : Layout levels (.sum e) t) (hn : levels ≤ limit)
    (hr : c.skipBlank.Reads t d) (hd : BeginsIn closers d.rest) :
    (value limit).run c = .ok (e, d) := by
  rw [value, ← run_expression_skipBlank]
  exact run_expression_of_layout (h.mono hn) hr hd

/-- A character right where it is needed is taken. -/
theorem takes_of_reads {ch : Char} (hr : c.skipBlank.Reads [ch] d) (hd : d.Settled) :
    c.Takes ch d := ⟨hd, [], blanks_nil, hr⟩

/-- The end of a text closes whatever was begun. -/
theorem beginsIn_of_end (hd : d.rest = []) : BeginsIn closers d.rest := by
  rw [hd]
  exact Text.beginsIn_nil _

/-- At the end of a text no register follows. -/
theorem refuses_indexedBy_of_end {letter : Char} (hd : d.rest = []) :
    (indexedBy letter).Refuses d := by
  refine Refuses.bind (refuses_token (fun _ _ => rfl) ?_) _
  rw [(settled_of_closers (beginsIn_of_end hd)).skipBlank, hd]
  exact Text.avoids_nil _

/-- An opened bracket needs one level more than the expression after it. -/
theorem run_opened_of_layout {bracket : Char} (hb : Blanks b) (h : Layout levels (.sum e) t)
    (hn : levels < limit) (hr : c.skipBlank.Reads (bracket :: (b ++ t)) d)
    (hd : BeginsIn closers d.rest) : (opened limit bracket).run c = .ok (e, d) := by
  obtain ⟨k, rfl⟩ : ∃ k, limit = k + 1 := ⟨limit - 1, by omega⟩
  obtain ⟨m, hopen, hr⟩ := Cursor.reads_append (s := bracket :: b).1 hr
  refine run_opened_eq_ok.2 ⟨expression (k + 1) k, m, rfl, ?_, ?_⟩
  · exact ⟨h.settled nofun hr, b, hb, hopen⟩
  · exact run_expression_of_layout (h.mono (by omega)) hr hd

theorem run_enclosed_of_opened {opening closing : Char}
    (h : (opened limit opening).run c = .ok (e, m)) (hm : m.Settled) (hr : m.Reads [closing] d)
    (hd : d.Settled) : (enclosed limit opening closing).run c = .ok (e, d) := by
  refine run_enclosed_eq_ok.2 ⟨m, h, takes_of_reads ?_ hd⟩
  rwa [hm.skipBlank]

/-- A comma and the letter of a register that ends as a word does. -/
theorem run_indexedBy_of_reads {letter ch : Char} (hch : ch.toLower = letter)
    (hb : isBlank ch = false) (hr : c.Reads [',', ch] d) (hd : d.Settled)
    (ha : Avoids isIdentifierPart d.rest) : (indexedBy letter).run c = .ok ((), d) := by
  obtain ⟨m, hcomma, hr⟩ := Cursor.reads_append (s := [',']).1 hr
  have hc : c.Settled := hcomma.avoids rfl
  have hm : m.Settled := hr.avoids hb
  refine run_indexedBy_eq_ok.2 ⟨m, ⟨hm, [], blanks_nil, ?_⟩, run_register_eq_ok.2
    ⟨ch, hch, ⟨hd, [], blanks_nil, ?_⟩, ?_⟩⟩
  · rwa [hc.skipBlank]
  · rwa [hm.skipBlank]
  · obtain ⟨-, hr⟩ := Cursor.reads_cons.1 hr
    rwa [hm.skipBlank, Cursor.reads_nil_iff.1 hr]

/-! ## Parts that refuse -/

theorem refuses_opened {bracket : Char} (h : Avoids ([bracket].contains) c.skipBlank.rest) :
    (opened limit bracket).Refuses c := by
  unfold opened
  exact refuses_bind rfl ((refuses_token (fun _ _ => rfl) h).bind _)

theorem refuses_needed {ch : Char} (h : Avoids ([ch].contains) c.skipBlank.rest) :
    (needed ch).Refuses c := refuses_token (fun _ _ => rfl) h

/-- A bracket that is not closed encloses nothing. -/
theorem refuses_enclosed_of_opened {opening closing : Char}
    (h : (opened limit opening).run c = .ok (e, m))
    (hm : Avoids ([closing].contains) m.skipBlank.rest) :
    (enclosed limit opening closing).Refuses c :=
  refuses_bind h ((refuses_needed hm).bind _)

theorem refuses_enclosed {opening closing : Char}
    (h : Avoids ([opening].contains) c.skipBlank.rest) :
    (enclosed limit opening closing).Refuses c := (refuses_opened h).bind _

theorem refuses_enclosedIndexed {letter : Char} (h : Avoids (['('].contains) c.skipBlank.rest) :
    (enclosedIndexed limit letter).Refuses c := (refuses_opened h).bind _

/-- Another letter after the comma, or a longer word, is no register. -/
theorem refuses_indexedBy_of_register {letter ch : Char} {rest : List Char}
    (h : c.rest = ',' :: ch :: rest) (hb : isBlank ch = false)
    (hch : ch.toLower = letter → ¬ Avoids isIdentifierPart rest) :
    (indexedBy letter).Refuses c := by
  have hc : c.Settled := by
    rw [Cursor.Settled, h]
    exact Text.avoids_cons.2 rfl
  have hm : (c.advance 1).rest = ch :: rest := by simp [Cursor.advance, h]
  have hset : (c.advance 1).Settled := by
    rw [Cursor.Settled, hm]
    exact Text.avoids_cons.2 hb
  have hcomma : (needed ',').run c = .ok (',', c.advance 1) := by
    refine run_needed_eq_ok.2 ⟨rfl, takes_of_reads ?_ hset⟩
    rw [hc.skipBlank]
    exact Cursor.reads_advance_one (Cursor.peek?_eq_some.2 ⟨_, h⟩)
  refine refuses_bind hcomma (refuses_bind rfl (Refuses.bind ?_ _))
  rw [hset.skipBlank]
  refine ⟨_, if_neg ?_, rfl⟩
  rintro ⟨hpk, hend⟩
  rw [Cursor.peek?, hm, List.head?_cons, Option.map_some, Option.some.injEq] at hpk
  refine hch hpk ?_
  have hrest : ((c.advance 1).advance 1).rest = rest := by simp [Cursor.advance, h]
  rw [← hrest]
  exact endsWord_iff.1 hend

/-- What begins with a parenthesis and is no group is no expression. -/
theorem refuses_value_of_group (hpk : c.skipBlank.peek? = some '(')
    (hgroup : (group limit (inside limit limit)).Refuses c.skipBlank) :
    (value limit).Refuses c := by
  rw [value, refuses_expression_iff]
  refine refuses_bind rfl (refuses_choice ?_)
  simp only [List.mem_cons, List.not_mem_nil, or_false, forall_eq_or_imp, forall_eq]
  exact ⟨hgroup, refuses_numeral (Token.refuses_decimal (avoids_of_peek? hpk rfl)),
    refuses_hexadecimal_of_peek? hpk (by decide), refuses_call_of_avoids (avoids_of_peek? hpk rfl),
    refuses_reference (avoids_of_peek? hpk rfl) (avoids_of_peek? hpk rfl)⟩

/-- What begins as a group and is not closed is no expression. -/
theorem refuses_value_of_opened (h : (opened limit '(').run c = .ok (e, m))
    (hm : Avoids ([')'].contains) m.skipBlank.rest) : (value limit).Refuses c := by
  obtain ⟨i, k, hi, htakes, hrun⟩ := run_opened_eq_ok.1 h
  refine refuses_value_of_group htakes.peek? ?_
  have hparen : (token ['('] "'('" Failure.lexical).run c.skipBlank = .ok ('(', k) :=
    run_token_eq_ok.2 ⟨List.mem_singleton_self _, Cursor.takes_skipBlank.2 htakes⟩
  refine refuses_bind rfl (refuses_bind hparen (refuses_bind (run_enter_eq_ok.2 ⟨hi, rfl⟩) ?_))
  exact refuses_bind (run_within_eq_ok.2 hrun) ((refuses_token (fun _ _ => rfl) hm).bind _)

/-! ## The order of the shapes -/

/-- Without a parenthesis the first three shapes refuse. -/
theorem run_operand_of_avoids_paren (h : Avoids (['('].contains) c.skipBlank.rest)
    (hx : (choice "operand" [move limit, address limit, immediate limit, longIndirectY limit,
      longIndirect limit, stackIndirectY limit, implied]).run c = .ok x) :
    (operand limit).run c = .ok x :=
  run_choice_tail ((refuses_enclosed h).bind _) <|
    run_choice_tail ((refuses_enclosed h).bind _) <|
      run_choice_tail ((refuses_enclosedIndexed h).bind _) hx

/-- Where no expression begins, the shapes that begin with one refuse too. -/
theorem run_operand_of_avoids_expression (h : Avoids opensExpression c.skipBlank.rest)
    (hx : (choice "operand" [immediate limit, longIndirectY limit, longIndirect limit,
      stackIndirectY limit, implied]).run c = .ok x) : (operand limit).run c = .ok x := by
  have hparen : Avoids (['('].contains) c.skipBlank.rest := by
    intro ch hch
    have hopens := h ch hch
    rw [opensExpression, Bool.or_eq_false_iff, Bool.or_eq_false_iff] at hopens
    simp_all
  have hvalue : (value limit).Refuses c := refuses_expression h
  exact run_operand_of_avoids_paren hparen <|
    run_choice_tail (hvalue.bind _) <| run_choice_tail (hvalue.bind _) hx

/-- A comma where the parenthesis should close keeps all shapes away but those with a register. -/
theorem refuses_of_enclosedIndexed {letter : Char}
    (h : (enclosedIndexed limit letter).run c = .ok (e, d)) :
    (enclosed limit '(' ')').Refuses c ∧ (value limit).Refuses c := by
  obtain ⟨m, m', hopen, hindexed, -⟩ := run_enclosedIndexed_eq_ok.1 h
  obtain ⟨_, hcomma, -⟩ := run_indexedBy_eq_ok.1 hindexed
  have hparen : Avoids ([')'].contains) m.skipBlank.rest := avoids_of_peek? hcomma.peek? rfl
  exact ⟨refuses_enclosed_of_opened hopen hparen, refuses_value_of_opened hopen hparen⟩

theorem run_operand_of_xIndirect (h : (enclosedIndexed limit 'x').run c = .ok (e, d)) :
    (operand limit).run c = .ok (.valued .xIndirect e, d) := by
  obtain ⟨hgroup, -⟩ := refuses_of_enclosedIndexed h
  exact run_choice_tail (hgroup.bind _) (run_choice_tail (hgroup.bind _)
    (run_choice_head (run_shape_eq_ok.2 ⟨e, rfl, h⟩)))

/-- The shape `(e,s),y` comes late, but nothing before it matches. -/
theorem run_operand_of_stackIndirectY (hx : (enclosedIndexed limit 'x').Refuses c)
    (hs : (enclosedIndexed limit 's').run c = .ok (e, m))
    (hy : (indexedBy 'y').run m = .ok ((), d)) :
    (operand limit).run c = .ok (.valued .stackIndirectY e, d) := by
  obtain ⟨hgroup, hvalue⟩ := refuses_of_enclosedIndexed hs
  obtain ⟨_, -, hopen, -, -⟩ := run_enclosedIndexed_eq_ok.1 hs
  obtain ⟨-, _, -, hparen, -⟩ := run_opened_eq_ok.1 hopen
  have hpk := hparen.peek?
  refine run_choice_tail (hgroup.bind _) (run_choice_tail (hgroup.bind _) ?_)
  refine run_choice_tail (hx.bind _) (run_choice_tail (hvalue.bind _) ?_)
  refine run_choice_tail (hvalue.bind _) ?_
  refine run_choice_tail ((refuses_token (fun _ _ => rfl) (avoids_of_peek? hpk rfl)).bind _) ?_
  refine run_choice_tail ((refuses_enclosed (avoids_of_peek? hpk rfl)).bind _) ?_
  refine run_choice_tail ((refuses_enclosed (avoids_of_peek? hpk rfl)).bind _)
    (run_choice_head ?_)
  exact run_shape_indexed_eq_ok.2 ⟨e, m, rfl, hs, hy⟩

/-! ## The shapes -/

theorem run_operand_implied (h : c.skipBlank.rest = []) :
    (operand limit).run c = .ok (.implied, c.skipBlank) := by
  have hnone : ∀ p, Avoids p c.skipBlank.rest := by
    intro p
    rw [h]
    exact Text.avoids_nil p
  have hend : c.endsStatement = true := by
    rw [Cursor.endsStatement, Cursor.peek?, h]
    simp
  refine run_operand_of_avoids_expression (hnone _) ?_
  refine run_choice_tail ((refuses_token (fun _ _ => rfl) (hnone _)).bind _) ?_
  refine run_choice_tail ((refuses_enclosed (hnone _)).bind _) ?_
  refine run_choice_tail ((refuses_enclosed (hnone _)).bind _) ?_
  refine run_choice_tail ((refuses_enclosedIndexed (hnone _)).bind _) ?_
  exact run_choice_head (run_implied_eq_ok.2 ⟨rfl, hend, rfl⟩)

theorem run_operand_immediate (he : e.Normal) (hn : e.nesting ≤ limit)
    (hr : c.skipBlank.Reads ('#' :: e.chars) d) (hd : BeginsIn closers d.rest) :
    (operand limit).run c = .ok (.valued .immediate e, d) := by
  obtain ⟨m, hmark, hre⟩ := Cursor.reads_append (s := ['#']).1 hr
  refine run_operand_of_avoids_expression (hr.avoids rfl) (run_choice_head ?_)
  exact run_immediate_eq_ok.2 ⟨e, m, rfl, takes_of_reads hmark (he.sum.settled nofun hre),
    run_expression_of_layout (he.sum.mono hn) hre hd⟩

/-- A value that is no binary node stands for itself. -/
theorem run_operand_address (he : e.Normal) (hb : ∀ op l r, e ≠ .binary op l r)
    (hn : e.nesting ≤ limit) (hr : c.skipBlank.Reads e.chars d) (hd : d.rest = []) :
    (operand limit).run c = .ok (.valued .address e, d) := by
  have hparen : Avoids (['('].contains) c.skipBlank.rest := by
    rw [hr.1]
    exact he.avoids_paren hb _
  have hclosed := beginsIn_of_end hd
  have hvalue := run_value_of_layout he.sum hn hr hclosed
  have hcomma : (needed ',').Refuses d := by
    refine refuses_needed ?_
    rw [(settled_of_closers hclosed).skipBlank, hd]
    exact Text.avoids_nil _
  refine run_operand_of_avoids_paren hparen ?_
  refine run_choice_tail (refuses_bind hvalue (hcomma.bind _)) ?_
  exact run_choice_head (run_shape_eq_ok.2 ⟨e, rfl, hvalue⟩)

theorem run_operand_move {f : Expr} (he : e.Normal) (hf : f.Normal)
    (hb : ∀ op l r, e ≠ .binary op l r) (hn : max e.nesting f.nesting ≤ limit)
    (hr : c.skipBlank.Reads (e.chars ++ ',' :: f.chars) d) (hd : d.rest = []) :
    (operand limit).run c = .ok (.valued (.move f) e, d) := by
  have hparen : Avoids (['('].contains) c.skipBlank.rest := by
    rw [hr.1, List.append_assoc]
    exact he.avoids_paren hb _
  obtain ⟨m, hre, hr⟩ := Cursor.reads_append.1 hr
  obtain ⟨m', hcomma, hrf⟩ := Cursor.reads_append (s := [',']).1 hr
  have hm : BeginsIn closers m.rest := beginsIn_of_reads (by decide) hr
  have htakes : m.Takes ',' m' := by
    refine takes_of_reads ?_ (hf.sum.settled nofun hrf)
    rwa [(settled_of_closers hm).skipBlank]
  refine run_operand_of_avoids_paren hparen (run_choice_head ?_)
  exact run_move_eq_ok.2 ⟨e, f, m, m', rfl, run_value_of_layout he.sum (by omega) hre hm, htakes,
    run_expression_of_layout (hf.sum.mono (by omega)) hrf (beginsIn_of_end hd)⟩

/-! ## Bracketed shapes

These are stated for any layout of the value with blanks before it, since a binary node loses its
own parentheses to the shape.
-/

/-- The bracket and the expression after it are read up to the character that closes them. -/
theorem exists_run_opened {bracket ch : Char} {u : List Char} (hb : Blanks b)
    (h : Layout levels (.sum e) t) (hn : levels < limit) (hch : ch ∈ closers)
    (hr : c.skipBlank.Reads (bracket :: (b ++ t) ++ ch :: u) d) :
    ∃ m, (opened limit bracket).run c = .ok (e, m) ∧ m.Settled ∧ m.Reads (ch :: u) d := by
  obtain ⟨m, hopen, hr⟩ := Cursor.reads_append.1 hr
  have hm := beginsIn_of_reads hch hr
  exact ⟨m, run_opened_of_layout hb h hn hopen hm, settled_of_closers hm, hr⟩

theorem run_enclosed_of_layout {opening closing : Char} (hb : Blanks b)
    (h : Layout levels (.sum e) t) (hn : levels < limit) (hclosing : closing ∈ closers)
    (hr : c.skipBlank.Reads (opening :: (b ++ t) ++ [closing]) d) (hd : d.Settled) :
    (enclosed limit opening closing).run c = .ok (e, d) := by
  obtain ⟨m, hopen, hm, hr⟩ := exists_run_opened hb h hn hclosing hr
  exact run_enclosed_of_opened hopen hm hr hd

theorem run_enclosedIndexed_of_layout {letter : Char} (hb : Blanks b)
    (h : Layout levels (.sum e) t) (hn : levels < limit) (hl : letter.toLower = letter)
    (hblank : isBlank letter = false)
    (hr : c.skipBlank.Reads ('(' :: (b ++ t) ++ [',', letter, ')']) d) (hd : d.Settled) :
    (enclosedIndexed limit letter).run c = .ok (e, d) := by
  obtain ⟨m, hopen, hm, hr⟩ := exists_run_opened hb h hn (by decide) hr
  obtain ⟨m', hindex, hclose⟩ := Cursor.reads_append (s := [',', letter]).1 hr
  have hm' : BeginsIn closers m'.rest := beginsIn_of_reads (by decide) hclose
  refine run_enclosedIndexed_eq_ok.2 ⟨m, m', hopen, ?_, takes_of_reads ?_ hd⟩
  · exact run_indexedBy_of_reads hl hblank hindex (settled_of_closers hm') (hm'.avoids rfl)
  · rwa [(settled_of_closers hm').skipBlank]

/-- A comma where the parenthesis should close makes the shapes `(e)` and `(e),y` refuse, and no
expression begins there. -/
theorem refuses_of_comma {u : List Char} (hb : Blanks b) (h : Layout levels (.sum e) t)
    (hn : levels < limit) (hr : c.skipBlank.Reads ('(' :: (b ++ t) ++ ',' :: u) d) :
    (enclosed limit '(' ')').Refuses c ∧ (value limit).Refuses c := by
  obtain ⟨m, hopen, hm, hr⟩ := exists_run_opened hb h hn (by decide) hr
  have hparen : Avoids ([')'].contains) m.skipBlank.rest := by
    rw [hm.skipBlank]
    exact hr.avoids rfl
  exact ⟨refuses_enclosed_of_opened hopen hparen, refuses_value_of_opened hopen hparen⟩

/-- A closed bracket and `,y` after it are read one after the other. -/
theorem exists_run_enclosed_indexed {opening closing ch : Char} (hb : Blanks b)
    (h : Layout levels (.sum e) t) (hn : levels < limit) (hclosing : closing ∈ closers)
    (hch : ch.toLower = 'y') (hblank : isBlank ch = false)
    (hr : c.skipBlank.Reads (opening :: (b ++ t) ++ [closing, ',', ch]) d)
    (hd : d.Settled) (ha : Avoids isIdentifierPart d.rest) :
    ∃ m, (enclosed limit opening closing).run c = .ok (e, m) ∧
      (indexedBy 'y').run m = .ok ((), d) := by
  obtain ⟨k, hopen, hk, hr⟩ := exists_run_opened hb h hn hclosing hr
  obtain ⟨m, hclose, hr⟩ := Cursor.reads_append (s := [closing]).1 hr
  have hm : BeginsIn closers m.rest := beginsIn_of_reads (by decide) hr
  exact ⟨m, run_enclosed_of_opened hopen hk hclose (settled_of_closers hm),
    run_indexedBy_of_reads hch hblank hr hd ha⟩

theorem run_operand_indirectY {ch : Char} (hb : Blanks b) (h : Layout levels (.sum e) t)
    (hn : levels < limit) (hch : ch.toLower = 'y') (hblank : isBlank ch = false)
    (hr : c.skipBlank.Reads ('(' :: (b ++ t) ++ [')', ',', ch]) d) (hd : d.Settled)
    (ha : Avoids isIdentifierPart d.rest) :
    (operand limit).run c = .ok (.valued .indirectY e, d) := by
  obtain ⟨m, henclosed, hy⟩ :=
    exists_run_enclosed_indexed hb h hn (by decide) hch hblank hr hd ha
  exact run_choice_head (run_shape_indexed_eq_ok.2 ⟨e, m, rfl, henclosed, hy⟩)

/-- Where no `y` follows, the value in parentheses is indirect. -/
theorem run_operand_indirect (hb : Blanks b) (h : Layout levels (.sum e) t) (hn : levels < limit)
    (hr : c.skipBlank.Reads ('(' :: (b ++ t) ++ [')']) d) (hd : BeginsIn closers d.rest)
    (hy : (indexedBy 'y').Refuses d) : (operand limit).run c = .ok (.valued .indirect e, d) := by
  have henclosed := run_enclosed_of_layout hb h hn (by decide) hr (settled_of_closers hd)
  refine run_choice_tail (refuses_bind henclosed (hy.bind _)) (run_choice_head ?_)
  exact run_indirect_eq_ok.2 ⟨e, rfl, henclosed, hd.avoids rfl⟩

theorem run_operand_xIndirect (hb : Blanks b) (h : Layout levels (.sum e) t) (hn : levels < limit)
    (hr : c.skipBlank.Reads ('(' :: (b ++ t) ++ [',', 'x', ')']) d) (hd : d.Settled) :
    (operand limit).run c = .ok (.valued .xIndirect e, d) :=
  run_operand_of_xIndirect
    (run_enclosedIndexed_of_layout hb h hn (by decide) (by decide) hr hd)

theorem run_operand_stackIndirectY (hb : Blanks b) (h : Layout levels (.sum e) t)
    (hn : levels < limit) (hr : c.skipBlank.Reads ('(' :: (b ++ t) ++ [',', 's', ')', ',', 'y']) d)
    (hd : d.Settled) (ha : Avoids isIdentifierPart d.rest) :
    (operand limit).run c = .ok (.valued .stackIndirectY e, d) := by
  have hx : (enclosedIndexed limit 'x').Refuses c := by
    obtain ⟨m, hopen, -, hr⟩ := exists_run_opened hb h hn (by decide) hr
    refine refuses_bind hopen ((refuses_indexedBy_of_register hr.1 rfl ?_).bind _)
    exact fun hs => absurd hs (by decide)
  have htext : '(' :: (b ++ t) ++ [',', 's', ')', ',', 'y'] =
      '(' :: (b ++ t) ++ [',', 's', ')'] ++ [',', 'y'] := by simp
  rw [htext] at hr
  obtain ⟨m, hopen, hy⟩ := Cursor.reads_append.1 hr
  have hm : BeginsIn closers m.rest := beginsIn_of_reads (by decide) hy
  exact run_operand_of_stackIndirectY hx
    (run_enclosedIndexed_of_layout hb h hn (by decide) (by decide) hopen (settled_of_closers hm))
    (run_indexedBy_of_reads (by decide) (by decide) hy hd ha)

/-- A bracket is no expression and no mark, so the long shapes are next. -/
theorem run_operand_of_bracket {u : List Char} (hr : c.skipBlank.Reads ('[' :: u) d)
    (hx : (choice "operand" [longIndirectY limit, longIndirect limit, stackIndirectY limit,
      implied]).run c = .ok x) : (operand limit).run c = .ok x := by
  refine run_operand_of_avoids_expression (hr.avoids rfl) ?_
  exact run_choice_tail ((refuses_token (fun _ _ => rfl) (hr.avoids rfl)).bind _) hx

theorem run_operand_longIndirect (hb : Blanks b) (h : Layout levels (.sum e) t)
    (hn : levels < limit) (hr : c.skipBlank.Reads ('[' :: (b ++ t) ++ [']']) d) (hd : d.rest = []) :
    (operand limit).run c = .ok (.valued .longIndirect e, d) := by
  have hclosed := beginsIn_of_end hd
  have henclosed := run_enclosed_of_layout hb h hn (by decide) hr (settled_of_closers hclosed)
  have hy : (indexedBy 'y').Refuses d := refuses_indexedBy_of_end hd
  refine run_operand_of_bracket hr (run_choice_tail (refuses_bind henclosed (hy.bind _)) ?_)
  exact run_choice_head (run_shape_eq_ok.2 ⟨e, rfl, henclosed⟩)

theorem run_operand_longIndirectY (hb : Blanks b) (h : Layout levels (.sum e) t)
    (hn : levels < limit) (hr : c.skipBlank.Reads ('[' :: (b ++ t) ++ [']', ',', 'y']) d)
    (hd : d.Settled) (ha : Avoids isIdentifierPart d.rest) :
    (operand limit).run c = .ok (.valued .longIndirectY e, d) := by
  obtain ⟨m, henclosed, hy⟩ :=
    exists_run_enclosed_indexed hb h hn (by decide) (by decide) (by decide) hr hd ha
  refine run_operand_of_bracket hr (run_choice_head ?_)
  exact run_shape_indexed_eq_ok.2 ⟨e, m, rfl, henclosed, hy⟩

/-! ## Normal forms -/

/-- The normal form of an operand is read as another operand, and a text is left of it. -/
def OperandReadsBack (limit : Nat) (o o' : Operand) (rest : List Char) : Prop :=
  ∀ ⦃c d : Cursor⦄, c.skipBlank.Reads o.chars d → d.rest = [] →
    ∃ m, (operand limit).run c = .ok (o', m) ∧ m.rest = rest

/-- An operand that writes no group is read back as it was. -/
theorem operandReadsBack_of_normal {o : Operand} (ho : o.Normal) (hn : o.nesting ≤ limit)
    (hg : ¬ o.WritesGroup) : OperandReadsBack limit o o [] := by
  intro c d hr hd
  refine ⟨d, ?_, hd⟩
  have hclosed := beginsIn_of_end hd
  have hset := settled_of_closers hclosed
  have hword : Avoids isIdentifierPart d.rest := hclosed.avoids rfl
  cases o with
  | implied =>
    obtain rfl := Cursor.reads_nil_iff.1 hr
    exact run_operand_implied hd
  | valued shape e =>
    cases shape with
    | immediate => exact run_operand_immediate ho hn hr hclosed
    | address =>
      refine run_operand_address ho (fun op l r h => hg ?_) hn hr hd
      subst h
      trivial
    | indirect =>
      exact run_operand_indirect blanks_nil ho.sum (Nat.one_add_le_iff.1 hn) hr hclosed
        (refuses_indexedBy_of_end hd)
    | xIndirect => exact run_operand_xIndirect blanks_nil ho.sum (Nat.one_add_le_iff.1 hn) hr hset
    | indirectY =>
      exact run_operand_indirectY blanks_nil ho.sum (Nat.one_add_le_iff.1 hn) (by decide)
        (by decide) hr hset hword
    | stackIndirectY =>
      exact run_operand_stackIndirectY blanks_nil ho.sum (Nat.one_add_le_iff.1 hn) hr hset hword
    | longIndirect =>
      exact run_operand_longIndirect blanks_nil ho.sum (Nat.one_add_le_iff.1 hn) hr hd
    | longIndirectY =>
      exact run_operand_longIndirectY blanks_nil ho.sum (Nat.one_add_le_iff.1 hn) hr hset hword
    | move f =>
      refine run_operand_move ho.1 ho.2 (fun op l r h => hg ?_) hn hr hd
      subst h
      trivial
    | accumulator => exact ho.elim

/-- A binary node that stands for itself is read as indirect. -/
theorem operandReadsBack_group {op : Operator} {l r : Expr} (he : (Expr.binary op l r).Normal)
    (hn : (Expr.binary op l r).nesting ≤ limit) :
    OperandReadsBack limit (.valued .address (.binary op l r))
      (.valued .indirect (.binary op l r)) [] := by
  intro c d hr hd
  refine ⟨d, ?_, hd⟩
  exact run_operand_indirect blanks_nil (he.joined rfl) (Nat.one_add_le_iff.1 hn) hr
    (beginsIn_of_end hd) (refuses_indexedBy_of_end hd)

/-- A lower-case `y` comes from two letters. -/
theorem toLower_eq_y {ch : Char} (h : ch.toLower = 'y') : ch = 'y' ∨ ch = 'Y' := by
  unfold Char.toLower at h
  split at h
  · refine .inr (Char.ext ?_)
    have hval : ch.val + 32 = 121 := congrArg Char.val h
    show ch.val = 89
    grind
  · exact .inl h

/-- A name or a call is written with its name first, and the word ends there. -/
theorem chars_of_name? {name : String} (h : e.name? = some name) :
    ∃ u, e.chars = name.toList ++ u ∧ BeginsIn ['('] u := by
  cases e with
  | number n => cases h
  | label l =>
    cases l with
    | named name =>
      cases h
      exact ⟨[], (List.append_nil _).symm, Text.beginsIn_nil _⟩
    | relative k hk => cases h
  | binary op l r => cases h
  | call name args =>
    cases h
    exact ⟨'(' :: Expr.charsOfArgs args ++ [')'], List.append_assoc ..,
      Text.beginsIn_cons List.mem_cons_self⟩

/-- After a comma, a second operand is taken for the register if it is a name or a call of the
register's letter. -/
theorem refuses_indexedBy_of_normal {f : Expr} (hf : f.Normal)
    (hy : ¬ (f.name? = some "y" ∨ f.name? = some "Y")) (hc : c.rest = ',' :: f.chars) :
    (indexedBy 'y').Refuses c := by
  obtain ⟨ch, rest, hcons, hopens⟩ := hf.sum.opens nofun
  have hb := isBlank_of_opensExpression hopens
  rw [hcons] at hc
  refine refuses_indexedBy_of_register hc hb fun hch ha => hy ?_
  have hletter := toLower_eq_y hch
  cases hname : f.name? with
  | none =>
    -- A letter begins the normal form, so there is a name.
    have hstart := hf.avoids_identifier hname []
    rw [hcons, List.cons_append, Text.avoids_cons] at hstart
    rcases hletter with rfl | rfl <;> cases hstart
  | some name =>
    obtain ⟨u, hchars, -⟩ := chars_of_name? hname
    obtain ⟨ch', tail, hcs, -, hparts⟩ := Text.isIdentifier_iff.1 (hf.name hname)
    rw [hcs, hcons, List.cons_append, List.cons.injEq] at hchars
    obtain ⟨rfl, rfl⟩ := hchars
    cases tail with
    | nil =>
      rw [← String.ofList_toList (s := name), hcs]
      rcases hletter with rfl | rfl
      · exact .inl rfl
      · exact .inr rfl
    | cons p tail =>
      rw [List.cons_append, Text.avoids_cons, hparts p List.mem_cons_self] at ha
      cases ha

section
variable {op : Operator} {l r f : Expr}

/-- A binary node before a comma is read as indirect, and the comma is left with what follows. -/
theorem operandReadsBack_comma (he : (Expr.binary op l r).Normal) (hf : f.Normal)
    (hy : ¬ (f.name? = some "y" ∨ f.name? = some "Y"))
    (hn : (Expr.binary op l r).nesting ≤ limit) :
    OperandReadsBack limit (.valued (.move f) (.binary op l r))
      (.valued .indirect (.binary op l r)) (',' :: f.chars) := by
  intro c d hr hd
  obtain ⟨m, hgroup, hcomma⟩ := Cursor.reads_append.1 hr
  have hm : m.rest = ',' :: f.chars := by
    rw [hcomma.1, hd, List.append_nil]
  refine ⟨m, ?_, hm⟩
  exact run_operand_indirect blanks_nil (he.joined rfl) (Nat.one_add_le_iff.1 hn) hgroup
    (beginsIn_of_reads (by decide) hcomma) (refuses_indexedBy_of_normal hf hy hm)

/-- A binary node before a comma and a `y` is read as indexed, and only what follows the `y` is
left. -/
theorem operandReadsBack_y (he : (Expr.binary op l r).Normal)
    (hy : f.name? = some "y" ∨ f.name? = some "Y") (hn : (Expr.binary op l r).nesting ≤ limit) :
    OperandReadsBack limit (.valued (.move f) (.binary op l r))
      (.valued .indirectY (.binary op l r)) (f.chars.drop 1) := by
  intro c d hr hd
  obtain ⟨ch, u, hchars, hu, hch, hb⟩ : ∃ ch u, f.chars = ch :: u ∧ BeginsIn ['('] u ∧
      ch.toLower = 'y' ∧ isBlank ch = false := by
    rcases hy with hy | hy
    · obtain ⟨u, hchars, hu⟩ := chars_of_name? hy
      exact ⟨'y', u, hchars, hu, by decide, by decide⟩
    · obtain ⟨u, hchars, hu⟩ := chars_of_name? hy
      exact ⟨'Y', u, hchars, hu, by decide, by decide⟩
  have htext : (Operand.valued (.move f) (.binary op l r)).chars =
      '(' :: Expr.joined op l r ++ [')', ',', ch] ++ u := by
    simp [Operand.chars, Shape.around, Expr.chars, Expr.joined, hchars]
  rw [htext] at hr
  obtain ⟨m, hgroup, hu'⟩ := Cursor.reads_append.1 hr
  have hm : m.rest = u := by
    rw [hu'.1, hd, List.append_nil]
  rw [← hm] at hu
  refine ⟨m, ?_, by rw [hm, hchars]; rfl⟩
  exact run_operand_indirectY blanks_nil (he.joined rfl) (Nat.one_add_le_iff.1 hn) hch hb hgroup
    (hu.avoids rfl) (hu.avoids rfl)

end

end Asm65816.Grammar
