import Asm65816.Line
import Asm65816.Proofs.Forms
import Asm65816.Proofs.Lockstep

/-!
# The grammar in step with itself

Under any lockstep each rule of the grammar keeps in step with itself, also when the second reading
may nest deeper than the first: then the first has to be excused where it goes too deep (`Deeper`).
There is one lemma for each rule. Expressions go by induction on the levels, from what stands inside
the brackets (`Inside`) to a whole expression; operands, statements and lines follow from them.

A line needs the first text to end at a separator. Up to there the second reading finds the
statements of the first, and then what it would find if it began there (`Continues`).
-/

namespace Asm65816

open Text (BeginsIn)

namespace Lockstep

open Grammar

variable {σ : Lockstep} {α : Type} {c c' : Cursor} {near : Cursor → Cursor → Prop}
variable {limit levels limit' levels' : Nat} {inner inner' : Option (Advancing Expr)}

/-- Both readings take the same branch. -/
theorem agree_ite {p p' : Prop} [Decidable p] [Decidable p'] {r s r' s' : Rule α} (hp : p' ↔ p)
    (hpos : p → σ.Agree near (r.run c) (r'.run c'))
    (hneg : ¬ p → σ.Agree near (s.run c) (s'.run c')) :
    σ.Agree near ((if p then r else s).run c) ((if p' then r' else s').run c') := by
  by_cases h : p
  · rw [if_pos h, if_pos (hp.2 h)]
    exact hpos h
  · rw [if_neg h, if_neg (fun h' => h (hp.1 h'))]
    exact hneg h

theorem agree_fail (hc : σ.Near c c') (cause : Cause) (hint : Option String) :
    σ.Agree near ((Rule.fail (.leaf cause c.pos hint) : Rule α).run c)
      ((Rule.fail (.leaf cause c'.pos hint) : Rule α).run c') :=
  .error (failure_leaf hc cause hint)

/-! ## Levels -/

/-- The second reading has the same levels left, or more where going too deep is excused. -/
def Deeper (σ : Lockstep) (limit levels limit' levels' : Nat) : Prop :=
  limit' = limit ∧ levels' = levels ∨
    levels ≤ levels' ∧ ∀ offset, σ.excused (.tooDeep limit offset)

theorem Deeper.refl (σ : Lockstep) (limit levels : Nat) : σ.Deeper limit levels limit levels :=
  .inl ⟨rfl, rfl⟩

/-- What stands inside the brackets keeps in step, or the first reading has nothing there. -/
inductive Inside (σ : Lockstep) (limit limit' : Nat) :
    Option (Advancing Expr) → Option (Advancing Expr) → Prop
  | some {i i' : Advancing Expr} : σ.Similar i.toRule i'.toRule →
      Inside σ limit limit' (some i) (some i')
  | none : limit' = limit → Inside σ limit limit' none none
  | excused {inner' : Option (Advancing Expr)} :
      (∀ offset, σ.excused (.tooDeep limit offset)) → Inside σ limit limit' none inner'

theorem similar_enter {start start' : Cursor} {g g' : Advancing Expr → Rule α}
    (h : σ.Inside limit limit' inner inner') (hstart : σ.Near start start')
    (hg : ∀ i i', σ.Similar i.toRule i'.toRule → σ.Similar (g i) (g' i')) :
    σ.Similar (enter limit start.pos inner >>= g) (enter limit' start'.pos inner' >>= g') := by
  intro c c' hc
  cases h with
  | some hi => exact hg _ _ hi hc
  | none hlimit =>
    subst hlimit
    exact .error (failure_leaf hstart _ _)
  | excused hex => exact .excused (hex _)

/-! ## Chains -/

/-- A chain ends where the first text does, since no operator stands there. -/
theorem similar_chainFrom {operand operand' : Advancing Expr} {operator? : Char → Option Operator}
    (h : σ.Similar operand.toRule operand'.toRule)
    (hends : σ.Ends fun ch => (operator? ch).isSome) (left : Expr) :
    σ.Similar ⟨chainFrom operand operator? left⟩ ⟨chainFrom operand' operator? left⟩ := by
  intro c c' hc
  dsimp only
  fun_induction chainFrom operand operator? left c generalizing c' with
  | case1 left c hnone =>
    rw [chainFrom_of_none ((hc.bind_peek? hends).trans hnone)]
    exact .ok hc
  | case2 left c op hop right d hrun ih =>
    obtain ⟨ch, hch, -⟩ := Option.bind_eq_some_iff.1 hop
    have hagree := h (Alignment.Near.skipBlank (.inl (hc.advance hch))).1
    rw [hrun] at hagree
    obtain ⟨d', hrun', hd⟩ := hagree.of_ok
    rw [chainFrom_of_some ((hc.bind_peek? hends).trans hop) hrun']
    exact ih hd
  | case3 left c op hop f hrun hfatal =>
    obtain ⟨ch, hch, -⟩ := Option.bind_eq_some_iff.1 hop
    have hagree := h (Alignment.Near.skipBlank (.inl (hc.advance hch))).1
    rw [hrun] at hagree
    rcases hagree.of_error with hf | ⟨f', hrun', hf⟩
    · exact .excused hf
    · rw [chainFrom_of_error ((hc.bind_peek? hends).trans hop) hrun', σ.fatal_eq hf,
        if_pos hfatal]
      exact .error hf
  | case4 left c op hop f hrun hfatal =>
    obtain ⟨ch, hch, -⟩ := Option.bind_eq_some_iff.1 hop
    have hagree := h (Alignment.Near.skipBlank (.inl (hc.advance hch))).1
    rw [hrun] at hagree
    rcases hagree.of_error with hf | ⟨f', hrun', hf⟩
    · exact absurd (σ.fatal_of_excused hf) hfatal
    · rw [chainFrom_of_error ((hc.bind_peek? hends).trans hop) hrun', σ.fatal_eq hf,
        if_neg hfatal]
      exact .ok hc

theorem similar_chain {operand operand' : Advancing Expr} {operator? : Char → Option Operator}
    (h : σ.Similar operand.toRule operand'.toRule)
    (hends : σ.Ends fun ch => (operator? ch).isSome) :
    σ.Similar (chain operand operator?).toRule (chain operand' operator?).toRule :=
  h.bind fun left => similar_chainFrom h hends left

/-! ## Forms of an expression -/

theorem similar_group (h : σ.Inside limit limit' inner inner') :
    σ.Similar (group limit inner) (group limit' inner') := by
  refine similar_cursor_bind fun start start' hstart => ?_
  refine (similar_token (σ.ends_of_stops (by decide)) σ.reports_lexical).bind (fun _ => ?_) hstart
  refine similar_enter h hstart fun i i' hi => (hi.within _ _).bind fun e => ?_
  exact (similar_token (σ.ends_of_stops (by decide)) σ.reports_mismatch).bind fun _ =>
    similar_pure e

theorem similar_numeral {digits : Rule Number} (h : σ.Tight digits digits) :
    σ.Similar (numeral digits) (numeral digits) :=
  h.similar.lexeme.bind fun _ => similar_pure _

theorem similar_argument {callee : String} {i i' : Advancing Expr}
    (h : σ.Similar i.toRule i'.toRule) :
    σ.Similar (argument callee i).toRule (argument callee i').toRule := by
  refine Similar.within (h.bind fun e => ?_) _ _
  exact (similar_token (σ.ends_of_stops (by decide)) σ.reports_lexical).bind fun _ => similar_pure _

theorem similar_callArguments {callee : String} {i i' : Advancing Expr}
    (h : σ.Similar i.toRule i'.toRule) :
    σ.Similar (callArguments callee i) (callArguments callee i') := by
  refine similar_cursor_bind fun c c' hc => ?_
  refine agree_ite (hc.peek?_eq_some_iff (σ.ends_eq (by decide))) (fun _ => ?_) (fun _ => ?_)
  · exact (similar_token (σ.ends_of_stops (by decide)) σ.reports_lexical).bind
      (fun _ => similar_pure _) hc
  · exact similar_iterate (similar_argument h) hc

theorem similar_call (h : σ.Inside limit limit' inner inner') :
    σ.Similar (call limit inner) (call limit' inner') := by
  refine tight_identifier.similar.lexeme.bind fun name => similar_cursor_bind fun c c' hc => ?_
  refine agree_ite (hc.peek?_eq_some_iff (σ.ends_eq (by decide))) (fun _ => ?_) (fun _ => ?_)
  · refine similar_enter h hc (fun i i' hi => ?_) hc
    refine (similar_token (σ.ends_of_stops (by decide)) σ.reports_lexical).bind fun _ => ?_
    exact (similar_callArguments hi).bind fun _ => similar_pure _
  · exact agree_fail hc _ _

/-- Both readings see a marker, or none does. -/
theorem marker_iff (hc : σ.Near c c') :
    c'.peek? = some '+' ∨ c'.peek? = some '-' ↔ c.peek? = some '+' ∨ c.peek? = some '-' := by
  rw [hc.peek?_eq_some_iff (σ.ends_eq (by decide)), hc.peek?_eq_some_iff (σ.ends_eq (by decide))]

theorem similar_reference : σ.Similar reference reference := by
  refine similar_cursor_bind fun c c' hc => ?_
  refine agree_ite (marker_iff hc) (fun _ => ?_) (fun _ => ?_)
  · exact tight_relativeLabel.similar.lexeme.bind (fun _ => similar_pure _) hc
  · exact tight_identifier.similar.lexeme.bind (fun _ => similar_pure _) hc

theorem similar_atom (h : σ.Inside limit limit' inner inner') :
    σ.Similar (atom limit inner).toRule (atom limit' inner').toRule :=
  similar_skipBlank.bind fun _ => similar_choice _
    (.cons (similar_group h) (.cons (similar_numeral tight_decimal)
      (.cons (similar_numeral tight_hexadecimal) (.cons (similar_call h)
        (.cons similar_reference .nil)))))

theorem similar_term (h : σ.Inside limit limit' inner inner') :
    σ.Similar (term limit inner).toRule (term limit' inner').toRule :=
  similar_chain (similar_atom h) (σ.ends_of_stops (by decide))

theorem similar_sum (h : σ.Inside limit limit' inner inner') :
    σ.Similar (sum limit inner).toRule (sum limit' inner').toRule :=
  similar_chain (similar_term h) (σ.ends_of_stops (by decide))

/-- One level down the second reading still has as many levels as the first. -/
theorem inside_of_deeper (h : σ.Deeper limit levels limit' levels') :
    σ.Inside limit limit' (inside limit levels) (inside limit' levels') := by
  induction levels generalizing levels' with
  | zero =>
    rcases h with ⟨rfl, rfl⟩ | ⟨-, hex⟩
    · exact .none rfl
    · exact .excused hex
  | succ levels ih =>
    rcases h with ⟨rfl, rfl⟩ | ⟨hle, hex⟩
    · refine .some ?_
      rw [expression_eq_sum]
      exact similar_sum (ih (.refl ..))
    · obtain ⟨levels', rfl⟩ : ∃ n, levels' = n + 1 := ⟨levels' - 1, by omega⟩
      refine .some ?_
      rw [expression_eq_sum, expression_eq_sum]
      exact similar_sum (ih (.inr ⟨by omega, hex⟩))

theorem similar_expression (h : σ.Deeper limit levels limit' levels') :
    σ.Similar (expression limit levels).toRule (expression limit' levels').toRule := by
  rw [expression_eq_sum, expression_eq_sum]
  exact similar_sum (inside_of_deeper h)

/-! ## Parts of an operand -/

section
variable (h : σ.Deeper limit limit limit' limit')
include h

theorem similar_value : σ.Similar (value limit).toRule (value limit').toRule :=
  similar_expression h

theorem similar_opened {bracket : Char} (hends : σ.Ends [bracket].contains) :
    σ.Similar (opened limit bracket) (opened limit' bracket) := by
  refine similar_cursor_bind fun start start' hstart => ?_
  refine (similar_token hends σ.reports_lexical).bind (fun _ => ?_) hstart
  exact similar_enter (inside_of_deeper h) hstart fun i i' hi => hi.within _ _

omit h in
theorem similar_needed {ch : Char} (hends : σ.Ends [ch].contains) :
    σ.Similar (needed ch) (needed ch) := similar_token hends σ.reports_mismatch

theorem similar_enclosed {opening closing : Char} (hopening : σ.Ends [opening].contains)
    (hclosing : σ.Ends [closing].contains) :
    σ.Similar (enclosed limit opening closing) (enclosed limit' opening closing) :=
  (similar_opened h hopening).bind fun _ =>
    (similar_needed hclosing).bind fun _ => similar_pure _

omit h in
theorem tight_registerLetter {letter : Char} (hends : σ.Ends fun ch => ch.toLower = letter) :
    σ.Tight (registerLetter letter) (registerLetter letter) := by
  intro c c' hc
  have hpeek :
      c'.peek?.map Char.toLower = some letter ↔ c.peek?.map Char.toLower = some letter := by
    rcases hc.peek?_cases hends with hsame | ⟨hnone, hother⟩
    · rw [hsame]
    · rw [hnone, Option.map_eq_some_iff]
      refine ⟨?_, nofun⟩
      rintro ⟨ch, hch, hletter⟩
      exact absurd hletter (of_decide_eq_false (hother ch hch))
  simp only [registerLetter]
  by_cases hletter : c.peek?.map Char.toLower = some letter
  · obtain ⟨ch, hch, -⟩ := Option.map_eq_some_iff.1 hletter
    have hadvance := hc.advance hch
    simp only [hpeek.2 hletter, hletter, Alignment.Near.endsWord (.inl hadvance)]
    split
    · exact .ok hadvance
    · exact .error (failure_leaf hc _ _)
  · rw [if_neg fun hcond => hletter hcond.1, if_neg fun hcond => hletter (hpeek.1 hcond.1)]
    exact .error (failure_leaf hc _ _)

omit h in
theorem similar_register {letter : Char} (hends : σ.Ends fun ch => ch.toLower = letter) :
    σ.Similar (register letter) (register letter) :=
  similar_skipBlank.bind fun _ => (tight_registerLetter hends).similar.lexeme

omit h in
theorem similar_indexedBy {letter : Char} (hends : σ.Ends fun ch => ch.toLower = letter) :
    σ.Similar (indexedBy letter) (indexedBy letter) :=
  (similar_needed (σ.ends_singleton (by decide))).bind fun _ => similar_register hends

theorem similar_enclosedIndexed {letter : Char} (hends : σ.Ends fun ch => ch.toLower = letter) :
    σ.Similar (enclosedIndexed limit letter) (enclosedIndexed limit' letter) :=
  (similar_opened h (σ.ends_singleton (by decide))).bind fun _ =>
    (similar_indexedBy hends).bind fun _ =>
      (similar_needed (σ.ends_singleton (by decide))).bind fun _ => similar_pure _

/-! ## Operands -/

theorem similar_indirectY : σ.Similar (indirectY limit) (indirectY limit') :=
  (similar_enclosed h (σ.ends_singleton (by decide)) (σ.ends_singleton (by decide))).bind fun _ =>
    (similar_indexedBy (σ.ends_of_stops (by decide))).bind fun _ => similar_pure _

/-- No operator stands where the first text ends, so a group that ends there goes on in neither. -/
theorem similar_indirect : σ.Similar (indirect limit) (indirect limit') := by
  refine (similar_enclosed h (σ.ends_singleton (by decide)) (σ.ends_singleton (by decide))).bind
    fun e => similar_cursor_bind fun c c' hc => ?_
  refine agree_ite ?_ (fun _ => agree_fail hc _ _) (fun _ => .ok hc)
  rw [hc.any_peek? (σ.ends_of_stops (by decide))]

theorem similar_xIndirect : σ.Similar (xIndirect limit) (xIndirect limit') :=
  (similar_enclosedIndexed h (σ.ends_of_stops (by decide))).bind fun _ => similar_pure _

theorem similar_move : σ.Similar (move limit) (move limit') :=
  (similar_value h).bind fun _ => (similar_needed (σ.ends_singleton (by decide))).bind fun _ =>
    ((similar_value h).within _ _).bind fun _ => similar_pure _

theorem similar_address : σ.Similar (address limit) (address limit') :=
  (similar_value h).bind fun _ => similar_pure _

theorem similar_immediate : σ.Similar (immediate limit) (immediate limit') :=
  (similar_token (σ.ends_singleton (by decide)) σ.reports_lexical).bind fun _ =>
    ((similar_value h).within _ _).bind fun _ => similar_pure _

theorem similar_longIndirectY : σ.Similar (longIndirectY limit) (longIndirectY limit') :=
  (similar_enclosed h (σ.ends_singleton (by decide)) (σ.ends_singleton (by decide))).bind fun _ =>
    (similar_indexedBy (σ.ends_of_stops (by decide))).bind fun _ => similar_pure _

theorem similar_longIndirect : σ.Similar (longIndirect limit) (longIndirect limit') :=
  (similar_enclosed h (σ.ends_singleton (by decide)) (σ.ends_singleton (by decide))).bind fun _ =>
    similar_pure _

theorem similar_stackIndirectY : σ.Similar (stackIndirectY limit) (stackIndirectY limit') :=
  (similar_enclosedIndexed h (σ.ends_of_stops (by decide))).bind fun _ =>
    (similar_indexedBy (σ.ends_of_stops (by decide))).bind fun _ => similar_pure _

omit h in
theorem similar_implied : σ.Similar implied implied := by
  refine similar_cursor_bind fun c c' hc => ?_
  refine agree_ite (by rw [hc.endsStatement]) (fun _ => ?_) (fun _ => agree_fail hc _ _)
  exact similar_skipBlank.bind (fun _ => similar_pure _) hc

theorem similar_operand : σ.Similar (operand limit) (operand limit') :=
  similar_choice _
    (.cons (similar_indirectY h) (.cons (similar_indirect h) (.cons (similar_xIndirect h)
      (.cons (similar_move h) (.cons (similar_address h) (.cons (similar_immediate h)
        (.cons (similar_longIndirectY h) (.cons (similar_longIndirect h)
          (.cons (similar_stackIndirectY h) (.cons similar_implied .nil))))))))))

/-! ## Statements -/

theorem similar_keyword : σ.Similar (keyword limit) (keyword limit') := by
  refine similar_cursor_bind fun start start' hstart => ?_
  refine tight_identifier.similar.bind (fun name c c' hc => ?_) hstart
  refine agree_ite Iff.rfl (fun _ => ?_) (fun _ => .error (failure_leaf hstart _ _))
  exact ((similar_value h).within _ _).bind (fun _ => similar_pure _) hc

omit h in
/-- The colon of a name has to touch it, and no colon touches the end of the first text. -/
theorem similar_labelDeclaration : σ.Similar labelDeclaration labelDeclaration := by
  refine similar_cursor_bind fun c c' hc => ?_
  refine agree_ite (marker_iff hc) (fun _ => ?_) (fun _ => ?_)
  · refine tight_relativeLabel.similar.bind (fun l => ?_) hc
    refine similar_cursor_bind fun d d' hd => ?_
    refine agree_ite (by rw [hd.endsStatement]) (fun _ => ?_) (fun _ => agree_fail hd _ _)
    exact similar_skipBlank.bind (fun _ => similar_pure _) hd
  · refine (tight_identifier hc).bind fun name d d' _ hd => ?_
    have hcolon : σ.Agree σ.Exact
        ((Rule.char [':'] "':' after label name" Failure.lexical).run d)
        ((Rule.char [':'] "':' after label name" Failure.lexical).run d') := by
      refine agree_char σ.reports_lexical (.inl hd) fun ch rest' hnil hcons => ?_
      refine σ.avoids_colon_gap ch ?_
      rw [← List.nil_append (σ.gap ++ σ.rest), ← hnil, ← hd.2, hcons]
      rfl
    refine (hcolon.bind fun _ e e' _ he => ?_).bind fun _ e e' _ he => .ok he
    exact similar_skipBlank.bind (fun _ => similar_pure _) (.inl he)

theorem similar_assignmentStatement :
    σ.Similar (assignmentStatement limit) (assignmentStatement limit') :=
  (tight_identifier.similar.bind fun _ =>
    (similar_token (σ.ends_singleton (by decide)) σ.reports_lexical).bind fun _ =>
      ((similar_value h).within _ _).bind fun _ => similar_pure _).bind fun _ => similar_pure _

omit h in
theorem tight_sizeLetter : σ.Tight sizeLetter sizeLetter := by
  intro c c' hc
  simp only [sizeLetter, hc.bind_peek? (g := Size.ofLetter?) (σ.ends_of_stops (by decide))]
  split
  · next size hsize =>
    obtain ⟨ch, hch, -⟩ := Option.bind_eq_some_iff.1 hsize
    have hadvance := hc.advance hch
    rw [Alignment.Near.endsWord (.inl hadvance)]
    split
    · exact .ok hadvance
    · exact .error (failure_leaf hc _ _)
  · exact .error (failure_leaf hc _ _)

omit h in
theorem similar_sizeSuffix : σ.Similar sizeSuffix sizeSuffix := by
  refine similar_cursor_bind fun c c' hc => ?_
  refine agree_ite (hc.skipBlank.1.peek?_eq_some_iff (σ.ends_eq (by decide))) (fun _ => ?_)
    (fun _ => .ok hc)
  exact (similar_token (σ.ends_singleton (by decide)) σ.reports_lexical).bind
    (fun _ => tight_sizeLetter.similar.bind fun _ => similar_pure _) hc

theorem similar_instruction : σ.Similar (instruction limit) (instruction limit') :=
  tight_identifier.similar.bind fun _ => similar_sizeSuffix.bind fun _ =>
    (similar_operand h).bind fun _ => similar_pure _

theorem similar_statement : σ.Similar (statement limit).toRule (statement limit').toRule :=
  similar_choice _
    (.cons (similar_keyword h) (.cons similar_labelDeclaration
      (.cons (similar_assignmentStatement h) (.cons (similar_instruction h) .nil))))

end

end Lockstep

/-! ## Lines -/

namespace Line

variable {limit : Nat} {c d : Cursor} {ch : Char} {s : Statement}

theorem statementsFrom_of_end (h : c.rest = []) : statementsFrom limit c = .ok [] := by
  rw [statementsFrom]
  split
  · rfl
  · next h' =>
    rw [h] at h'
    cases h'

theorem statementsFrom_of_colon (h : c.peek? = some ':') :
    statementsFrom limit c = statementsFrom limit (c.advance 1).skipBlank := by
  obtain ⟨rest, hrest⟩ := Cursor.peek?_eq_some.1 h
  rw [statementsFrom]
  split
  · next h' =>
    rw [hrest] at h'
    cases h'
  · next h' =>
    rw [hrest] at h'
    cases h'
    rfl

/-- A statement is followed by a separator and others, or something is left over. -/
theorem statementsFrom_of_statement (h : c.peek? = some ch) (hne : ch ≠ ':') :
    statementsFrom limit c =
      match (Grammar.statement limit).run c with
      | .error f => .error f
      | .ok (s, d) =>
        if mayFollow s d.skipBlank then
          (statementsFrom limit d.skipBlank).map ((c.pos, s) :: ·)
        else .error (leftover d.skipBlank) := by
  obtain ⟨rest, hrest⟩ := Cursor.peek?_eq_some.1 h
  rw [statementsFrom]
  split
  · next h' =>
    rw [hrest] at h'
    cases h'
  · next h' =>
    rw [hrest] at h'
    cases h'
    rw [if_neg hne]
    split
    · next hrun => rw [hrun]
    · next s d hrun =>
      rw [hrun]
      dsimp only
      cases statementsFrom limit d.skipBlank with
      | ok found => rfl
      | error f => rfl

end Line

namespace Lockstep

variable {σ : Lockstep} {limit limit' : Nat} {c c' d d' : Cursor}
  {more : Except Failure (List (Nat × Statement))}

/-- Where the second reading is when the first text has ended. -/
def afterEnd (σ : Lockstep) (c : Cursor) : Cursor :=
  ⟨c.pos + c.rest.length + σ.shift + σ.gap.length, σ.rest⟩

theorem afterEnd_eq_of_reads {d : Cursor} {s : List Char} (h : c.Reads s d) :
    σ.afterEnd d = σ.afterEnd c := by
  rw [afterEnd, afterEnd, h.2, h.1, List.length_append]
  congr 1
  omega

/-- What the second reading finds in a line: the statements of the first, which stand further on,
and `more` after them. -/
inductive Continues (σ : Lockstep) (more : Except Failure (List (Nat × Statement))) :
    Except Failure (List (Nat × Statement)) → Except Failure (List (Nat × Statement)) → Prop
  | ok (found : List (Nat × Statement)) : Continues σ more (.ok found)
      (more.map fun later => found.map (fun (pos, s) => (pos + σ.shift, s)) ++ later)
  | error {f f' : Failure} : σ.failure f f' → Continues σ more (.error f) (.error f')
  | excused {f : Failure} {x : Except Failure (List (Nat × Statement))} : σ.excused f →
      Continues σ more (.error f) x

theorem Continues.nil (σ : Lockstep) (more : Except Failure (List (Nat × Statement))) :
    σ.Continues more (.ok []) more := by
  have hmore : σ.Continues more (.ok []) _ := .ok []
  cases more with
  | ok later => exact hmore
  | error f => exact hmore

/-- A first statement in both readings. -/
theorem Continues.cons {x x' : Except Failure (List (Nat × Statement))} {pos : Nat}
    {s : Statement} (h : σ.Continues more x x') :
    σ.Continues more (x.map ((pos, s) :: ·)) (x'.map ((pos + σ.shift, s) :: ·)) := by
  cases h with
  | ok found =>
    have hcons : σ.Continues more (.ok ((pos, s) :: found)) _ := .ok _
    cases more with
    | ok later => exact hcons
    | error f => exact hcons
  | error hf => exact .error hf
  | excused hf => exact .excused hf

/-- The line may go on in both readings or in none, since a separator stands where the first text
ends. -/
theorem mayFollow_eq (hrest : BeginsIn [':'] σ.rest) (s : Statement) (hd : σ.Near d d')
    (hend : d.rest = [] → σ.Past d d') : Line.mayFollow s d' = Line.mayFollow s d := by
  have hpeek : d'.peek?.all (· = ':') = d.peek?.all (· = ':') := by
    cases hdrest : d.rest with
    | nil =>
      rw [Cursor.peek?, Cursor.peek?, (hend hdrest).2.2, hdrest, List.head?_nil, Option.all_none,
        Option.all_eq_true]
      intro ch hch
      simpa using hrest ch hch
    | cons ch rest =>
      have hpeek : d.peek? = some ch := Cursor.peek?_eq_some.2 ⟨rest, hdrest⟩
      rw [(hd.exact_of_peek? hpeek).peek? hpeek, hpeek]
  rw [Line.mayFollow, Line.mayFollow, hpeek]

/-- A statement is found by both readings, and they go on after it, or they fail together. -/
theorem continues_of_statement {ch : Char} (h : σ.Deeper limit limit limit' limit')
    (hrest : BeginsIn [':'] σ.rest) (hc : σ.Near c c') (hpeek : c.peek? = some ch)
    (hne : ch ≠ ':')
    (ih : ∀ s d d', (Grammar.statement limit).run c = .ok (s, d) → σ.Near d.skipBlank d' →
      (d.skipBlank.rest = [] → σ.Past d.skipBlank d') →
      σ.Continues more (Line.statementsFrom limit d.skipBlank) (Line.statementsFrom limit' d')) :
    σ.Continues more (Line.statementsFrom limit c) (Line.statementsFrom limit' c') := by
  have hexact := hc.exact_of_peek? hpeek
  rw [Line.statementsFrom_of_statement hpeek hne,
    Line.statementsFrom_of_statement (hexact.peek? hpeek) hne]
  have hrun := similar_statement h hc
  cases hx : (Grammar.statement limit).run c with
  | error f =>
    rw [hx] at hrun
    rcases hrun.of_error with hf | ⟨f', hx', hf⟩
    · exact .excused hf
    · rw [hx']
      exact .error hf
  | ok x =>
    obtain ⟨s, d⟩ := x
    rw [hx] at hrun
    obtain ⟨d', hx', hd⟩ := hrun.of_ok
    obtain ⟨hskip, hend⟩ := hd.skipBlank
    rw [hx']
    dsimp only
    rw [mayFollow_eq hrest s hskip hend]
    split
    · rw [hexact.1]
      exact (ih s d _ hx hskip hend).cons
    · refine .error (σ.leaf _ hskip rfl rfl fun hsame => ?_)
      rw [hsame]

/-- The second reading finds in a line what the first does, and goes on where the first ends. -/
theorem continues_statementsFrom (h : σ.Deeper limit limit limit' limit')
    (hrest : BeginsIn [':'] σ.rest) (hc : σ.Near c c') (hend : c.rest = [] → σ.Past c c') :
    σ.Continues (Line.statementsFrom limit' (σ.afterEnd c)) (Line.statementsFrom limit c)
      (Line.statementsFrom limit' c') := by
  -- The induction is on what is left to read: each separator and each statement reads something.
  induction hn : c.rest.length using Nat.strongRecOn generalizing c c' with
  | ind n ih =>
    cases hcons : c.rest with
    | nil =>
      obtain ⟨-, hpos, hrest'⟩ := hend hcons
      have hafter : c' = σ.afterEnd c := by
        rw [afterEnd, hcons, ← hrest']
        exact congrArg (Cursor.mk · c'.rest) hpos
      rw [Line.statementsFrom_of_end hcons, hafter]
      exact .nil σ _
    | cons ch rest =>
      have hpeek : c.peek? = some ch := Cursor.peek?_eq_some.2 ⟨rest, hcons⟩
      by_cases hcolon : ch = ':'
      · subst hcolon
        rw [Line.statementsFrom_of_colon hpeek,
          Line.statementsFrom_of_colon ((hc.exact_of_peek? hpeek).peek? hpeek)]
        obtain ⟨hskip, hend⟩ := Alignment.Near.skipBlank (.inl (hc.advance hpeek))
        have hread := (Cursor.reads_advance_one hpeek).append (c.advance 1).reads_skipBlank
        rw [← afterEnd_eq_of_reads hread]
        exact ih _ (hn ▸ hread.length_lt (by simp)) hskip hend rfl
      · refine continues_of_statement h hrest hc hpeek hcolon fun s d d' hrun hskip hend => ?_
        obtain ⟨used, hne, hused⟩ := (Grammar.statement limit).advances hrun
        have hread := hused.append d.reads_skipBlank
        rw [← afterEnd_eq_of_reads hread]
        exact ih _ (hn ▸ hread.length_lt (by simp [hne])) hskip hend rfl

end Lockstep

end Asm65816
