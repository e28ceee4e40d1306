import Asm65816.Proofs.FailureShape
import Asm65816.Proofs.TextLines
import Asm65816.Proofs.Tokens

/-!
# The wording of failures

Whatever fails is told on one line. Messages hold names, literals and characters of the text that
was read; a name or a literal has no line feed in it, and a character is quoted, so a line feed
shows as an escape. A failure that leaves a statement has a hint as well: a fatal one brings its
own, and a choice takes the words of the deepest failure below it.

`Failure.Clear` says this of a failure and of those below it, and `Rule.Clear` of all the failures
of a rule, with a lemma for each rule in the order of the grammar. What a rule says may depend on
what was read before, so a sequence needs its second part to be clear only for what the first part
can give (`Rule.Gives`).
-/

namespace Asm65816

/-! ## Texts on one line -/

namespace Text

/-- A text that shows as one line: there is some of it, and no line feed. -/
def Shown (s : String) : Prop := s ≠ "" ∧ OneLine s

instance (s : String) : Decidable (Shown s) := inferInstanceAs (Decidable (_ ∧ _))

/-- A text behind a shown one is shown with it. -/
theorem Shown.append {s t : String} (hs : Shown s) (ht : OneLine t) : Shown (s ++ t) :=
  ⟨fun h => hs.1 (String.append_eq_empty_iff.1 h).1, oneLine_append.2 ⟨hs.2, ht⟩⟩

theorem OneLine.between {before s after : String} (hbefore : OneLine before) (hs : OneLine s)
    (hafter : OneLine after) : OneLine (before ++ s ++ after) :=
  oneLine_append.2 ⟨oneLine_append.2 ⟨hbefore, hs⟩, hafter⟩

/-- A literal is on one line. -/
theorem newline_not_mem_takeWhile (r : Radix) (cs : List Char) : '\n' ∉ cs.takeWhile r.isDigit :=
  (visible_of_isDigit (List.all_eq_true.1 List.all_takeWhile)).newline_not_mem

/-- Only a line feed is a line feed in lower case. -/
theorem eq_newline_of_toLower {c : Char} (h : c.toLower = '\n') : c = '\n' := by
  unfold Char.toLower at h
  split at h
  · have hval : c.val + 32 = 10 := congrArg Char.val h
    grind
  · exact h

namespace Quoted

theorem newline_not_mem_numbered (n : Nat) : '\n' ∉ numbered n := by
  have hex : ∀ width, '\n' ∉ lowerHex width n := by
    intro width hmem
    obtain ⟨c, hc, hlower⟩ := List.mem_map.1 hmem
    obtain rfl := eq_newline_of_toLower hlower
    exact (visible_of_isDigit (Radix.isDigit_zeroPadded .hexadecimal width n)).newline_not_mem hc
  unfold numbered
  split
  · simp [hex 2]
  · split
    · simp [hex 4]
    · simp [hex 8]

/-- A line feed is escaped, and no escape has one in it. -/
theorem newline_not_mem_escaped {delimiter : Char} (hd : delimiter ≠ '\n') (c : Char) :
    '\n' ∉ escaped delimiter c := by
  unfold escaped
  split
  · next h =>
    have hc : c ≠ '\n' := by
      rintro rfl
      simp [hd.symm] at h
    simp [hc.symm]
  · split
    · decide
    · split
      · decide
      · split
        · decide
        · split
          · next hne _ _ => simpa using Ne.symm hne
          · exact newline_not_mem_numbered _

theorem oneLine_text (s : String) : OneLine (text s) := by
  have hd : delimiter s.toList ≠ '\n' := by
    unfold delimiter
    split
    · decide
    · decide
  refine oneLine_ofList.2 fun hmem => ?_
  rcases List.mem_append.1 hmem with hmem | hmem
  · rcases List.mem_cons.1 hmem with h | hmem
    · exact hd h.symm
    · obtain ⟨c, -, hc⟩ := List.mem_flatMap.1 hmem
      exact newline_not_mem_escaped hd c hc
  · exact hd (List.mem_singleton.1 hmem).symm

end Quoted

end Text

open Text (OneLine Shown)

/-! ## Clear failures -/

/-- The reason is given in words on one line. -/
def Reason.Clear : Reason → Prop
  | expected what | missing what _ => OneLine what
  | notKeyword name | malformedArguments name => OneLine name
  | trailing text => OneLine text
  | labelNotAlone | groupContinues => True
  | given message => Shown message

theorem Reason.Clear.shown {reason : Reason} (h : reason.Clear) : Shown reason.message := by
  have hexpected : Shown "expected " := by decide
  cases reason with
  | expected what => exact hexpected.append h
  | missing what found =>
    cases found with
    | none => exact (hexpected.append h).append (by decide)
    | some c => exact ((hexpected.append h).append (by decide)).append (Text.Quoted.oneLine_text _)
  | notKeyword name =>
    exact (Text.Shown.append (by decide : Shown "'") h).append (by decide)
  | malformedArguments name =>
    exact (Text.Shown.append (by decide : Shown "malformed argument list in call to '") h).append
      (by decide)
  | trailing text =>
    exact (Text.Shown.append (by decide : Shown "unexpected '") h).append (by decide)
  | labelNotAlone | groupContinues => decide
  | given message => exact h

/-- The cause is given in words on one line. -/
def Cause.Clear : Cause → Prop
  | general reason | lexical reason | mismatch reason _ => reason.Clear
  | overflow literal => OneLine literal
  | tooDeep _ => True

theorem Cause.Clear.shown {cause : Cause} (h : cause.Clear) : Shown cause.message := by
  cases cause with
  | general reason | lexical reason | mismatch reason => exact Reason.Clear.shown h
  | overflow literal =>
    exact (Text.Shown.append (by decide : Shown "numeric literal '") h).append (by decide)
  | tooDeep limit =>
    exact (Text.Shown.append (by decide : Shown "expression nested deeper than ")
      (Text.visible_decimalInt limit).newline_not_mem).append (by decide)

namespace Failure

/-- There is a hint, and it shows as one line. -/
def Hinted (f : Failure) : Prop := ∃ hint, f.hint = some hint ∧ Shown hint

/-- The failure and those below it are told on one line each, and those that no rule tells in its
own words have a hint: a fatal failure and that of a choice. -/
inductive Clear : Failure → Prop
  | leaf {cause : Cause} {offset : Int} {hint : Option String} : cause.Clear →
      (cause.fatal = true → (leaf cause offset hint).Hinted) → Clear (leaf cause offset hint)
  | exhausted {reason : Reason} {offset : Int} {hint : Option String} {fs : List Failure} :
      reason.Clear → (exhausted reason offset hint fs).Hinted → (∀ f ∈ fs, Clear f) →
      Clear (exhausted reason offset hint fs)

namespace Clear

variable {f : Failure} {fs : List Failure}

theorem shown (h : f.Clear) : Shown f.message := by
  cases h with
  | leaf hcause => exact hcause.shown
  | exhausted hreason => exact hreason.shown

theorem hinted (h : f.Clear) (hfatal : f.fatal = true) : f.Hinted := by
  cases h with
  | leaf _ hhint => exact hhint hfatal
  | exhausted _ hhint => exact hhint

/-- A missing token has no hint of its own. -/
theorem of_reason {report : Reason → Int → Failure} {reason : Reason} {offset : Int}
    (hreport : report = lexical ∨ report = mismatch) (h : reason.Clear) :
    (report reason offset).Clear := by
  rcases hreport with rfl | rfl
  · exact .leaf h nofun
  · exact .leaf h nofun

theorem overflow {literal : String} (offset : Int) (h : OneLine literal) :
    (overflow literal offset none).Clear :=
  .leaf h fun _ => ⟨overflowHint, rfl, by decide⟩

theorem tooDeep (limit offset : Int) : (tooDeep limit offset).Clear :=
  .leaf trivial fun _ => ⟨_, rfl, by decide⟩

/-- Told in a rule's own words, a failure gives the hint in its words. -/
theorem within {reason : Reason} (h : f.Clear) (hreason : reason.Clear) (committed : Bool) :
    (f.within reason committed).Clear := by
  rw [Failure.within]
  split
  · exact h
  · exact .leaf hreason fun _ => ⟨f.message, rfl, h.shown⟩

/-- The way to the deepest failure leads over clear ones. -/
theorem deepest (h : f.Clear) : f.deepest.Clear := by
  induction h with
  | leaf hcause hhint => exact .leaf hcause hhint
  | @exhausted reason offset hint fs hreason hhint hfs ih =>
    by_cases hnil : fs = []
    · subst hnil
      exact .exhausted hreason hhint nofun
    · obtain ⟨g, hg⟩ := exists_furthest? hnil
      rw [deepest_exhausted hg]
      exact ih g (furthest?_mem hg)

/-- A choice among clear failures takes its hint from one of them. -/
theorem ofAlternatives {what : String} {offset : Int} (hwhat : OneLine what) (hne : fs ≠ [])
    (hfs : ∀ f ∈ fs, f.Clear) : (ofAlternatives (.expected what) offset none fs).Clear := by
  obtain ⟨g, hg⟩ := exists_furthest? hne
  refine .exhausted hwhat ⟨g.deepest.message, ?_, (hfs g (furthest?_mem hg)).deepest.shown⟩ hfs
  show (deepestOf fs).map _ = _
  rw [deepestOf_eq, hg]
  rfl

end Clear

end Failure

/-! ## Rules that speak clearly -/

namespace Rule

variable {α β : Type} {r : Rule α}

/-- The rule answers with this value somewhere. -/
def Gives (r : Rule α) (a : α) : Prop := ∃ c d, r.run c = .ok (a, d)

/-- The failures of the rule are clear. -/
def Clear (r : Rule α) : Prop := ∀ ⦃c : Cursor⦄ ⦃f : Failure⦄, r.run c = .error f → f.Clear

theorem clear_pure (a : α) : (pure a : Rule α).Clear := fun _ _ hf => by cases hf

theorem clear_skipBlank : skipBlank.Clear := fun _ _ hf => by cases hf

theorem clear_cursor : cursor.Clear := fun _ _ hf => by cases hf

theorem clear_fail {f : Failure} (h : f.Clear) : (fail f : Rule α).Clear := fun _ _ hf => by
  cases hf
  exact h

/-- A sequence fails as one of its parts does, the second part with what the first gave. -/
theorem Clear.bind {k : α → Rule β} (hr : r.Clear) (hk : ∀ a, r.Gives a → (k a).Clear) :
    (r >>= k).Clear := fun c f hf => by
  rcases run_bind_eq_error.1 hf with hf | ⟨a, d, hok, hf⟩
  · exact hr hf
  · exact hk a ⟨c, d, hok⟩ hf

theorem Clear.lexeme (hr : r.Clear) : (lexeme r).Clear :=
  hr.bind fun a _ => clear_skipBlank.bind fun _ _ => clear_pure a

theorem Gives.of_lexeme {a : α} (h : (lexeme r).Gives a) : r.Gives a := by
  obtain ⟨c, d, h⟩ := h
  obtain ⟨m, hrun, -⟩ := run_lexeme_eq_ok.1 h
  exact ⟨c, m, hrun⟩

theorem Clear.within (hr : r.Clear) (reason : Reason) (hreason : reason.Clear) (committed : Bool) :
    (r.within reason committed).Clear := fun c f hf => by
  simp only [Rule.within] at hf
  split at hf
  · cases hf
  · next g hg =>
    cases hf
    exact (hr hg).within hreason committed

section
variable {accepted : List Char} {what : String} {report : Reason → Int → Failure}

theorem clear_char (hreport : report = Failure.lexical ∨ report = Failure.mismatch)
    (hwhat : OneLine what) : (char accepted what report).Clear := fun c f hf => by
  simp only [char] at hf
  split at hf
  · cases hf
    exact .of_reason hreport hwhat
  · split at hf
    · cases hf
    · cases hf
      exact .of_reason hreport hwhat

theorem clear_token (hreport : report = Failure.lexical ∨ report = Failure.mismatch)
    (hwhat : OneLine what) : (token accepted what report).Clear :=
  clear_skipBlank.bind fun _ _ => (clear_char hreport hwhat).lexeme

end

theorem clear_choice {what : String} {rs : List (Rule α)} (hwhat : OneLine what) (hne : rs ≠ [])
    (h : ∀ r ∈ rs, r.Clear) : (choice what rs).Clear := fun c f hf => by
  rcases run_choice_error hf with ⟨-, r, hr, hrun⟩ | ⟨fs, rfl, hfs⟩
  · exact h r hr hrun
  · refine .ofAlternatives hwhat ?_ fun g hg => ?_
    · rintro rfl
      cases hfs
      exact hne rfl
    · obtain ⟨r, hr, hrun, -⟩ := exists_of_failed hfs g hg
      exact h r hr hrun

end Rule

/-- A repetition fails as one of its steps does. -/
theorem Advancing.clear_iterate {α : Type} {step : Advancing (α × Bool)} (h : step.Clear) :
    (⟨step.iterate⟩ : Rule (List α)).Clear := by
  intro c f hf
  dsimp only at hf
  fun_induction step.iterate c with
  | case1 c g hg =>
    cases hf
    exact h hg
  | case2 => cases hf
  | case3 c a d hstep g hg ih =>
    cases hf
    exact ih hg
  | case4 => cases hf

/-! ## Tokens -/

namespace Token

open Rule Text

theorem clear_identifier : identifier.Clear := fun c f hf => by
  simp only [identifier] at hf
  split at hf
  · cases hf
    exact .of_reason (.inl rfl) (by decide : OneLine "identifier")
  · split at hf
    · cases hf
    · cases hf
      exact .of_reason (.inl rfl) (by decide : OneLine "identifier")

/-- A name that was read is on one line. -/
theorem oneLine_of_gives {name : String} (h : identifier.Gives name) : OneLine name := by
  obtain ⟨c, d, h⟩ := h
  exact (visible_of_isIdentifier (run_identifier_eq_ok.1 h).1).newline_not_mem

theorem clear_decimal : decimal.Clear := fun c f hf => by
  simp only [decimal] at hf
  split at hf
  · cases hf
    exact .of_reason (.inl rfl) (by decide : OneLine "decimal number")
  · split at hf
    · cases hf
    · next hnumber =>
      cases hf
      rw [number_eq_error hnumber]
      exact .overflow _ (oneLine_ofList.2 (newline_not_mem_takeWhile .decimal _))

theorem clear_hexadecimalDigits (start : Nat) : (hexadecimalDigits start).Clear := fun c f hf => by
  simp only [hexadecimalDigits] at hf
  split at hf
  · cases hf
    exact .of_reason (.inr rfl) (by decide : OneLine "hex digits after '$'")
  · split at hf
    · cases hf
    · next hnumber =>
      cases hf
      rw [number_eq_error hnumber]
      have hdigits := newline_not_mem_takeWhile .hexadecimal c.rest
      exact .overflow _ (oneLine_ofList.2 (by simpa using hdigits))

theorem clear_hexadecimal : hexadecimal.Clear :=
  clear_cursor.bind fun start _ => (clear_char (.inl rfl) (by decide)).bind fun _ _ =>
    clear_skipBlank.bind fun _ _ => clear_hexadecimalDigits start.pos

theorem clear_relativeLabel : relativeLabel.Clear := fun c f hf => by
  simp only [relativeLabel] at hf
  split at hf
  · cases hf
  · cases hf
  · cases hf
    exact .of_reason (.inl rfl) (by decide : OneLine "relative label")

end Token

/-! ## Expressions -/

namespace Grammar

open Rule Text

variable {limit : Nat}

/-- Only a fatal failure of an operand leaves a chain. -/
theorem clear_chainFrom {operand : Advancing Expr} {operator? : Char → Option Operator}
    (h : operand.Clear) (left : Expr) :
    (⟨chainFrom operand operator? left⟩ : Rule Expr).Clear := by
  intro c f hf
  dsimp only at hf
  fun_induction chainFrom operand operator? left c with
  | case1 => cases hf
  | case2 left c op hop right d hright ih => exact ih hf
  | case3 left c op hop g hg =>
    cases hf
    exact h hg
  | case4 => cases hf

theorem clear_chain {operand : Advancing Expr} {operator? : Char → Option Operator}
    (h : operand.Clear) : (chain operand operator?).Clear :=
  h.bind fun left _ => clear_chainFrom h left

theorem clear_enter (offset : Nat) (inner : Option (Advancing Expr)) :
    (enter limit offset inner).Clear := by
  cases inner with
  | none => exact clear_fail (.tooDeep limit offset)
  | some i => exact clear_pure i

/-- A level is opened only where there is one. -/
theorem eq_some_of_enter {offset : Nat} {inner : Option (Advancing Expr)} {i : Advancing Expr}
    (h : (enter limit offset inner).Gives i) : inner = some i := by
  obtain ⟨c, d, h⟩ := h
  cases inner with
  | none => cases h
  | some j =>
    cases h
    rfl

theorem clear_callArguments {callee : String} {i : Advancing Expr} (hcallee : OneLine callee)
    (hi : i.Clear) : (callArguments callee i).Clear := by
  refine clear_cursor.bind fun c _ => ?_
  split
  · exact (clear_token (.inl rfl) (by decide)).bind fun _ _ => clear_pure _
  · refine Advancing.clear_iterate (Clear.within ?_ (.malformedArguments callee) hcallee true)
    exact hi.bind fun _ _ => (clear_token (.inl rfl) (by decide)).bind fun _ _ => clear_pure _

theorem clear_numeral {digits : Rule Number} (h : digits.Clear) : (numeral digits).Clear :=
  h.lexeme.bind fun _ _ => clear_pure _

theorem clear_reference : reference.Clear := by
  refine clear_cursor.bind fun c _ => ?_
  split
  · exact Token.clear_relativeLabel.lexeme.bind fun _ _ => clear_pure _
  · exact Token.clear_identifier.lexeme.bind fun _ _ => clear_pure _

section
variable {inner : Option (Advancing Expr)}

theorem clear_group (hinner : ∀ i, inner = some i → i.Clear) : (group limit inner).Clear := by
  refine clear_cursor.bind fun start _ => (clear_token (.inl rfl) (by decide)).bind fun _ _ => ?_
  refine (clear_enter start.pos inner).bind fun i hi => ?_
  have hwhat : OneLine "expression after '('" := by decide
  have hinside := (hinner i (eq_some_of_enter hi)).within (.expected _) hwhat false
  refine hinside.bind fun _ _ => ?_
  exact (clear_token (.inr rfl) (by decide)).bind fun _ _ => clear_pure _

theorem clear_call (hinner : ∀ i, inner = some i → i.Clear) : (call limit inner).Clear := by
  refine Token.clear_identifier.lexeme.bind fun name hname => clear_cursor.bind fun c _ => ?_
  have hname := Token.oneLine_of_gives hname.of_lexeme
  split
  · refine (clear_enter c.pos inner).bind fun i hi => ?_
    refine (clear_token (.inl rfl) (by decide)).bind fun _ _ => ?_
    exact (clear_callArguments hname (hinner i (eq_some_of_enter hi))).bind fun _ _ => clear_pure _
  · have hwhat : OneLine ("'(' after '" ++ name ++ "'") :=
      .between (by decide) hname (by decide)
    exact clear_fail (.of_reason (.inl rfl) hwhat)

theorem clear_sum (hinner : ∀ i, inner = some i → i.Clear) : (sum limit inner).Clear := by
  refine clear_chain (clear_chain ?_)
  refine clear_skipBlank.bind fun _ _ => clear_choice (by decide) (by simp) ?_
  simp only [List.mem_cons, List.not_mem_nil, or_false, forall_eq_or_imp, forall_eq]
  exact ⟨clear_group hinner, clear_numeral Token.clear_decimal,
    clear_numeral Token.clear_hexadecimal, clear_call hinner, clear_reference⟩

end

/-- Whatever the levels: the grammar of each level speaks clearly because that of the level below
does. -/
theorem clear_expression (limit levels : Nat) : (expression limit levels).Clear := by
  induction levels with
  | zero => exact clear_sum nofun
  | succ levels ih =>
    refine clear_sum fun i hi => ?_
    cases hi
    exact ih

theorem clear_value (limit : Nat) : (value limit).Clear := clear_expression limit limit

/-- An expression as a part of a rule that says what it expected. -/
theorem clear_value_within {what : String} (hwhat : OneLine what) :
    ((value limit).within (.expected what) false).Clear :=
  (clear_value limit).within (.expected what) hwhat false

/-! ## Operands -/

/-- A character other than a line feed, between quotes. -/
theorem oneLine_quotes {ch : Char} (h : ch ≠ '\n') : OneLine s!"'{ch}'" :=
  .between (by decide) (oneLine_singleton h) (by decide)

theorem clear_opened {bracket : Char} (h : bracket ≠ '\n') : (opened limit bracket).Clear := by
  refine clear_cursor.bind fun start _ => ?_
  refine (clear_token (.inl rfl) (oneLine_quotes h)).bind fun _ _ => ?_
  refine (clear_enter start.pos (inside limit limit)).bind fun i hi => ?_
  have hclear : i.Clear := by
    have hsome := eq_some_of_enter hi
    cases limit with
    | zero => cases hsome
    | succ levels =>
      cases hsome
      exact clear_expression _ levels
  exact hclear.within (.expected "expression") (by decide : OneLine "expression") false

theorem clear_needed {ch : Char} (h : ch ≠ '\n') : (needed ch).Clear :=
  clear_token (.inr rfl) (oneLine_quotes h)

theorem clear_enclosed {opening closing : Char} (hopening : opening ≠ '\n')
    (hclosing : closing ≠ '\n') : (enclosed limit opening closing).Clear :=
  (clear_opened hopening).bind fun _ _ => (clear_needed hclosing).bind fun _ _ => clear_pure _

theorem clear_registerLetter {letter : Char} (h : letter ≠ '\n') :
    (registerLetter letter).Clear := fun c f hf => by
  simp only [registerLetter] at hf
  split at hf
  · cases hf
  · cases hf
    have hwhat : OneLine ("register '" ++ String.singleton letter ++ "'") :=
      .between (by decide) (oneLine_singleton h) (by decide)
    exact .of_reason (.inr rfl) hwhat

theorem clear_indexedBy {letter : Char} (h : letter ≠ '\n') : (indexedBy letter).Clear :=
  (clear_needed (by decide)).bind fun _ _ => clear_skipBlank.bind fun _ _ =>
    (clear_registerLetter h).lexeme

theorem clear_enclosedIndexed {letter : Char} (h : letter ≠ '\n') :
    (enclosedIndexed limit letter).Clear :=
  (clear_opened (by decide)).bind fun _ _ => (clear_indexedBy h).bind fun _ _ =>
    (clear_needed (by decide)).bind fun _ _ => clear_pure _

/-- A shape with the index register after it. -/
theorem clear_shape_indexed {r : Rule Expr} {shape : Shape} (hr : r.Clear) :
    (do let e ← r; indexedBy 'y'; pure (Operand.valued shape e) : Rule Operand).Clear :=
  hr.bind fun _ _ => (clear_indexedBy (by decide)).bind fun _ _ => clear_pure _

theorem clear_shape {r : Rule Expr} {shape : Shape} (hr : r.Clear) :
    (do let e ← r; pure (Operand.valued shape e) : Rule Operand).Clear :=
  hr.bind fun _ _ => clear_pure _

theorem clear_indirect : (indirect limit).Clear := by
  refine (clear_enclosed (by decide) (by decide)).bind fun _ _ => clear_cursor.bind fun c _ => ?_
  split
  · exact clear_fail (.of_reason (.inr rfl) trivial)
  · exact clear_pure _

theorem clear_move : (move limit).Clear :=
  (clear_value limit).bind fun _ _ => (clear_needed (by decide)).bind fun _ _ =>
    (clear_value_within (by decide)).bind fun _ _ => clear_pure _

theorem clear_immediate : (immediate limit).Clear :=
  (clear_token (.inl rfl) (by decide)).bind fun _ _ =>
    (clear_value_within (by decide)).bind fun _ _ => clear_pure _

theorem clear_implied : implied.Clear := by
  refine clear_cursor.bind fun c _ => ?_
  split
  · exact clear_skipBlank.bind fun _ _ => clear_pure _
  · exact clear_fail (.of_reason (.inl rfl) (by decide : OneLine "operand or end of statement"))

theorem clear_operand : (operand limit).Clear := by
  refine clear_choice (by decide) (by simp) ?_
  simp only [List.mem_cons, List.not_mem_nil, or_false, forall_eq_or_imp, forall_eq]
  have hparens : (enclosed limit '(' ')').Clear := clear_enclosed (by decide) (by decide)
  have hbrackets : (enclosed limit '[' ']').Clear := clear_enclosed (by decide) (by decide)
  exact ⟨clear_shape_indexed hparens, clear_indirect,
    clear_shape (clear_enclosedIndexed (by decide)), clear_move, clear_shape (clear_value limit),
    clear_immediate, clear_shape_indexed hbrackets, clear_shape hbrackets,
    clear_shape_indexed (clear_enclosedIndexed (by decide)), clear_implied⟩

/-! ## Statements -/

theorem clear_keyword : (keyword limit).Clear := by
  refine clear_cursor.bind fun start _ => Token.clear_identifier.bind fun name hname => ?_
  have hname := Token.oneLine_of_gives hname
  split
  · have hwhat : OneLine ("address after '" ++ name ++ "'") :=
      .between (by decide) hname (by decide)
    exact (clear_value_within hwhat).bind fun _ _ => clear_pure _
  · exact clear_fail (.of_reason (.inl rfl) hname)

theorem clear_labelDeclaration : labelDeclaration.Clear := by
  refine clear_cursor.bind fun c _ => ?_
  split
  · refine Token.clear_relativeLabel.bind fun l _ => clear_cursor.bind fun d _ => ?_
    split
    · exact clear_skipBlank.bind fun _ _ => clear_pure _
    · exact clear_fail (.of_reason (.inr rfl) trivial)
  · refine Token.clear_identifier.bind fun name _ => ?_
    exact (clear_char (.inl rfl) (by decide)).lexeme.bind fun _ _ => clear_pure _

theorem clear_assignmentStatement : (assignmentStatement limit).Clear := by
  refine Clear.bind ?_ fun _ _ => clear_pure _
  refine Token.clear_identifier.bind fun name hname => ?_
  have hwhat : OneLine ("expression after '" ++ name ++ " ='") :=
    .between (by decide) (Token.oneLine_of_gives hname) (by decide)
  refine (clear_token (.inl rfl) (by decide)).bind fun _ _ => ?_
  exact (clear_value_within hwhat).bind fun _ _ => clear_pure _

theorem clear_sizeLetter : sizeLetter.Clear := fun c f hf => by
  have hwhat : Reason.Clear (.expected "width suffix .b, .w or .l") :=
    (by decide : OneLine "width suffix .b, .w or .l")
  simp only [sizeLetter] at hf
  split at hf
  · split at hf
    · cases hf
    · cases hf
      exact .of_reason (.inr rfl) hwhat
  · cases hf
    exact .of_reason (.inr rfl) hwhat

theorem clear_sizeSuffix : sizeSuffix.Clear := by
  refine clear_cursor.bind fun c _ => ?_
  split
  · exact (clear_token (.inl rfl) (by decide)).bind fun _ _ =>
      clear_sizeLetter.bind fun _ _ => clear_pure _
  · exact clear_pure _

theorem clear_instruction : (instruction limit).Clear :=
  Token.clear_identifier.bind fun _ _ => clear_sizeSuffix.bind fun _ _ =>
    clear_operand.bind fun _ _ => clear_pure _

theorem clear_statement (limit : Nat) : (statement limit).Clear := by
  refine clear_choice (by decide) (by simp) ?_
  simp only [List.mem_cons, List.not_mem_nil, or_false, forall_eq_or_imp, forall_eq]
  exact ⟨clear_keyword, clear_labelDeclaration, clear_assignmentStatement, clear_instruction⟩

/-- A failed statement has a hint: it failed fatally, or it is a choice. -/
theorem hinted_of_statement {c : Cursor} {f : Failure} (h : (statement limit).run c = .error f) :
    f.Hinted := by
  have hclear := clear_statement limit h
  rcases run_statement_error h with hfatal | ⟨fk, fl, fa, fi, rfl, -⟩
  · exact hclear.hinted hfatal
  · cases hclear with
    | exhausted _ hhint => exact hhint

end Grammar

end Asm65816
