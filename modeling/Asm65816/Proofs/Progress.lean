import Asm65816.Proofs.FatalFailures
import Asm65816.Proofs.LineSpans
import Asm65816.Proofs.LoopTurns

/-!
# Reading makes progress and ends

Whatever is read ends further on than it began. An expression comes back to itself inside brackets
only, and there it starts behind the opening one. So the levels that the grammar is built from are
not what makes it end: with a level for each character left, more of them change nothing
(`Grammar.run_expression_congr`).

Where a rule reads with the grammar inside its brackets is told by what its outcome depends on
(`Grammar.Asks`). Two grammars that agree behind the opening brackets give the same outcome, and
this is shown of each way to build a rule out of others.
-/

namespace Asm65816

/-! ## Places further on -/

namespace Cursor

variable {c d e : Cursor} {text : List Char} {pos : Nat}

/-- Reading leads from one cursor to the other. -/
def Reaches (c d : Cursor) : Prop := ∃ used, c.Reads used d

/-- Reading something leads from one cursor to the other. -/
def Before (c d : Cursor) : Prop := ∃ used, used ≠ [] ∧ c.Reads used d

theorem reaches_refl (c : Cursor) : c.Reaches c := ⟨[], c.reads_nil⟩

theorem reaches_skipBlank (c : Cursor) : c.Reaches c.skipBlank := ⟨_, c.reads_skipBlank⟩

theorem Reaches.trans (h : c.Reaches d) (k : d.Reaches e) : c.Reaches e := by
  obtain ⟨us, hu⟩ := h
  obtain ⟨vs, hv⟩ := k
  exact ⟨us ++ vs, hu.append hv⟩

theorem Before.reaches (h : c.Before d) : c.Reaches d := by
  obtain ⟨used, -, hr⟩ := h
  exact ⟨used, hr⟩

theorem Before.trans_reaches (h : c.Before d) (k : d.Reaches e) : c.Before e := by
  obtain ⟨us, hne, hu⟩ := h
  obtain ⟨vs, hv⟩ := k
  exact ⟨us ++ vs, by simp [hne], hu.append hv⟩

theorem Reaches.trans_before (h : c.Reaches d) (k : d.Before e) : c.Before e := by
  obtain ⟨us, hu⟩ := h
  obtain ⟨vs, hne, hv⟩ := k
  exact ⟨us ++ vs, by simp [hne], hu.append hv⟩

theorem before_advance {ch : Char} (h : c.peek? = some ch) : c.Before (c.advance 1) :=
  ⟨[ch], by simp, reads_advance_one h⟩

theorem Takes.before {ch : Char} (h : c.Takes ch d) : c.skipBlank.Before d := by
  obtain ⟨-, b, -, hr⟩ := h
  exact ⟨ch :: b, by simp, hr⟩

theorem Reaches.pos_le (h : c.Reaches d) : c.pos ≤ d.pos := by
  obtain ⟨used, -, hpos⟩ := h
  omega

theorem Before.pos_lt (h : c.Before d) : c.pos < d.pos := by
  obtain ⟨used, hne, -, hpos⟩ := h
  have := List.length_pos_iff.2 hne
  omega

theorem Before.length_lt (h : c.Before d) : d.rest.length < c.rest.length := by
  obtain ⟨used, hne, hr⟩ := h
  exact hr.length_lt hne

theorem Reaches.length_le (h : c.Reaches d) : d.rest.length ≤ c.rest.length := by
  obtain ⟨used, hr⟩ := h
  exact hr.length_le

theorem standsIn_ofText (h : pos ≤ text.length) : (ofText text pos).StandsIn text :=
  ⟨text.take pos, (List.take_append_drop pos text).symm, by simp [ofText, h]⟩

theorem StandsIn.of_reaches (hc : c.StandsIn text) (h : c.Reaches d) : d.StandsIn text := by
  obtain ⟨used, hr⟩ := h
  exact hc.of_reads hr

end Cursor

namespace Rule

variable {α β : Type} {r r' : Rule α} {c d : Cursor}

/-- Whatever the rule matches in a text, it ends further on in the text. -/
def Progresses (r : Rule α) : Prop :=
  ∀ (text : List Char) (pos : Nat), pos ≤ text.length →
    ∀ a d, r.run (.ofText text pos) = .ok (a, d) →
      ∃ stop, d = .ofText text stop ∧ pos < stop ∧ stop ≤ text.length

theorem Advances.progresses (h : r.Advances) : r.Progresses := by
  intro text pos hpos a d hrun
  have hbefore : (Cursor.ofText text pos).Before d := h hrun
  have hd := (Cursor.standsIn_ofText hpos).of_reaches hbefore.reaches
  exact ⟨d.pos, hd.eq_ofText, hbefore.pos_lt, hd.pos_le⟩

/-! ## Equal outcomes -/

theorem run_bind_congr {g g' : α → Rule β} (h : r.run c = r'.run c)
    (hg : ∀ a d, r.run c = .ok (a, d) → (g a).run d = (g' a).run d) :
    (r >>= g).run c = (r' >>= g').run c := by
  rw [run_bind, run_bind, ← h]
  split
  · next a d hrun => exact hg a d hrun
  · rfl

theorem run_within_congr (h : r.run c = r'.run c) (reason : Reason) (committed : Bool) :
    (r.within reason committed).run c = (r'.within reason committed).run c := by
  simp only [within, h]

/-- A choice depends on its alternatives by their outcomes only. -/
theorem run_choice_congr {rs rs' : List (Rule α)} (what : String)
    (h : List.Forall₂ (fun r r' => r.run c = r'.run c) rs rs') :
    (choice what rs).run c = (choice what rs').run c := by
  have htry : tryEach rs c = tryEach rs' c := by
    induction h with
    | nil => rfl
    | cons hr _ ih => simp only [tryEach, hr, ih]
  simp only [choice, htry]

end Rule

theorem Advancing.iterate_congr {α : Type} {step step' : Advancing (α × Bool)} {c : Cursor}
    (h : ∀ d, c.Reaches d → step.run d = step'.run d) : step.iterate c = step'.iterate c := by
  -- The induction is on what is left to read: each step reads something.
  induction hn : c.rest.length using Nat.strongRecOn generalizing c with
  | ind n ih =>
    rw [step.iterate_eq_bind, step'.iterate_eq_bind]
    refine Rule.run_bind_congr (h c c.reaches_refl) fun (a, more) d hrun => ?_
    have hbefore : c.Before d := step.advances hrun
    cases more with
    | false => rfl
    | true =>
      refine Rule.run_bind_congr ?_ fun _ _ _ => rfl
      exact ih _ (hn ▸ hbefore.length_lt) (fun e he => h e (hbefore.reaches.trans he)) rfl

namespace Grammar

open Rule

variable {α : Type} {limit limit' levels levels' : Nat} {c d : Cursor}
  {inner inner' : Option (Advancing Expr)}

/-- An operator leads on to its operand. -/
theorem reaches_of_operator {operator? : Char → Option Operator} {op : Operator}
    (h : c.peek?.bind operator? = some op) : c.Reaches (c.advance 1).skipBlank := by
  obtain ⟨ch, hch, -⟩ := Option.bind_eq_some_iff.1 h
  exact (Cursor.before_advance hch).reaches.trans (c.advance 1).reaches_skipBlank

theorem chainFrom_congr {operand operand' : Advancing Expr} {operator? : Char → Option Operator}
    (left : Expr) (h : ∀ d, c.Reaches d → operand.run d = operand'.run d) :
    chainFrom operand operator? left c = chainFrom operand' operator? left c := by
  fun_induction chainFrom operand operator? left c with
  | case1 left c hnone => rw [chainFrom_of_none hnone]
  | case2 left c op hop right d hrun ih =>
    have hnext := reaches_of_operator hop
    have hbefore : (c.advance 1).skipBlank.Before d := operand.advances hrun
    rw [chainFrom_of_some hop ((h _ hnext).symm.trans hrun)]
    exact ih fun e he => h e (hnext.trans (hbefore.reaches.trans he))
  | case3 left c op hop f hrun hfatal =>
    have hrun' := (h _ (reaches_of_operator hop)).symm.trans hrun
    rw [chainFrom_of_error hop hrun', if_pos hfatal]
  | case4 left c op hop f hrun hfatal =>
    have hrun' := (h _ (reaches_of_operator hop)).symm.trans hrun
    rw [chainFrom_of_error hop hrun', if_neg hfatal]

theorem run_chain_congr {operand operand' : Advancing Expr} {operator? : Char → Option Operator}
    (h : ∀ d, c.Reaches d → operand.run d = operand'.run d) :
    (chain operand operator?).run c = (chain operand' operator?).run c := by
  refine run_bind_congr (h c c.reaches_refl) fun left d hrun => chainFrom_congr left fun e he => ?_
  have hbefore : c.Before d := operand.advances hrun
  exact h e (hbefore.reaches.trans he)

/-! ## Behind the brackets -/

/-- Both grammars inside the brackets are there, and they answer alike at `d`. -/
def AgreeAt (inner inner' : Option (Advancing Expr)) (d : Cursor) : Prop :=
  ∃ i i', inner = some i ∧ inner' = some i' ∧ i.run d = i'.run d

theorem agreeAt_some {i i' : Advancing Expr} :
    AgreeAt (some i) (some i') d ↔ i.run d = i'.run d := by
  simp [AgreeAt]

/-- An opening parenthesis stands from `c` on, and before `d`. -/
def BehindParen (c d : Cursor) : Prop :=
  ∃ o, c.Reaches o ∧ o.peek? = some '(' ∧ o.Before d

theorem BehindParen.of_reaches {e : Cursor} (h : BehindParen d e) (hd : c.Reaches d) :
    BehindParen c e := by
  obtain ⟨o, ho, hpk, he⟩ := h
  exact ⟨o, hd.trans ho, hpk, he⟩

theorem BehindParen.length_lt (h : BehindParen c d) : d.rest.length < c.rest.length := by
  obtain ⟨o, ho, -, hd⟩ := h
  exact Nat.lt_of_lt_of_le hd.length_lt ho.length_le

/-- An opening bracket, and what reads on with the grammar inside it. -/
def behindBracket (limit : Nat) (bracket : Char) (what : String) (inner : Option (Advancing Expr))
    (g : Advancing Expr → Rule α) : Rule α := do
  let start ← cursor
  let _ ← token [bracket] what Failure.lexical
  let inner ← enter limit start.pos inner
  g inner

/-- An opening bracket and the expression after it, from the grammar inside it. -/
def openedOver (limit : Nat) (bracket : Char) (inner : Option (Advancing Expr)) : Rule Expr :=
  behindBracket limit bracket s!"'{bracket}'" inner (·.within (.expected "expression") false)

theorem opened_eq_openedOver (limit : Nat) (bracket : Char) :
    opened limit bracket = openedOver limit bracket (inside limit limit) := rfl

theorem group_eq_behindBracket (limit : Nat) (inner : Option (Advancing Expr)) :
    group limit inner = behindBracket limit '(' "'('" inner (fun i => do
      let e ← i.within (.expected "expression after '('") false
      let _ ← token [')'] "')'" Failure.mismatch
      pure e) := rfl

theorem run_enter_bind {start : Nat} {i : Advancing Expr} (g : Advancing Expr → Rule α) :
    (enter limit start (some i) >>= g).run d = (g i).run d := rfl

section
variable {bracket : Char} {what : String} {g : Advancing Expr → Rule α}
  (hg : ∀ ⦃i i' : Advancing Expr⦄ ⦃d⦄, i.run d = i'.run d → (g i).run d = (g i').run d)
include hg

theorem run_behindBracket_congr (h : ∀ d, c.Takes bracket d → AgreeAt inner inner' d) :
    (behindBracket limit bracket what inner g).run c =
      (behindBracket limit' bracket what inner' g).run c := by
  refine run_bind_congr rfl fun start _ hstart => ?_
  cases hstart
  refine run_bind_congr rfl fun ch d htoken => ?_
  obtain ⟨hch, htakes⟩ := run_token_eq_ok.1 htoken
  obtain rfl := List.mem_singleton.1 hch
  obtain ⟨i, i', rfl, rfl, hi⟩ := h d htakes
  rw [run_enter_bind, run_enter_bind]
  exact hg hi

end

theorem run_group_congr (h : ∀ d, c.Takes '(' d → AgreeAt inner inner' d) :
    (group limit inner).run c = (group limit' inner').run c := by
  rw [group_eq_behindBracket, group_eq_behindBracket]
  refine run_behindBracket_congr (fun i i' d hi => ?_) h
  exact run_bind_congr (run_within_congr hi _ _) fun _ _ _ => rfl

theorem run_openedOver_congr {bracket : Char}
    (h : ∀ d, c.Takes bracket d → AgreeAt inner inner' d) :
    (openedOver limit bracket inner).run c = (openedOver limit' bracket inner').run c :=
  run_behindBracket_congr (fun _ _ _ hi => run_within_congr hi _ _) h

theorem run_callArguments_congr {callee : String} {i i' : Advancing Expr}
    (h : ∀ d, c.Reaches d → i.run d = i'.run d) :
    (callArguments callee i).run c = (callArguments callee i').run c := by
  refine run_bind_congr rfl fun m _ hm => ?_
  cases hm
  split
  · rfl
  · refine Advancing.iterate_congr fun d hd => run_within_congr ?_ _ _
    exact run_bind_congr (h d hd) fun _ _ _ => rfl

theorem run_call_congr (h : ∀ d, (∃ name o, (lexeme Token.identifier).run c = .ok (name, o) ∧
      o.peek? = some '(' ∧ o.Before d) → AgreeAt inner inner' d) :
    (call limit inner).run c = (call limit' inner').run c := by
  refine run_bind_congr rfl fun name m hname => run_bind_congr rfl fun m' _ hm => ?_
  cases hm
  split
  · next hpk =>
    have hagree {d : Cursor} (hd : m.Before d) : AgreeAt inner inner' d :=
      h d ⟨name, m, hname, hpk, hd⟩
    -- The level is opened before the parenthesis is read, so any place behind it will do here.
    obtain ⟨i, i', rfl, rfl, -⟩ := hagree (Cursor.before_advance hpk)
    rw [run_enter_bind, run_enter_bind]
    refine run_bind_congr rfl fun _ d htoken => ?_
    have hopen : m.Before d := advances_token _ _ _ htoken
    refine run_bind_congr (run_callArguments_congr fun e he => ?_) fun _ _ _ => rfl
    exact agreeAt_some.1 (hagree (hopen.trans_reaches he))
  · rfl

theorem run_atom_congr (h : ∀ d, BehindParen c d → AgreeAt inner inner' d) :
    (atom limit inner).run c = (atom limit' inner').run c := by
  refine run_choice_congr (c := c.skipBlank) _
    (.cons ?_ (.cons rfl (.cons rfl (.cons ?_ (.cons rfl .nil)))))
  · refine run_group_congr fun d hd => h d ?_
    have hd := Cursor.takes_skipBlank.1 hd
    exact ⟨c.skipBlank, c.reaches_skipBlank, hd.peek?, hd.before⟩
  · refine run_call_congr fun d ⟨name, o, hname, hpk, hd⟩ => h d ?_
    have hbefore : c.skipBlank.Before o := Token.advances_identifier.lexeme hname
    exact ⟨o, c.reaches_skipBlank.trans hbefore.reaches, hpk, hd⟩

theorem run_sum_congr (h : ∀ d, BehindParen c d → AgreeAt inner inner' d) :
    (sum limit inner).run c = (sum limit' inner').run c := by
  refine run_chain_congr fun m hm => run_chain_congr fun m' hm' => run_atom_congr fun d hd => ?_
  exact h d (hd.of_reaches (hm.trans hm'))

/-! ## The recursion of expressions -/

/-- With a level for each character that is left, no level more is needed. -/
theorem run_expression_congr (h : c.rest.length ≤ levels) (h' : c.rest.length ≤ levels') :
    (expression limit levels).run c = (expression limit' levels').run c := by
  -- A bracket takes a level and a character, so what is inside it has a level for each as well.
  induction levels generalizing levels' c with
  | zero =>
    rw [expression_eq_sum, expression_eq_sum]
    refine run_sum_congr fun d hd => ?_
    have := hd.length_lt
    omega
  | succ levels ih =>
    rw [expression_eq_sum, expression_eq_sum]
    refine run_sum_congr fun d hd => ?_
    have hlt := hd.length_lt
    obtain ⟨levels', rfl⟩ : ∃ n, levels' = n + 1 := ⟨levels' - 1, by omega⟩
    exact ⟨_, _, rfl, rfl, ih (by omega) (by omega)⟩

/-! ## Where the inner grammar is asked -/

/-- What the rule gives at `c` depends on what the grammar inside its brackets gives at `d`. -/
def Asks (rule : Option (Advancing Expr) → Rule α) (c d : Cursor) : Prop :=
  ∃ i i' : Advancing Expr, (∀ e, e ≠ d → i.run e = i'.run e) ∧
    (rule (some i)).run c ≠ (rule (some i')).run c

/-- Where the outcome is the same for all grammars that agree at some places, no others are
asked. -/
theorem Asks.of_congr {rule : Option (Advancing Expr) → Rule α} {p : Cursor → Prop}
    (h : Asks rule c d) (hcongr : ∀ inner inner', (∀ e, p e → AgreeAt inner inner' e) →
      (rule inner).run c = (rule inner').run c) : p d := by
  obtain ⟨i, i', hagree, hne⟩ := h
  by_contra hd
  refine hne (hcongr _ _ fun e he => agreeAt_some.2 (hagree e ?_))
  rintro rfl
  exact hd he

/-- A failure at each place. -/
def failing (f : Cursor → Failure) : Advancing Expr where
  run c := .error (f c)
  advances := fun _ _ _ h => by cases h

/-- A rule asks wherever a fatal failure of the grammar inside its brackets is its own. -/
theorem asks_of_aborts {rule : Option (Advancing Expr) → Rule α}
    (h : ∀ i f, i.toRule.Aborts d f → (rule (some i)).Aborts c f) : Asks rule c d := by
  -- Two grammars that fail for good everywhere, and in two ways at `d` alone.
  refine ⟨failing fun _ => .tooDeep 0 0, failing fun e => if e = d then .tooDeep 1 0
    else .tooDeep 0 0, fun e he => ?_, fun heq => ?_⟩
  · simp only [failing, if_neg he]
  · have hzero := (h (failing fun _ => .tooDeep 0 0) _ ⟨rfl, rfl⟩).1
    have hone := (h (failing fun e => if e = d then .tooDeep 1 0 else .tooDeep 0 0) (.tooDeep 1 0)
      ⟨by simp only [failing, if_true], rfl⟩).1
    rw [hzero, hone] at heq
    cases heq

/-- A bracket asks at one place, right behind it and the blanks there. -/
theorem asks_behindBracket {bracket : Char} {what : String} {g : Advancing Expr → Rule α}
    (hg : ∀ ⦃i : Advancing Expr⦄ ⦃d f⦄, i.toRule.Aborts d f → (g i).Aborts d f)
    (h : c.Takes bracket d) :
    Asks (fun inner => behindBracket limit bracket what inner g) c d := by
  refine asks_of_aborts fun i f hi => ?_
  have htoken : (token [bracket] what Failure.lexical).run c = .ok (bracket, d) :=
    run_token_eq_ok.2 ⟨List.mem_singleton_self _, h⟩
  exact aborts_bind rfl (aborts_bind htoken (aborts_bind (run_enter_eq_ok.2 ⟨rfl, rfl⟩) (hg hi)))

theorem asks_group_iff : Asks (group limit) c d ↔ c.Takes '(' d :=
  ⟨fun h => h.of_congr fun _ _ => run_group_congr,
    fun h => asks_behindBracket (fun _ _ _ hi => (hi.within _ _).bind _) h⟩

theorem asks_openedOver_iff {bracket : Char} :
    Asks (openedOver limit bracket) c d ↔ c.Takes bracket d :=
  ⟨fun h => h.of_congr fun _ _ => run_openedOver_congr,
    fun h => asks_behindBracket (fun _ _ _ hi => hi.within _ _) h⟩

/-- A call asks behind the parenthesis that follows its name. -/
theorem before_of_asks_call (h : Asks (call limit) c d) :
    ∃ name o, (lexeme Token.identifier).run c = .ok (name, o) ∧ o.peek? = some '(' ∧ o.Before d :=
  h.of_congr (p := fun d => ∃ name o, (lexeme Token.identifier).run c = .ok (name, o) ∧
    o.peek? = some '(' ∧ o.Before d) fun _ _ => run_call_congr

theorem behindParen_of_asks_sum (h : Asks (fun inner => (sum limit inner).toRule) c d) :
    BehindParen c d :=
  h.of_congr fun _ _ => run_sum_congr

/-! ## The whole -/

/-- A bracket stands in the text at a position, and the cursor at a later one. -/
def StandsBehind (text : List Char) (bracket : Char) (o : Nat) (d : Cursor) : Prop :=
  text[o]? = some bracket ∧ ∃ stop, o < stop ∧ stop ≤ text.length ∧ d = .ofText text stop

theorem standsBehind_of_before {text : List Char} {bracket : Char} {o : Cursor}
    (ho : o.StandsIn text) (hpk : o.peek? = some bracket) (hd : o.Before d) :
    StandsBehind text bracket o.pos d := by
  have hin := ho.of_reaches hd.reaches
  exact ⟨ho.peek?_eq ▸ hpk, d.pos, hd.pos_lt, hin.pos_le, hin.eq_ofText⟩

/-- Reading makes progress and ends, whatever the text. The grammar inside brackets stands for the
expressions that are read there (`expression_eq_sum`, `opened_eq_openedOver`). -/
structure ReadingEnds (limit : Nat) : Prop where
  tokens : Token.identifier.Progresses ∧ Token.decimal.Progresses ∧ Token.hexadecimal.Progresses ∧
    Token.relativeLabel.Progresses
  expressions : ∀ levels, (expression limit levels).Progresses
  statements : (statement limit).Progresses
  /-- The expressions inside a bracket are read behind it: a group and an operand in brackets begin
  with theirs, a call has it after the name, and each expression comes back to itself in one. -/
  nested : ∀ (text : List Char) (pos : Nat) (d : Cursor), pos ≤ text.length →
    (Asks (group limit) (.ofText text pos) d →
      StandsBehind text '(' (Cursor.ofText text pos).skipBlank.pos d) ∧
    (Asks (call limit) (.ofText text pos) d → ∃ name o,
      (lexeme Token.identifier).run (.ofText text pos) = .ok (name, .ofText text o) ∧
        StandsBehind text '(' o d) ∧
    (Asks (fun inner => (sum limit inner).toRule) (.ofText text pos) d →
      ∃ o, pos ≤ o ∧ StandsBehind text '(' o d) ∧
    ∀ bracket, Asks (openedOver limit bracket) (.ofText text pos) d →
      StandsBehind text bracket (Cursor.ofText text pos).skipBlank.pos d
  /-- The recursion ends with the text: the levels and their limit do not matter where there are
  as many as characters are left. -/
  recursion : ∀ limit' levels levels' (c : Cursor), c.rest.length ≤ levels →
    c.rest.length ≤ levels' →
    (expression limit levels).run c = (expression limit' levels').run c
  operators : ∀ operand operator? left (c : Cursor),
    Ends (chainTurn operand operator?) (left, c) c.rest.length
      (chainFrom operand operator? left c)
  arguments : ∀ callee inner (c : Cursor),
    Ends (argumentTurn callee inner) ([], c) (c.rest.length + 1) ((arguments callee inner).run c)
  lines : ∀ line, Ends (Line.lineTurn limit) ([], (Cursor.ofText (Line.code line) 0).skipBlank)
    (Line.code line).length (Line.statements limit line)

theorem reading_ends (limit : Nat) : ReadingEnds limit where
  tokens := ⟨Token.advances_identifier.progresses, Token.advances_decimal.progresses,
    Token.advances_hexadecimal.progresses, Token.advances_relativeLabel.progresses⟩
  expressions levels := (expression limit levels).advances.progresses
  statements := (statement limit).advances.progresses
  nested text pos d hpos := by
    have hin := Cursor.standsIn_ofText hpos
    have hbracket {bracket : Char} (h : (Cursor.ofText text pos).Takes bracket d) :
        StandsBehind text bracket (Cursor.ofText text pos).skipBlank.pos d :=
      standsBehind_of_before hin.skipBlank h.peek? h.before
    refine ⟨fun h => hbracket (asks_group_iff.1 h), fun h => ?_, fun h => ?_,
      fun _ h => hbracket (asks_openedOver_iff.1 h)⟩
    · obtain ⟨name, o, hname, hpk, hd⟩ := before_of_asks_call h
      have hbefore : (Cursor.ofText text pos).Before o := Token.advances_identifier.lexeme hname
      have ho := hin.of_reaches hbefore.reaches
      exact ⟨name, o.pos, ho.eq_ofText ▸ hname, standsBehind_of_before ho hpk hd⟩
    · obtain ⟨o, ho, hpk, hd⟩ := behindParen_of_asks_sum h
      exact ⟨o.pos, ho.pos_le, standsBehind_of_before (hin.of_reaches ho) hpk hd⟩
  recursion _ _ _ _ h h' := run_expression_congr h h'
  operators := ends_chainFrom
  arguments := ends_arguments
  lines := Line.ends_statements limit

/-- A group asks right behind its parenthesis, and it is read as well with many more levels than it
has characters. -/
theorem reading_ends_of_group :
    let text := " (1)".toList
    Asks (group 4) (.ofText text 0) (.ofText text 2) ∧ StandsBehind text '(' 1 (.ofText text 2) ∧
    (expression 4 4).run (.ofText text 0) =
      .ok (.number ⟨1, .unsized, by decide⟩, .ofText text 4) ∧
    (∃ stop, Cursor.ofText text 4 = .ofText text stop ∧ 0 < stop ∧ stop ≤ text.length) ∧
    (expression 4 4).run (.ofText text 0) = (expression 80 80).run (.ofText text 0) := by
  intro text
  have hends := reading_ends 4
  have hasks : Asks (group 4) (.ofText text 0) (.ofText text 2) :=
    asks_group_iff.2 (Cursor.takes_iff_peek?.2 ⟨rfl, rfl⟩)
  have hrun : (expression 4 4).run (.ofText text 0) =
      .ok (.number ⟨1, .unsized, by decide⟩, .ofText text 4) := by decide +kernel
  exact ⟨hasks, (hends.nested text 0 _ (by decide)).1 hasks, hrun,
    hends.expressions 4 text 0 (by decide) _ _ hrun,
    hends.recursion 80 4 80 _ (by decide) (by decide)⟩

end Grammar

end Asm65816
