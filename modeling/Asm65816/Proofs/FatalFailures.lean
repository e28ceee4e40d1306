import Asm65816.Proofs.Position
import Asm65816.Proofs.RoundTrip

/-!
# Fatal failures surface

A fatal failure of an operand is the failure of whatever the operand is part of: no rule tries
another alternative after it, leaves it unread or tells it in its own words. What stands before an
operand is a `Context`: operators with what is on their left, open parentheses, and calls with their
first arguments. The proof goes through the context from the operand outwards, one lemma for each of
its rules, and then through the statements that an expression may stand in.

A rule that fails fatally is said to abort (`Rule.Aborts`), as one that fails otherwise refuses.
-/

namespace Asm65816

open Text (Blanks Avoids BeginsIn Apart isBlank isIdentifier)

/-! ## Rules that abort -/

namespace Rule

variable {α β : Type} {c d : Cursor} {f g : Failure}

/-- The rule fails at `c`, and nothing else is to be tried there. -/
def Aborts (r : Rule α) (c : Cursor) (f : Failure) : Prop := r.run c = .error f ∧ f.fatal = true

theorem Aborts.not_refuses {r : Rule α} (h : r.Aborts c f) : ¬ r.Refuses c := by
  rintro ⟨g, hg, hfatal⟩
  rw [h.1] at hg
  cases hg
  rw [h.2] at hfatal
  cases hfatal

/-- A rule aborts in one way only. -/
theorem Aborts.unique {r : Rule α} (h : r.Aborts c f) (k : r.Aborts c g) : f = g := by
  have hrun := h.1
  rw [k.1] at hrun
  cases hrun
  rfl

/-- How a rule ends: where it stops, or how it fails. -/
def ends (r : Rule α) (c : Cursor) : Except Failure Cursor := (r.run c).map Prod.snd

theorem ends_eq_error_iff {r : Rule α} : r.ends c = .error f ↔ r.run c = .error f := by
  unfold ends
  cases r.run c with
  | ok x => exact ⟨nofun, nofun⟩
  | error g =>
    show (Except.error g : Except Failure Cursor) = .error f ↔ _
    rw [Except.error.injEq, Except.error.injEq]

theorem refuses_congr {r : Rule α} {s : Rule β} (h : r.ends c = s.ends d) :
    r.Refuses c ↔ s.Refuses d := by
  simp only [Refuses, ← ends_eq_error_iff, h]

theorem aborts_congr {r : Rule α} {s : Rule β} (h : r.ends c = s.ends d) :
    r.Aborts c f ↔ s.Aborts d f := by
  simp only [Aborts, ← ends_eq_error_iff, h]

theorem Aborts.bind {r : Rule α} (h : r.Aborts c f) (k : α → Rule β) : (r >>= k).Aborts c f :=
  ⟨run_bind_eq_error.2 (.inl h.1), h.2⟩

theorem aborts_bind {r : Rule α} {k : α → Rule β} {a : α} (h : r.run c = .ok (a, d))
    (hk : (k a).Aborts d f) : (r >>= k).Aborts c f :=
  ⟨run_bind_eq_error.2 (.inr ⟨a, d, h, hk.1⟩), hk.2⟩

theorem Aborts.within {r : Rule α} (h : r.Aborts c f) (reason : Reason) (committed : Bool) :
    (r.within reason committed).Aborts c f := by
  refine ⟨?_, h.2⟩
  simp only [Rule.within, h.1, Failure.within, if_pos h.2]

theorem aborts_choice_head {what : String} {r : Rule α} {rs : List (Rule α)} (h : r.Aborts c f) :
    (choice what (r :: rs)).Aborts c f := by
  refine ⟨?_, h.2⟩
  simp only [choice, tryEach, h.1, if_pos h.2]

/-- What refuses before is forgotten. -/
theorem aborts_choice_tail {what : String} {r : Rule α} {rs : List (Rule α)} (hr : r.Refuses c)
    (h : (choice what rs).Aborts c f) : (choice what (r :: rs)).Aborts c f := by
  obtain ⟨hrun, hfatal⟩ := h
  obtain ⟨e, he, hne⟩ := hr
  refine ⟨?_, hfatal⟩
  simp only [choice] at hrun
  simp only [choice, tryEach, he, hne]
  cases htry : tryEach rs c with
  | decided outcome =>
    rw [htry] at hrun
    exact hrun
  | failed fs =>
    rw [htry] at hrun
    cases hrun
    cases hfatal

end Rule

namespace Grammar

open Rule

variable {limit levels : Nat} {c d m : Cursor} {f : Failure} {e : Expr} {b s : List Char}
  {name : String}

/-! ## After an operator

What stands on the left of an operator has been read when the operand fails, so it makes no
difference to how the expression ends.
-/

section
variable {operand : Advancing Expr} {operator? : Char → Option Operator}

/-- Where a chain stops, and how it fails, does not depend on what is on its left. -/
theorem chainFrom_left (left left' : Expr) (c : Cursor) :
    (chainFrom operand operator? left c).map Prod.snd =
      (chainFrom operand operator? left' c).map Prod.snd := by
  fun_induction chainFrom operand operator? left c generalizing left' with
  | case1 left c hnone =>
    rw [chainFrom_of_none hnone]
    rfl
  | case2 left c op hop right d hrun ih =>
    rw [chainFrom_of_some hop hrun]
    exact ih _
  | case3 left c op hop f hrun hfatal => rw [chainFrom_of_error hop hrun, if_pos hfatal]
  | case4 left c op hop f hrun hfatal =>
    rw [chainFrom_of_error hop hrun, if_neg hfatal]
    rfl

/-- A chain ends as its first operand and what follows it do. -/
theorem ends_chain_congr (h : operand.ends c = operand.ends d) :
    (chain operand operator?).ends c = (chain operand operator?).ends d := by
  unfold Rule.ends at h
  simp only [Rule.ends, chain, run_bind]
  cases hc : operand.run c with
  | error f =>
    cases hd : operand.run d with
    | error f' =>
      rw [hc, hd] at h
      exact h
    | ok x =>
      rw [hc, hd] at h
      cases h
  | ok x =>
    cases hd : operand.run d with
    | error f' =>
      rw [hc, hd] at h
      cases h
    | ok y =>
      rw [hc, hd] at h
      obtain ⟨a, m⟩ := x
      obtain ⟨a', m'⟩ := y
      cases h
      exact chainFrom_left a a' m

/-- After an operator a chain goes on as one that begins there, unless that one refuses. -/
theorem chainFrom_of_operator {op : Operator} {ch : Char} (left : Expr) (hsym : op.symbol = [ch])
    (hop : operator? ch = some op) (hr : c.Reads op.symbol m)
    (hskip : operand.run m.skipBlank = operand.run m)
    (h : ¬ (chain operand operator?).Refuses m) :
    (chainFrom operand operator? left c).map Prod.snd = (chain operand operator?).ends m := by
  rw [hsym] at hr
  obtain ⟨hpk, hr⟩ := Cursor.reads_cons.1 hr
  obtain rfl := Cursor.reads_nil_iff.1 hr
  have hpeek : c.peek?.bind operator? = some op := by
    rw [hpk]
    exact hop
  simp only [Rule.ends, chain, run_bind]
  cases hrun : operand.run (c.advance 1) with
  | ok x =>
    obtain ⟨right, d⟩ := x
    rw [chainFrom_of_some hpeek (hskip.trans hrun)]
    exact chainFrom_left _ right d
  | error f =>
    have hfatal : f.fatal = true := by
      cases hf : f.fatal with
      | true => rfl
      | false => exact absurd (Refuses.bind ⟨f, hrun, hf⟩ _) h
    rw [chainFrom_of_error hpeek (hskip.trans hrun), if_pos hfatal]

end

/-- Blanks before an expression can be left out. -/
theorem run_expression_of_blanks (hb : Blanks b) (hr : c.Reads b d) :
    (expression limit levels).run c = (expression limit levels).run d := by
  rw [← run_expression_skipBlank, hr.skipBlank_eq hb, run_expression_skipBlank]

/-- After `+` and `-`, which join whole expressions. -/
theorem ends_of_addition {op : Operator} (hop : op ∈ [.add, .sub])
    (hs : Layout levels (.sum e) s) (ha : Apart s op.symbol) (hr : c.Reads (s ++ op.symbol) m)
    (h : ¬ (expression limit levels).Refuses m) :
    (expression limit levels).ends c = (expression limit levels).ends m := by
  obtain ⟨ch, hch, hsym, hop⟩ := symbol_of_mem_addition hop
  obtain ⟨d, hrs, hrop⟩ := Cursor.reads_append.1 hr
  have hrop' : d.Reads (op.symbol ++ []) m := by rwa [List.append_nil]
  have hread : Understood limit levels _ s := understood_of_layout hs
  have hrun := hread hrs (apart_of_symbol hsym ha hrop') (beginsIn_of_symbol hsym hch hrop')
  rw [Rule.ends, hrun]
  rw [expression_eq_sum] at h ⊢
  exact chainFrom_of_operator e hsym hop hrop run_term_skipBlank h

/-- After `*` and `/`, which join a term with an operand. -/
theorem ends_of_product {op : Operator} (hop : op ∈ [.mul, .div])
    (hs : Layout levels (.term e) s) (ha : Apart s op.symbol) (hr : c.Reads (s ++ op.symbol) m)
    (h : ¬ (expression limit levels).Refuses m) :
    (expression limit levels).ends c = (expression limit levels).ends m := by
  obtain ⟨ch, hch, hsym, hop⟩ := symbol_of_mem_product hop
  obtain ⟨d, hrs, hrop⟩ := Cursor.reads_append.1 hr
  have hrop' : d.Reads (op.symbol ++ []) m := by rwa [List.append_nil]
  have hread : Understood limit levels _ s := understood_of_layout hs
  have hrun := hread hrs (apart_of_symbol hsym ha hrop') (beginsIn_of_symbol hsym hch hrop')
  rw [expression_eq_sum] at h ⊢
  refine ends_chain_congr ?_
  rw [Rule.ends, hrun]
  exact chainFrom_of_operator e hsym hop hrop run_atom_skipBlank fun hterm =>
    h (refuses_chain_iff.2 hterm)

/-- After any operator. Where a product follows a sum, it joins the last term of the sum. -/
theorem ends_of_operator {op : Operator} (hop : op ∈ [.add, .sub, .mul, .div])
    (hs : Layout levels (.sum e) s) (ha : Apart s op.symbol) (hr : c.Reads (s ++ op.symbol) m)
    (h : ¬ (expression limit levels).Refuses m) :
    (expression limit levels).ends c = (expression limit levels).ends m := by
  have htiers : op ∈ [.add, .sub] ∨ op ∈ [.mul, .div] := by
    simp only [List.mem_cons, List.not_mem_nil, or_false] at hop ⊢
    tauto
  rcases htiers with hadd | hmul
  · exact ends_of_addition hadd hs ha hr h
  · cases hs with
    | ofTerm hs => exact ends_of_product hmul hs ha hr h
    | @addition _ op' l r s b t hadd hs ha' hb ht =>
      rw [List.append_assoc] at hr
      obtain ⟨m₂, hr, hrt⟩ := Cursor.reads_append.1 hr
      obtain ⟨m₁, hrs, hrb⟩ := Cursor.reads_append.1 hr
      have hlast : (expression limit levels).ends m₁ = (expression limit levels).ends m := by
        rw [Rule.ends, run_expression_of_blanks hb hrb]
        have hne : t ≠ [] := ht.ne_nil (by simp)
        exact ends_of_product hmul ht ((Text.apart_append hne).1 ha) hrt h
      rw [← hlast]
      exact ends_of_addition hadd hs ha' hrs fun hm => h ((refuses_congr hlast).1 hm)

/-! ## Inside brackets -/

/-- An operand that aborts makes the expression that begins with it abort. -/
theorem aborts_expression_of_atom (h : (atom limit (inside limit levels)).Aborts c f) :
    (expression limit levels).Aborts c f := by
  rw [expression_eq_sum]
  exact (h.bind _).bind _

section
variable {inner : Option (Advancing Expr)}

theorem aborts_atom_of_group (hc : c.Settled) (h : (group limit inner).Aborts c f) :
    (atom limit inner).Aborts c f := by
  refine ⟨?_, h.2⟩
  rw [run_atom_eq, hc.skipBlank]
  exact (aborts_choice_head h).1

/-- Where a name stands the forms before a call refuse. -/
theorem aborts_atom_of_call (hn : isIdentifier name.toList = true)
    (hr : c.Reads (name.toList ++ b) m) (h : (call limit inner).Aborts c f) :
    (atom limit inner).Aborts c f := by
  obtain ⟨ch, rest, hcs, hs, -⟩ := Text.isIdentifier_iff.1 hn
  rw [hcs] at hr
  have hpk := (Cursor.reads_cons.1 hr).1
  have hc : c.Settled := by
    refine avoids_of_peek? hpk (Bool.eq_false_iff.2 fun hblank => ?_)
    rw [Text.isIdentifierStart_of_isBlank hblank] at hs
    cases hs
  obtain ⟨hgroup, hdecimal, hhexadecimal⟩ := refuses_of_name limit inner hc hpk hs
  refine ⟨?_, h.2⟩
  rw [run_atom_eq, hc.skipBlank]
  exact (aborts_choice_tail hgroup <| aborts_choice_tail hdecimal <|
    aborts_choice_tail hhexadecimal <| aborts_choice_head h).1

end

/-- A character and the blanks after it are taken. -/
theorem takes_skipBlank_of_reads {ch : Char} (hc : c.Settled) (hr : c.Reads [ch] m) :
    c.Takes ch m.skipBlank := by
  obtain ⟨b, hb, hskip⟩ := m.exists_blanks
  exact hc.takes_iff.2 ⟨m.settled_skipBlank, b, hb, hr.append hskip⟩

theorem aborts_group (hr : c.Reads ['('] m) (h : (expression limit levels).Aborts m f) :
    (expression limit (levels + 1)).Aborts c f := by
  have hc : c.Settled := hr.avoids rfl
  have hinner : (expression limit levels).Aborts m.skipBlank f :=
    ⟨run_expression_skipBlank.trans h.1, h.2⟩
  have htoken : (token ['('] "'('" Failure.lexical).run c = .ok ('(', m.skipBlank) :=
    run_token_eq_ok.2 ⟨List.mem_singleton_self _, takes_skipBlank_of_reads hc hr⟩
  have hgroup : (group limit (inside limit (levels + 1))).Aborts c f :=
    aborts_bind rfl (aborts_bind htoken (aborts_bind (run_enter_eq_ok.2 ⟨rfl, rfl⟩)
      ((hinner.within _ _).bind _)))
  exact aborts_expression_of_atom (aborts_atom_of_group hc hgroup)

/-- Complete arguments of a call, each with the comma after it. -/
inductive Passed (levels : Nat) : List Char → Prop
  | nil : Passed levels []
  | cons {e : Expr} {b s q : List Char} : Blanks b → Layout levels (.sum e) s → Passed levels q →
      Passed levels (b ++ s ++ ',' :: q)

/-- The arguments of a call abort where one does after complete ones. -/
theorem aborts_arguments {q : List Char} (hq : Passed levels q) (hr : c.Reads q m)
    (h : (expression limit levels).Aborts m f) (callee : String) :
    (arguments callee (expression limit levels)).Aborts c.skipBlank f := by
  induction hq generalizing c with
  | nil =>
    obtain rfl := Cursor.reads_nil_iff.1 hr
    have hinner : (expression limit levels).Aborts c.skipBlank f :=
      ⟨run_expression_skipBlank.trans h.1, h.2⟩
    have hargument : (argument callee (expression limit levels)).Aborts c.skipBlank f :=
      (hinner.bind _).within _ _
    exact ⟨(Advancing.iterate_eq_bind _ _).trans (hargument.bind _).1, h.2⟩
  | @cons e b s q hb hs hq ih =>
    obtain ⟨m₂, hr, hcomma⟩ := Cursor.reads_append.1 hr
    obtain ⟨m₁, hrb, hrs⟩ := Cursor.reads_append.1 hr
    obtain ⟨m₃, hcomma, hrq⟩ := Cursor.reads_append (s := [',']).1 hcomma
    have hclose : BeginsIn closers m₂.rest := beginsIn_of_reads (by decide) hcomma
    have hstart : c.skipBlank = m₁ :=
      Cursor.skipBlank_eq_iff.2 ⟨hs.settled nofun hrs, b, hb, hrb⟩
    have hargument : (argument callee (expression limit levels)).run m₁ =
        .ok ((e, true), m₃.skipBlank) :=
      run_argument_eq_ok.2 ⟨m₂, run_expression_of_layout hs hrs hclose,
        takes_skipBlank_of_reads (settled_of_closers hclose) hcomma⟩
    rw [hstart]
    exact ⟨(Advancing.iterate_eq_bind _ _).trans (aborts_bind hargument ((ih hrq).bind _)).1, h.2⟩

/-- No parenthesis closes a call where an argument stands or an expression aborts. -/
theorem peek?_ne_of_passed {q : List Char} (hq : Passed levels q) (hr : c.Reads q m)
    (h : (expression limit levels).Aborts m f) : c.skipBlank.peek? ≠ some ')' := by
  intro hpk
  cases hq with
  | nil =>
    obtain rfl := Cursor.reads_nil_iff.1 hr
    exact h.not_refuses (refuses_expression (avoids_of_peek? hpk rfl))
  | cons hb hs hq =>
    obtain ⟨m₂, hr, -⟩ := Cursor.reads_append.1 hr
    obtain ⟨m₁, hrb, hrs⟩ := Cursor.reads_append.1 hr
    obtain ⟨ch, hch, hopens⟩ := hs.peek? nofun hrs
    rw [Cursor.skipBlank_eq_iff.2 ⟨hs.settled nofun hrs, _, hb, hrb⟩, hch] at hpk
    cases hpk
    cases hopens

theorem aborts_call {q : List Char} (hn : isIdentifier name.toList = true) (hb : Blanks b)
    (hq : Passed levels q) (hr : c.Reads (name.toList ++ b ++ '(' :: q) m)
    (h : (expression limit levels).Aborts m f) : (expression limit (levels + 1)).Aborts c f := by
  obtain ⟨m₁, hname, hr⟩ := Cursor.reads_append.1 hr
  obtain ⟨m₂, hopen, hrq⟩ := Cursor.reads_append (s := ['(']).1 hr
  have hset : m₁.Settled := hopen.avoids rfl
  have htoken : (token ['('] "'('" Failure.lexical).run m₁ = .ok ('(', m₂.skipBlank) :=
    run_token_eq_ok.2 ⟨List.mem_singleton_self _, takes_skipBlank_of_reads hset hopen⟩
  have harguments : (callArguments name (expression limit levels)).Aborts m₂.skipBlank f := by
    refine aborts_bind rfl ?_
    rw [if_neg (peek?_ne_of_passed hq hrq h)]
    exact aborts_arguments hq hrq h name
  have hcall : (call limit (inside limit (levels + 1))).Aborts c f := by
    refine aborts_bind (run_lexeme_identifier hn hb hname hset (hopen.avoids rfl)) ?_
    refine aborts_bind rfl ?_
    rw [if_pos (Cursor.reads_cons.1 hopen).1]
    exact aborts_bind (run_enter_eq_ok.2 ⟨rfl, rfl⟩) (aborts_bind htoken (harguments.bind _))
  exact aborts_expression_of_atom (aborts_atom_of_call hn hname hcall)

/-! ## Contexts -/

/-- A text that leads to an operand, from a place with so many levels left, through so many open
brackets. -/
inductive Context : Nat → Nat → List Char → Prop
  | here {levels : Nat} : Context levels 0 []
  | blank {levels nesting : Nat} {ch : Char} {p : List Char} : isBlank ch = true →
      Context levels nesting p → Context levels nesting (ch :: p)
  /-- What is on the left of an operator may be any expression. -/
  | operator {levels nesting : Nat} {op : Operator} {e : Expr} {s p : List Char} :
      op ∈ [.add, .sub, .mul, .div] → Layout levels (.sum e) s → Apart s op.symbol →
      Context levels nesting p → Context levels nesting (s ++ op.symbol ++ p)
  | group {levels nesting : Nat} {p : List Char} : Context levels nesting p →
      Context (levels + 1) (nesting + 1) ('(' :: p)
  | call {levels nesting : Nat} {name : String} {b q p : List Char} :
      isIdentifier name.toList = true → Blanks b → Passed levels q → Context levels nesting p →
      Context (levels + 1) (nesting + 1) (name.toList ++ b ++ '(' :: q ++ p)

/-- Blanks before a context belong to it. -/
theorem Context.blanks {nesting : Nat} {p : List Char} (hp : Context levels nesting p)
    (hb : Blanks b) : Context levels nesting (b ++ p) := by
  induction b with
  | nil => exact hp
  | cons ch b ih =>
    exact .blank (hb ch List.mem_cons_self) (ih fun x hx => hb x (List.mem_cons_of_mem _ hx))

/-- An expression aborts as the operand at the end of a context does. -/
theorem aborts_of_context {nesting : Nat} {p : List Char} (hp : Context levels nesting p)
    (hr : c.Reads p m) (h : (atom limit (inside limit (levels - nesting))).Aborts m f) :
    (expression limit levels).Aborts c f := by
  induction hp generalizing c with
  | here =>
    obtain rfl := Cursor.reads_nil_iff.1 hr
    exact aborts_expression_of_atom h
  | @blank _ _ ch p hch hp ih =>
    obtain ⟨d, hrb, hr⟩ := Cursor.reads_append (s := [ch]).1 hr
    obtain ⟨hrun, hfatal⟩ := ih hr h
    refine ⟨?_, hfatal⟩
    rw [run_expression_of_blanks (fun x hx => ?_) hrb, hrun]
    rwa [List.mem_singleton.1 hx]
  | operator hop hs ha hp ih =>
    obtain ⟨d, hrs, hr⟩ := Cursor.reads_append.1 hr
    have hd := ih hr h
    exact (aborts_congr (ends_of_operator hop hs ha hrs hd.not_refuses)).2 hd
  | @group _ _ p hp ih =>
    obtain ⟨d, hopen, hr⟩ := Cursor.reads_append (s := ['(']).1 hr
    rw [Nat.add_sub_add_right] at h
    exact aborts_group hopen (ih hr h)
  | call hn hb hq hp ih =>
    obtain ⟨d, hopen, hr⟩ := Cursor.reads_append.1 hr
    rw [Nat.add_sub_add_right] at h
    exact aborts_call hn hb hq hopen (ih hr h)

/-! ## Operands -/

theorem avoids_singleton {ch : Char} (h : c.peek? ≠ some ch) : Avoids ([ch].contains) c.rest := by
  intro x hx
  refine Bool.eq_false_iff.2 fun hch => h ?_
  rw [Cursor.peek?, hx]
  simpa using hch

/-- A bracket aborts as the expression after it does. -/
theorem aborts_opened {bracket : Char} {n : Nat} (htakes : c.Takes bracket m)
    (h : (expression (n + 1) n).Aborts m f) : (opened (n + 1) bracket).Aborts c f := by
  have htoken : (token [bracket] s!"'{bracket}'" Failure.lexical).run c = .ok (bracket, m) :=
    run_token_eq_ok.2 ⟨List.mem_singleton_self _, htakes⟩
  unfold opened
  exact aborts_bind rfl (aborts_bind htoken (aborts_bind (run_enter_eq_ok.2 ⟨rfl, rfl⟩)
    (h.within _ _)))

/-- An expression that aborts after its first operand has an operator there. -/
theorem isOperator_of_aborts (hatom : (atom limit (inside limit levels)).run c = .ok (e, d))
    (h : (expression limit levels).Aborts c f) : d.peek?.any isOperator = true := by
  cases hop : d.peek?.any isOperator with
  | true => rfl
  | false =>
    rw [Option.any_eq_false] at hop
    have hmul : d.peek?.bind Operator.multiplicative? = none := by
      refine Option.bind_eq_none_iff.2 fun ch hch => ?_
      have := hop ch hch
      unfold Operator.multiplicative?
      split <;> simp_all [isOperator]
    have hadd : d.peek?.bind Operator.additive? = none := by
      refine Option.bind_eq_none_iff.2 fun ch hch => ?_
      have := hop ch hch
      unfold Operator.additive?
      split <;> simp_all [isOperator]
    have hterm : (term limit (inside limit levels)).run c = .ok (e, d) := by
      rw [term, run_chain_of_ok hatom, chainFrom_of_none hmul]
    have hrun := h.1
    rw [expression_eq_sum, sum, run_chain_of_ok hterm, chainFrom_of_none hadd] at hrun
    cases hrun

/-- No comma stands where a character is taken that is none. -/
theorem refuses_indexedBy_of_peek? {letter ch : Char} (h : c.skipBlank.peek? = some ch)
    (hch : ch ≠ ',') : (indexedBy letter).Refuses c :=
  (refuses_needed (avoids_of_peek? h (by simpa using hch))).bind _

/-- A closed group with an operator after it is no operand of its own. -/
theorem refuses_indirect_of_operator (h : (enclosed limit '(' ')').run c = .ok (e, d))
    (hop : d.peek?.any isOperator = true) : (indirect limit).Refuses c := by
  refine refuses_bind h (refuses_bind rfl ?_)
  rw [if_pos hop]
  exact refuses_fail rfl _

/-- In a closed group no register follows the expression. -/
theorem refuses_xIndirect_of_enclosed (h : (enclosed limit '(' ')').run c = .ok (e, d)) :
    (xIndirect limit).Refuses c := by
  obtain ⟨m, hopen, hclose⟩ := run_enclosed_eq_ok.1 h
  exact (refuses_bind hopen
    ((refuses_indexedBy_of_peek? hclose.peek? (by decide)).bind _)).bind _

/-- Before an operator a closed group is the beginning of a value. -/
theorem aborts_operand_of_closed (henclosed : (enclosed limit '(' ')').run c = .ok (e, d))
    (hop : d.peek?.any isOperator = true) (h : (value limit).Aborts c f) :
    (operand limit).Aborts c f := by
  obtain ⟨m, -, hclose⟩ := run_enclosed_eq_ok.1 henclosed
  have hindirectY : (indirectY limit).Refuses c := by
    obtain ⟨ch, hch, hop⟩ := Option.any_eq_true _ _ |>.1 hop
    have hne : ch ≠ ',' := by
      rintro rfl
      cases hop
    have hpeek : d.skipBlank.peek? = some ch := by rwa [hclose.1.skipBlank]
    exact refuses_bind henclosed ((refuses_indexedBy_of_peek? hpeek hne).bind _)
  exact aborts_choice_tail hindirectY <|
    aborts_choice_tail (refuses_indirect_of_operator henclosed hop) <|
      aborts_choice_tail (refuses_xIndirect_of_enclosed henclosed) <| aborts_choice_head (h.bind _)

/-- What begins with a parenthesis aborts at once, or it is a group with an operator after it. -/
theorem aborts_operand_of_paren {n : Nat} (hpk : c.skipBlank.peek? = some '(')
    (h : (value (n + 1)).Aborts c f) : (operand (n + 1)).Aborts c f := by
  have hread := Cursor.reads_advance_one hpk
  obtain ⟨m, hm⟩ : ∃ m, m = c.skipBlank.advance 1 := ⟨_, rfl⟩
  rw [← hm] at hread
  have htakes : c.Takes '(' m.skipBlank :=
    Cursor.takes_skipBlank.1 (takes_skipBlank_of_reads c.settled_skipBlank hread)
  cases hrun : (expression (n + 1) n).run m.skipBlank with
  | error g =>
    have hinner : (expression (n + 1) n).run m = .error g :=
      run_expression_skipBlank.symm.trans hrun
    cases hg : g.fatal with
    | true =>
      have hvalue : (value (n + 1)).Aborts c g := by
        obtain ⟨hgroup, hfatal⟩ := aborts_group hread ⟨hinner, hg⟩
        exact ⟨run_expression_skipBlank.symm.trans hgroup, hfatal⟩
      obtain rfl := h.unique hvalue
      exact aborts_choice_head (((aborts_opened htakes ⟨hrun, hg⟩).bind _).bind _)
    | false =>
      refine absurd (refuses_value_of_group hpk ?_) h.not_refuses
      have htoken : (token ['('] "'('" Failure.lexical).run c.skipBlank = .ok ('(', m.skipBlank) :=
        run_token_eq_ok.2 ⟨List.mem_singleton_self _, Cursor.takes_skipBlank.2 htakes⟩
      have hrefuses : (expression (n + 1) n).Refuses m.skipBlank := ⟨g, hrun, hg⟩
      exact refuses_bind rfl (refuses_bind htoken (refuses_bind (run_enter_eq_ok.2 ⟨rfl, rfl⟩)
        ((hrefuses.within _).bind _)))
  | ok x =>
    obtain ⟨e, m'⟩ := x
    have hopened : (opened (n + 1) '(').run c = .ok (e, m') :=
      run_opened_eq_ok.2 ⟨_, _, rfl, htakes, hrun⟩
    by_cases hclose : m'.skipBlank.peek? = some ')'
    · have hparen : m'.Takes ')' (m'.skipBlank.advance 1).skipBlank :=
        Cursor.takes_iff_peek?.2 ⟨hclose, rfl⟩
      have hatom : (atom (n + 1) (inside (n + 1) (n + 1))).run c =
          .ok (e, (m'.skipBlank.advance 1).skipBlank) := by
        rw [run_atom_eq]
        exact run_choice_head (run_group_eq_ok.2
          ⟨_, _, _, rfl, Cursor.takes_skipBlank.2 htakes, hrun, hparen⟩)
      exact aborts_operand_of_closed (run_enclosed_eq_ok.2 ⟨m', hopened, hparen⟩)
        (isOperator_of_aborts hatom h) h
    · exact absurd (refuses_value_of_opened hopened (avoids_singleton hclose)) h.not_refuses

/-- An operand aborts as the expression that stands there does, whichever shapes begin there. -/
theorem aborts_operand_of_value (hlimit : 1 ≤ limit) (h : (value limit).Aborts c f) :
    (operand limit).Aborts c f := by
  by_cases hpk : c.skipBlank.peek? = some '('
  · obtain ⟨n, rfl⟩ := Nat.exists_eq_add_of_le' hlimit
    exact aborts_operand_of_paren hpk h
  · have hparen := avoids_singleton hpk
    exact aborts_choice_tail ((refuses_enclosed hparen).bind _) <|
      aborts_choice_tail ((refuses_enclosed hparen).bind _) <|
        aborts_choice_tail ((refuses_enclosedIndexed hparen).bind _) <|
          aborts_choice_head (h.bind _)

/-- Where no expression begins, the shapes that begin with one refuse. -/
theorem aborts_operand_of_avoids (h : Avoids opensExpression c.skipBlank.rest)
    (ho : (choice "operand" [immediate limit, longIndirectY limit, longIndirect limit,
      stackIndirectY limit, implied]).Aborts c f) : (operand limit).Aborts c f := by
  have hparen : Avoids (['('].contains) c.skipBlank.rest := by
    refine avoids_singleton fun hpk => ?_
    cases h '(' hpk
  have hvalue : (value limit).Refuses c := refuses_expression h
  exact aborts_choice_tail ((refuses_enclosed hparen).bind _) <|
    aborts_choice_tail ((refuses_enclosed hparen).bind _) <|
      aborts_choice_tail ((refuses_enclosedIndexed hparen).bind _) <|
        aborts_choice_tail (hvalue.bind _) <| aborts_choice_tail (hvalue.bind _) ho

theorem aborts_immediate (htakes : c.Takes '#' m) (h : (value limit).Aborts m f) :
    (operand limit).Aborts c f := by
  have htoken : (token ['#'] "'#'" Failure.lexical).run c = .ok ('#', m) :=
    run_token_eq_ok.2 ⟨List.mem_singleton_self _, htakes⟩
  refine aborts_operand_of_avoids (avoids_of_peek? htakes.peek? rfl) (aborts_choice_head ?_)
  exact aborts_bind htoken ((h.within _ _).bind _)

theorem aborts_longIndirect {n : Nat} (htakes : c.Takes '[' m)
    (h : (expression (n + 1) n).Aborts m f) : (operand (n + 1)).Aborts c f := by
  refine aborts_operand_of_avoids (avoids_of_peek? htakes.peek? rfl) ?_
  have himmediate : (immediate (n + 1)).Refuses c :=
    (refuses_token (fun _ _ => rfl) (avoids_of_peek? htakes.peek? rfl)).bind _
  exact aborts_choice_tail himmediate (aborts_choice_head
    (((aborts_opened htakes h).bind _).bind _))

/-! ## Statements -/

section
variable (hname : Token.identifier.run c = .ok (name, m))
include hname

/-- An instruction aborts as its operand does, where the kinds before it refuse what follows the
mnemonic. -/
theorem aborts_statement_of_operand (hcolon : Avoids ([':'].contains) m.rest)
    (hequals : m.skipBlank.peek? ≠ some '=') (hdot : m.skipBlank.peek? ≠ some '.')
    (hvalue : IsOrg name.toList → (value limit).Refuses m)
    (h : (operand limit).Aborts m f) : (statement limit).Aborts c f := by
  refine aborts_choice_tail ((refuses_keyword_iff hname).2 hvalue) ?_
  refine aborts_choice_tail (refuses_labelDeclaration hname hcolon) ?_
  refine aborts_choice_tail (refuses_assignment hname (avoids_singleton hequals)) ?_
  refine aborts_choice_head (aborts_bind hname ?_)
  exact aborts_bind (run_sizeSuffix_eq_ok.2 (.inl ⟨rfl, rfl, hdot⟩)) (h.bind _)

/-- A name and an expression: the keyword and its address, or an instruction. -/
theorem aborts_statement_of_value (hlimit : 1 ≤ limit) (hcolon : Avoids ([':'].contains) m.rest)
    (h : (value limit).Aborts m f) : (statement limit).Aborts c f := by
  have hopens : ∀ ch, opensExpression ch = false → m.skipBlank.peek? ≠ some ch := by
    intro ch hch hpk
    exact h.not_refuses (refuses_expression (avoids_of_peek? hpk hch))
  by_cases horg : IsOrg name.toList
  · refine aborts_choice_head (aborts_bind rfl (aborts_bind hname ?_))
    rw [if_pos (show name.toList.map Char.toLower = _ from horg)]
    exact (h.within _ _).bind _
  · exact aborts_statement_of_operand hname hcolon (hopens _ rfl) (hopens _ rfl)
      (fun h => absurd h horg) (aborts_operand_of_value hlimit h)

/-- A name and a character that begins no expression, nor a suffix or a value: an instruction with
an operand that begins so. -/
theorem aborts_statement_of_takes {ch : Char} (hcolon : Avoids ([':'].contains) m.rest)
    (htakes : m.Takes ch d) (hch : opensExpression ch = false ∧ ch ≠ '=' ∧ ch ≠ '.')
    (h : (operand limit).Aborts m f) : (statement limit).Aborts c f := by
  have hpk := htakes.peek?
  refine aborts_statement_of_operand hname hcolon ?_ ?_ (fun _ => ?_) h
  · rw [hpk]
    simpa using hch.2.1
  · rw [hpk]
    simpa using hch.2.2
  · exact refuses_expression (avoids_of_peek? hpk hch.1)

theorem aborts_statement_of_assignment (hcolon : Avoids ([':'].contains) m.rest)
    (htakes : m.Takes '=' d) (h : (value limit).Aborts d f) : (statement limit).Aborts c f := by
  have htoken : (token ['='] "'='" Failure.lexical).run m = .ok ('=', d) :=
    run_token_eq_ok.2 ⟨List.mem_singleton_self _, htakes⟩
  have hvalue : (value limit).Refuses m := refuses_expression (avoids_of_peek? htakes.peek? rfl)
  refine aborts_choice_tail ((refuses_keyword_iff hname).2 fun _ => hvalue) ?_
  refine aborts_choice_tail (refuses_labelDeclaration hname hcolon) (aborts_choice_head ?_)
  exact (aborts_bind hname (aborts_bind htoken ((h.within _ _).bind _))).bind _

end

/-! ## Statements around a context -/

section
variable {nesting : Nat} {p q : List Char}

/-- A name is read up to the space after it. -/
theorem exists_run_identifier (hn : isIdentifier name.toList = true)
    (hr : c.Reads (name.toList ++ ' ' :: q) d) :
    ∃ m, Token.identifier.run c = .ok (name, m) ∧ Avoids ([':'].contains) m.rest ∧
      m.Reads (' ' :: q) d := by
  obtain ⟨m, hname, hr⟩ := Cursor.reads_append.1 hr
  exact ⟨m, Token.run_identifier_eq_ok.2 ⟨hn, hname, hr.avoids rfl⟩, hr.avoids rfl, hr⟩

/-- A character after a space is taken, and an expression after it aborts as it does there. -/
theorem exists_takes_of_space {ch : Char} (hch : isBlank ch = false)
    (hr : c.Reads (' ' :: ch :: p) m) (hp : Context levels nesting p)
    (h : (atom limit (inside limit (levels - nesting))).Aborts m f) :
    ∃ d, c.Takes ch d ∧ (expression limit levels).Aborts d f := by
  obtain ⟨d, hspace, hr⟩ := Cursor.reads_append (s := [' ', ch]).1 hr
  obtain ⟨b, hb, hskip⟩ := d.exists_blanks
  obtain ⟨hrun, hfatal⟩ := aborts_of_context hp hr h
  refine ⟨d.skipBlank, (Cursor.takes_iff hch).2 ⟨d.settled_skipBlank, [' '], b, by decide, hb, ?_⟩,
    run_expression_skipBlank.trans hrun, hfatal⟩
  exact hspace.append hskip

theorem aborts_assignment (hn : isIdentifier name.toList = true) (hp : Context limit nesting p)
    (hr : c.Reads (name.toList ++ ' ' :: '=' :: ' ' :: p) d)
    (h : (atom limit (inside limit (limit - nesting))).Aborts d f) :
    (statement limit).Aborts c f := by
  obtain ⟨m, hname, hcolon, hr⟩ := exists_run_identifier hn hr
  obtain ⟨m', htakes, hvalue⟩ := exists_takes_of_space (by decide) hr (.blank rfl hp) h
  exact aborts_statement_of_assignment hname hcolon htakes hvalue

theorem aborts_instruction_immediate (hn : isIdentifier name.toList = true)
    (hp : Context limit nesting p) (hr : c.Reads (name.toList ++ ' ' :: '#' :: p) d)
    (h : (atom limit (inside limit (limit - nesting))).Aborts d f) :
    (statement limit).Aborts c f := by
  obtain ⟨m, hname, hcolon, hr⟩ := exists_run_identifier hn hr
  obtain ⟨m', htakes, hvalue⟩ := exists_takes_of_space (by decide) hr hp h
  exact aborts_statement_of_takes hname hcolon htakes (by decide) (aborts_immediate htakes hvalue)

theorem aborts_instruction_address (hlimit : 1 ≤ limit) (hn : isIdentifier name.toList = true)
    (hp : Context limit nesting p) (hr : c.Reads (name.toList ++ ' ' :: p) d)
    (h : (atom limit (inside limit (limit - nesting))).Aborts d f) :
    (statement limit).Aborts c f := by
  obtain ⟨m, hname, hcolon, hr⟩ := exists_run_identifier hn hr
  exact aborts_statement_of_value hname hlimit hcolon (aborts_of_context (.blank rfl hp) hr h)

theorem aborts_instruction_longIndirect {n : Nat} (hn : isIdentifier name.toList = true)
    (hp : Context n nesting p) (hr : c.Reads (name.toList ++ ' ' :: '[' :: p) d)
    (h : (atom (n + 1) (inside (n + 1) (n - nesting))).Aborts d f) :
    (statement (n + 1)).Aborts c f := by
  obtain ⟨m, hname, hcolon, hr⟩ := exists_run_identifier hn hr
  obtain ⟨m', htakes, hinner⟩ := exists_takes_of_space (by decide) hr hp h
  exact aborts_statement_of_takes hname hcolon htakes (by decide)
    (aborts_longIndirect htakes hinner)

end

end Grammar

/-! ## Whole texts -/

open Grammar

/-- A text that stands after `before` fails with `f`, moved to where the text stands. -/
def Surfaces {α : Type} (read : String → Except Diagnostic α) (before text : List Char)
    (f : Failure) : Prop :=
  read (String.ofList (before ++ text)) =
    .error (.ofFailure (before ++ text) (f.shift before.length))

section
variable {before text : List Char} {f : Failure}

theorem reads_before (before text : List Char) :
    (Cursor.ofText (before ++ text) 0).Reads before ⟨before.length, text⟩ :=
  ⟨rfl, (Nat.zero_add _).symm⟩

theorem Rule.surfaces_of_aborts {α : Type} {r : Rule α}
    (h : r.Aborts (Cursor.ofText (before ++ text) 0).skipBlank (f.shift before.length)) :
    Surfaces (Rule.parse (do skipBlank; r)) before text f := by
  unfold Surfaces Rule.parse
  rw [String.toList_ofList, Rule.run_skipBlank_bind, h.1]

/-- An operand that aborts at the start of a text aborts where the text stands further on. -/
theorem aborts_atom_further {limit levels : Nat} (hfatal : f.fatal = true)
    (h : (atom limit (inside limit levels)).run (.ofText text 0) = .error f) (n : Nat) :
    (atom limit (inside limit levels)).Aborts ⟨n, text⟩ (f.shift n) := by
  refine ⟨Rule.run_error_of_similar (fun k => ?_) h n, by rwa [Failure.fatal_shift]⟩
  exact Lockstep.similar_atom (Lockstep.inside_of_deeper (.refl ..))

/-- A statement begins with its name. -/
theorem Statement.surfaces_of_aborts {depth : Depth} {name : String} {q : List Char}
    (hn : isIdentifier name.toList = true)
    (h : (statement depth.levels).Aborts (Cursor.ofText (name.toList ++ q ++ text) 0)
      (f.shift (name.toList ++ q).length)) :
    Surfaces (Statement.parse depth) (name.toList ++ q) text f := by
  refine Rule.surfaces_of_aborts ?_
  have hset : (Cursor.ofText (name.toList ++ q ++ text) 0).Settled := by
    rw [List.append_assoc]
    exact avoids_blank_of_isIdentifier hn _
  rwa [hset.skipBlank]

end

section
variable {depth : Depth} {nesting : Nat} {p text : List Char} {f : Failure} {name : String}

/-- An expression fails as the operand at the end of a context does. -/
theorem Expr.surfaces_of_context (hfatal : f.fatal = true) (hp : Context depth.levels nesting p)
    (h : (atom depth.levels (inside depth.levels (depth.levels - nesting))).run (.ofText text 0) =
      .error f) : Surfaces (Expr.parse depth) p text f := by
  have hvalue : (value depth.levels).Aborts (Cursor.ofText (p ++ text) 0) (f.shift p.length) :=
    aborts_of_context hp (reads_before p text) (aborts_atom_further hfatal h _)
  exact Rule.surfaces_of_aborts ⟨run_expression_skipBlank.trans hvalue.1, hvalue.2⟩

/-- A name and an expression fail as the expression does. -/
theorem Statement.surfaces_of_context (hfatal : f.fatal = true)
    (hn : isIdentifier name.toList = true) (hp : Context depth.levels nesting p)
    (h : (atom depth.levels (inside depth.levels (depth.levels - nesting))).run (.ofText text 0) =
      .error f) : Surfaces (Statement.parse depth) (name.toList ++ ' ' :: p) text f :=
  Statement.surfaces_of_aborts hn (aborts_instruction_address depth.one_le hn hp
    (reads_before _ _) (aborts_atom_further hfatal h _))

/-- A name and an expression in either kind of brackets fail as the expression does, one level
down. -/
theorem Statement.surfaces_of_context_enclosed (hfatal : f.fatal = true)
    (hn : isIdentifier name.toList = true) (hp : Context (depth.levels - 1) nesting p)
    (h : (atom depth.levels (inside depth.levels (depth.levels - (nesting + 1)))).run
      (.ofText text 0) = .error f) :
    Surfaces (Statement.parse depth) (name.toList ++ ' ' :: '(' :: p) text f ∧
      Surfaces (Statement.parse depth) (name.toList ++ ' ' :: '[' :: p) text f := by
  obtain ⟨n, hlevels⟩ := Nat.exists_eq_add_of_le' depth.one_le
  rw [hlevels, Nat.add_sub_cancel] at hp
  have hgroup : Context depth.levels (nesting + 1) ('(' :: p) := by
    rw [hlevels]
    exact .group hp
  refine ⟨Statement.surfaces_of_context hfatal hn hgroup h, Statement.surfaces_of_aborts hn ?_⟩
  rw [hlevels, Nat.add_sub_add_right] at h
  rw [hlevels]
  exact aborts_instruction_longIndirect hn hp (reads_before _ _) (aborts_atom_further hfatal h _)

end

end Asm65816
