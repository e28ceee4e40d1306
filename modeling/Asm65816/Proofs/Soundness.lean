import Asm65816.Proofs.Layout

/-!
# Only layouts are read

What the grammar reads is a layout of the tree it answers with: nothing is skipped but blanks, and
no node of the tree is without its text. For expressions the claim goes by induction on the levels,
with one lemma for each form, and by induction on the operators of a chain. It is carried by
`Spelled`, which says in addition that the text stands apart from what follows it, since that is
what an operator read later asks of the text before it.

The operand shapes and the statements follow from their expressions, one lemma for each part. A rule
that was tried and given up leaves no trace, so a choice matches as one of its alternatives does
(`Rule.run_choice_ok`).
-/

namespace Asm65816

open Text (Blanks Avoids Apart Radix isBlank isIdentifier isIdentifierPart isIdentifierStart)

namespace Grammar

open Rule

/-- The text from one cursor to the other spells the phrase, and both the phrase and the blanks
after it end there. -/
def Spelled (levels : Nat) (p : Phrase) (c d : Cursor) : Prop :=
  d.Settled ∧ ∃ t, c.Reads t d ∧ Layout levels p t ∧ Apart t d.rest

/-- Every expression that is read at these levels is spelled, after blanks. -/
def Faithful (limit levels : Nat) : Prop :=
  ∀ ⦃c d : Cursor⦄ ⦃e : Expr⦄, (expression limit levels).run c = .ok (e, d) →
    Spelled levels (.sum e) c.skipBlank d

/-- Where no blank stands, the expression begins at once. -/
theorem Faithful.spelled {limit levels : Nat} {c d : Cursor} {e : Expr}
    (h : Faithful limit levels) (hc : c.Settled)
    (he : (expression limit levels).run c = .ok (e, d)) : Spelled levels (.sum e) c d := by
  have hs := h he
  rwa [hc.skipBlank] at hs

variable {limit levels : Nat} {c d m : Cursor} {e l r : Expr} {es : List Expr} {o : Operand}
  {s : Statement} {t : List Char}

/-! ## Operands of operators -/

/-- A word with blanks after it spells a phrase if its characters are no markers. -/
theorem spelled_of_lexeme {p : Phrase} (hr : c.Reads t m) (hm : m.skipBlank = d)
    (hl : ∀ {b}, Blanks b → Layout levels p (t ++ b)) (ha : ∀ u, Apart t u) :
    Spelled levels p c d := by
  obtain ⟨hd, b, hb, hrb⟩ := Cursor.skipBlank_eq_iff.1 hm
  exact ⟨hd, t ++ b, hr.append hrb, hl hb, Text.apart_append_blanks hb fun _ => ha _⟩

theorem spelled_decimal (h : (numeral Token.decimal).run c = .ok (e, d)) :
    Spelled levels (.atom e) c d := by
  obtain ⟨n, m, rfl, hn, hm⟩ := run_numeral_eq_ok.1 h
  obtain ⟨ds, hds, hv, hw, hr, -⟩ := Token.run_decimal_eq_ok.1 hn
  exact spelled_of_lexeme hr hm (.decimal hds hv hw) hds.apart

theorem spelled_hexadecimal (h : (numeral Token.hexadecimal).run c = .ok (e, d)) :
    Spelled levels (.atom e) c d := by
  obtain ⟨n, m, rfl, hn, hm⟩ := run_numeral_eq_ok.1 h
  obtain ⟨b, ds, hb, hds, hv, hw, hr, -⟩ := Token.run_hexadecimal_eq_ok.1 hn
  refine spelled_of_lexeme hr hm (.hexadecimal hb hds hv hw) fun u => ?_
  rw [Text.apart_append hds.1]
  exact hds.apart u

/-- A whole run of markers stands apart from what follows it. -/
theorem apart_markers {k : Int} (hk : k ≠ 0) {u : List Char}
    (h : Avoids (· = Label.marker k) u) : Apart (Label.markers k) u := by
  intro ch hch hu
  rw [Label.getLast?_markers hk, Option.some.injEq] at hch
  subst hch
  have := h _ hu
  simp at this

theorem spelled_reference (h : reference.run c = .ok (e, d)) : Spelled levels (.atom e) c d := by
  rcases run_reference_eq_ok.1 h with ⟨l, rfl, hl⟩ | ⟨name, rfl, hname⟩
  · obtain ⟨m, hl, hm⟩ := run_lexeme_eq_ok.1 hl
    obtain ⟨k, hk, rfl, hr, ha⟩ := Token.run_relativeLabel_eq_ok.1 hl
    obtain ⟨hd, b, hb, hrb⟩ := Cursor.skipBlank_eq_iff.1 hm
    refine ⟨hd, _, hr.append hrb, .relative hb, Text.apart_append_blanks hb ?_⟩
    rintro rfl
    rw [← Cursor.reads_nil_iff.1 hrb]
    exact apart_markers hk ha
  · obtain ⟨m, hname, hm⟩ := run_lexeme_eq_ok.1 hname
    obtain ⟨hn, hr, -⟩ := Token.run_identifier_eq_ok.1 hname
    exact spelled_of_lexeme hr hm (.named hn) (Text.apart_of_isIdentifier hn)

/-! ## Brackets -/

/-- A text that ends with a closing parenthesis stands apart from any other. -/
theorem apart_closed {b : List Char} (hb : Blanks b) (u : List Char) :
    Apart (t ++ ')' :: b) u := by
  rw [Text.apart_append (List.cons_ne_nil _ _)]
  refine Text.apart_append_blanks (s := [')']) hb fun _ => ?_
  exact Text.apart_of_all (p := (· = ')')) (by simp) (by decide) u

/-- Brackets hold the grammar of one level less. -/
theorem inside_eq_some {i : Advancing Expr} (h : inside limit levels = some i) :
    ∃ n, levels = n + 1 ∧ i = expression limit n := by
  cases levels with
  | zero => cases h
  | succ n =>
    cases h
    exact ⟨n, rfl, rfl⟩

theorem spelled_group (ih : ∀ n, levels = n + 1 → Faithful limit n) (hc : c.Settled)
    (h : (group limit (inside limit levels)).run c = .ok (e, d)) :
    Spelled levels (.atom e) c d := by
  obtain ⟨i, m, m', hi, hopen, he, hclose⟩ := run_group_eq_ok.1 h
  obtain ⟨n, rfl, rfl⟩ := inside_eq_some hi
  obtain ⟨hm, b, hb, hopen⟩ := hc.takes_iff.1 hopen
  obtain ⟨hm', t, hr, hl, -⟩ := (ih n rfl).spelled hm he
  obtain ⟨hd, b', hb', hclose⟩ := hm'.takes_iff.1 hclose
  exact ⟨hd, _, (hopen.append hr).append hclose, .group hb hl hb', apart_closed hb' _⟩

/-- Arguments are read one by one, up to the parenthesis that closes them. -/
theorem layout_of_iterate {callee : String} (ih : Faithful limit levels) (hc : c.Settled)
    (h : (argument callee (expression limit levels)).iterate c = .ok (es, d)) :
    es ≠ [] ∧ ∃ t m, c.Reads t m ∧ Layout levels (.arguments es) t ∧ m.Settled ∧
      m.Takes ')' d := by
  induction es generalizing c with
  | nil => rcases Advancing.iterate_eq_ok.1 h with ⟨_, h, -⟩ | ⟨_, _, _, h, -⟩ <;> cases h
  | cons e es ihes =>
    refine ⟨List.cons_ne_nil e es, ?_⟩
    rcases Advancing.iterate_eq_ok.1 h with ⟨_, ⟨⟩, harg⟩ | ⟨_, _, m', ⟨⟩, harg, hrest⟩
    · obtain ⟨m, he, hclose⟩ := run_argument_eq_ok.1 harg
      obtain ⟨hm, t, hr, hl, -⟩ := ih.spelled hc he
      exact ⟨t, m, hr, .oneArgument hl, hm, hclose⟩
    · obtain ⟨m, he, hcomma⟩ := run_argument_eq_ok.1 harg
      obtain ⟨hm, s, hrs, hls, -⟩ := ih.spelled hc he
      obtain ⟨hm', b, hb, hcomma⟩ := hm.takes_iff.1 hcomma
      obtain ⟨hne, t, m'', hrt, hlt, hm'', hclose⟩ := ihes hm' hrest
      obtain ⟨f, fs, rfl⟩ := List.exists_cons_of_ne_nil hne
      exact ⟨_, m'', (hrs.append hcomma).append hrt, .moreArguments hls hb hlt, hm'', hclose⟩

theorem spelled_call (ih : ∀ n, levels = n + 1 → Faithful limit n)
    (h : (call limit (inside limit levels)).run c = .ok (e, d)) :
    Spelled levels (.atom e) c d := by
  obtain ⟨name, es, i, m, m', rfl, hname, hi, hopen, hargs⟩ := run_call_eq_ok.1 h
  obtain ⟨n, rfl, rfl⟩ := inside_eq_some hi
  obtain ⟨m₀, hname, hm⟩ := run_lexeme_eq_ok.1 hname
  obtain ⟨hn, hrn, -⟩ := Token.run_identifier_eq_ok.1 hname
  obtain ⟨hm, b, hb, hrb⟩ := Cursor.skipBlank_eq_iff.1 hm
  obtain ⟨hm', b', hb', hopen⟩ := hm.takes_iff.1 hopen
  have hlayout : ∃ t m, m'.Reads t m ∧ Layout n (.arguments es) t ∧ m.Settled ∧
      m.Takes ')' d := by
    rcases (run_callArguments_eq_ok hm').1 hargs with ⟨rfl, hclose⟩ | ⟨-, hargs⟩
    · exact ⟨[], m', m'.reads_nil, .noArguments, hm', hclose⟩
    · exact (layout_of_iterate (ih n rfl) hm' hargs).2
  obtain ⟨t, m'', hr, hl, hm'', hclose⟩ := hlayout
  obtain ⟨hd, b'', hb'', hclose⟩ := hm''.takes_iff.1 hclose
  exact ⟨hd, _, (((hrn.append hrb).append hopen).append hr).append hclose,
    .call hn hb hb' hl hb'', apart_closed hb'' _⟩

/-- An operand is one of the five forms. -/
theorem spelled_atom (ih : ∀ n, levels = n + 1 → Faithful limit n)
    (h : (atom limit (inside limit levels)).run c = .ok (e, d)) :
    Spelled levels (.atom e) c.skipBlank d := by
  rw [run_atom_eq] at h
  obtain ⟨rule, hrule, h⟩ := run_choice_ok h
  simp only [List.mem_cons, List.not_mem_nil, or_false] at hrule
  rcases hrule with rfl | rfl | rfl | rfl | rfl
  · exact spelled_group ih c.settled_skipBlank h
  · exact spelled_decimal h
  · exact spelled_hexadecimal h
  · exact spelled_call ih h
  · exact spelled_reference h

/-! ## Chains -/

theorem multiplicative?_eq_some {ch : Char} {op : Operator}
    (h : Operator.multiplicative? ch = some op) : op ∈ [.mul, .div] ∧ op.symbol = [ch] := by
  simp only [Operator.multiplicative?] at h
  split at h <;> cases h <;> decide

theorem additive?_eq_some {ch : Char} {op : Operator} (h : Operator.additive? ch = some op) :
    op ∈ [.add, .sub] ∧ op.symbol = [ch] := by
  simp only [Operator.additive?] at h
  split at h <;> cases h <;> decide

/-- A tier of operators makes phrases of its own out of those of the tier below. -/
structure IsTier (levels : Nat) (operand : Advancing Expr) (operator? : Char → Option Operator)
    (tier below : Expr → Phrase) : Prop where
  spelled_below : ∀ ⦃c d e⦄, operand.run c = .ok (e, d) → Spelled levels (below e) c.skipBlank d
  below_ne : ∀ e, below e ≠ .arguments []
  symbol_eq : ∀ {ch op}, operator? ch = some op → op.symbol = [ch]
  ofBelow : ∀ {e t}, Layout levels (below e) t → Layout levels (tier e) t
  join : ∀ {ch op l r s b t}, operator? ch = some op → Layout levels (tier l) s →
    Apart s op.symbol → Blanks b → Layout levels (below r) t →
    Layout levels (tier (.binary op l r)) (s ++ op.symbol ++ b ++ t)

namespace IsTier

variable {operand : Advancing Expr} {operator? : Char → Option Operator}
  {tier below : Expr → Phrase}

/-- One operator and the operand after it are spelled with what was read before them. -/
theorem spelled_join (ht : IsTier levels operand operator? tier below) {op : Operator}
    {m' : Cursor} (hop : m.peek?.bind operator? = some op)
    (hr : operand.run (m.advance 1).skipBlank = .ok (r, m')) (hl : Spelled levels (tier l) c m) :
    Spelled levels (tier (.binary op l r)) c m' := by
  obtain ⟨ch, hpk, hop⟩ := Option.bind_eq_some_iff.1 hop
  obtain ⟨hm, s, hrs, hls, hs⟩ := hl
  obtain ⟨b, hb, hrb⟩ := (m.advance 1).exists_blanks
  have hr := ht.spelled_below hr
  rw [(m.advance 1).settled_skipBlank.skipBlank] at hr
  obtain ⟨hm', t, hrt, hlt, ha⟩ := hr
  have hapart : Apart s op.symbol := by
    obtain ⟨rest, hrest⟩ := Cursor.peek?_eq_some.1 hpk
    rw [hrest] at hs
    rw [ht.symbol_eq hop]
    exact Text.apart_cons.1 hs
  have hreads : c.Reads (s ++ op.symbol ++ b ++ t) m' := by
    rw [ht.symbol_eq hop]
    exact ((hrs.append (Cursor.reads_advance_one hpk)).append hrb).append hrt
  exact ⟨hm', _, hreads, ht.join hop hls hapart hb hlt,
    (Text.apart_append (hlt.ne_nil (ht.below_ne r))).2 ha⟩

/-- What is read onto a spelled operand is spelled with it, one operator after the other. An
operator with nothing readable after it is left where it stands. -/
theorem spelled_chainFrom (ht : IsTier levels operand operator? tier below)
    (hl : Spelled levels (tier l) c m) (h : chainFrom operand operator? l m = .ok (e, d)) :
    Spelled levels (tier e) c d := by
  fun_induction chainFrom operand operator? l m with
  | case1 =>
    cases h
    exact hl
  | case2 l m op hop r m' hr ih => exact ih (ht.spelled_join hop hr hl) h
  | case3 => cases h
  | case4 =>
    cases h
    exact hl

theorem spelled_chain (ht : IsTier levels operand operator? tier below)
    (h : (chain operand operator?).run c = .ok (e, d)) : Spelled levels (tier e) c.skipBlank d := by
  obtain ⟨l, m, hl, h⟩ := run_chain_eq_ok.1 h
  obtain ⟨hm, t, hr, hl, ha⟩ := ht.spelled_below hl
  exact ht.spelled_chainFrom ⟨hm, t, hr, ht.ofBelow hl, ha⟩ h

end IsTier

/-- The upper tier stands over the operands. -/
theorem isTier_term (ih : ∀ n, levels = n + 1 → Faithful limit n) :
    IsTier levels (atom limit (inside limit levels)) Operator.multiplicative? .term .atom where
  spelled_below _ _ _ h := spelled_atom ih h
  below_ne := nofun
  symbol_eq h := (multiplicative?_eq_some h).2
  ofBelow := .ofAtom
  join h := .product (multiplicative?_eq_some h).1

/-- The lower tier stands over the upper one. -/
theorem isTier_sum (ih : ∀ n, levels = n + 1 → Faithful limit n) :
    IsTier levels (term limit (inside limit levels)) Operator.additive? .sum .term where
  spelled_below _ _ _ h := (isTier_term ih).spelled_chain h
  below_ne := nofun
  symbol_eq h := (additive?_eq_some h).2
  ofBelow := .ofTerm
  join h := .addition (additive?_eq_some h).1

/-- Whatever the levels, an expression is spelled by what is read. -/
theorem faithful (limit levels : Nat) : Faithful limit levels := by
  induction levels with
  | zero =>
    intro c d e h
    refine (isTier_sum ?_).spelled_chain h
    rintro _ ⟨⟩
  | succ levels ih =>
    intro c d e h
    refine (isTier_sum ?_).spelled_chain h
    rintro _ ⟨⟩
    exact ih

/-! ## Operands -/

/-- The text from one cursor to the other has the property, and the blanks after it end there. -/
def Laid (P : List Char → Prop) (c d : Cursor) : Prop := d.Settled ∧ ∃ t, c.Reads t d ∧ P t

theorem laid_value (h : (value limit).run c = .ok (e, d)) :
    Laid (Layout limit (.sum e)) c.skipBlank d := by
  obtain ⟨hd, t, hr, hl, -⟩ := faithful limit limit h
  exact ⟨hd, t, hr, hl⟩

theorem laid_value_of_settled (hc : c.Settled) (h : (value limit).run c = .ok (e, d)) :
    Laid (Layout limit (.sum e)) c d := by
  have hl := laid_value h
  rwa [hc.skipBlank] at hl

/-- An opened bracket has the grammar of one level less after it. -/
theorem laid_opened {bracket : Char} (h : (opened limit bracket).run c = .ok (e, d)) :
    ∃ n, limit = n + 1 ∧ Laid (fun u => ∃ b t, u = bracket :: b ++ t ∧ Blanks b ∧
      Layout n (.sum e) t) c.skipBlank d := by
  obtain ⟨i, m, hi, ⟨hm, b, hb, hopen⟩, he⟩ := run_opened_eq_ok.1 h
  obtain ⟨n, rfl, rfl⟩ := inside_eq_some hi
  obtain ⟨hd, t, hr, hl, -⟩ := (faithful _ n).spelled hm he
  exact ⟨n, rfl, hd, _, hopen.append hr, b, t, rfl, hb, hl⟩

theorem laid_enclosed {opening closing : Char}
    (h : (enclosed limit opening closing).run c = .ok (e, d)) :
    Laid (Enclosed opening closing limit e) c.skipBlank d := by
  obtain ⟨m, h, hclose⟩ := run_enclosed_eq_ok.1 h
  obtain ⟨n, rfl, hm, _, hr, b, t, rfl, hb, hl⟩ := laid_opened h
  obtain ⟨hd, b', hb', hclose⟩ := hm.takes_iff.1 hclose
  exact ⟨hd, _, hr.append hclose, .mk hb hl hb'⟩

theorem laid_indexedBy {letter : Char} (hc : c.Settled)
    (h : (indexedBy letter).run c = .ok ((), d)) : Laid (Indexed letter) c d := by
  obtain ⟨m, hcomma, h⟩ := run_indexedBy_eq_ok.1 h
  obtain ⟨hm, b, hb, hcomma⟩ := hc.takes_iff.1 hcomma
  obtain ⟨ch, hch, htakes, -⟩ := run_register_eq_ok.1 h
  obtain ⟨hd, b', hb', hr⟩ := hm.takes_iff.1 htakes
  exact ⟨hd, _, hcomma.append hr, .mk hb hch hb'⟩

theorem laid_enclosedIndexed {letter : Char}
    (h : (enclosedIndexed limit letter).run c = .ok (e, d)) :
    Laid (EnclosedIndexed letter limit e) c.skipBlank d := by
  obtain ⟨m, m', h, hindex, hclose⟩ := run_enclosedIndexed_eq_ok.1 h
  obtain ⟨n, rfl, hm, _, hr, b, t, rfl, hb, hl⟩ := laid_opened h
  obtain ⟨hm', u, hru, hu⟩ := laid_indexedBy hm hindex
  obtain ⟨hd, b', hb', hclose⟩ := hm'.takes_iff.1 hclose
  exact ⟨hd, _, (hr.append hru).append hclose, .mk hb hl hu hb'⟩

/-- A shape with `,y` after it is the shape and the register. -/
theorem laid_then_indexedBy {P : List Char → Prop} (h : Laid P c m)
    (hi : (indexedBy 'y').run m = .ok ((), d)) :
    Laid (fun u => ∃ s t, u = s ++ t ∧ P s ∧ Indexed 'y' t) c d := by
  obtain ⟨hm, s, hrs, hs⟩ := h
  obtain ⟨hd, t, hrt, ht⟩ := laid_indexedBy hm hi
  exact ⟨hd, _, hrs.append hrt, s, t, rfl, hs, ht⟩

theorem laid_move (h : (move limit).run c = .ok (o, d)) :
    Laid (OperandLayout limit o) c.skipBlank d := by
  obtain ⟨e, f, m, m', rfl, he, hcomma, hf⟩ := run_move_eq_ok.1 h
  obtain ⟨hm, t, hrt, ht⟩ := laid_value he
  obtain ⟨hm', b, hb, hcomma⟩ := hm.takes_iff.1 hcomma
  obtain ⟨hd, u, hru, hu⟩ := laid_value_of_settled hm' hf
  exact ⟨hd, _, (hrt.append hcomma).append hru, .move ht hb hu⟩

theorem laid_immediate (h : (immediate limit).run c = .ok (o, d)) :
    Laid (OperandLayout limit o) c.skipBlank d := by
  obtain ⟨e, m, rfl, ⟨hm, b, hb, hmark⟩, he⟩ := run_immediate_eq_ok.1 h
  obtain ⟨hd, t, hr, ht⟩ := laid_value_of_settled hm he
  exact ⟨hd, _, hmark.append hr, .immediate hb ht⟩

/-- An operand is one of the ten shapes. -/
theorem laid_operand (h : (operand limit).run c = .ok (o, d)) :
    Laid (OperandLayout limit o) c.skipBlank d := by
  obtain ⟨rule, hrule, h⟩ := run_choice_ok h
  simp only [List.mem_cons, List.not_mem_nil, or_false] at hrule
  rcases hrule with rfl | rfl | rfl | rfl | rfl | rfl | rfl | rfl | rfl | rfl
  · obtain ⟨e, m, rfl, he, hi⟩ := run_shape_indexed_eq_ok.1 h
    obtain ⟨hd, _, hr, t, u, rfl, ht, hu⟩ := laid_then_indexedBy (laid_enclosed he) hi
    exact ⟨hd, _, hr, .indirectY ht hu⟩
  · obtain ⟨e, rfl, he, -⟩ := run_indirect_eq_ok.1 h
    obtain ⟨hd, t, hr, ht⟩ := laid_enclosed he
    exact ⟨hd, t, hr, .indirect ht⟩
  · obtain ⟨e, rfl, he⟩ := run_shape_eq_ok.1 h
    obtain ⟨hd, t, hr, ht⟩ := laid_enclosedIndexed he
    exact ⟨hd, t, hr, .xIndirect ht⟩
  · exact laid_move h
  · obtain ⟨e, rfl, he⟩ := run_shape_eq_ok.1 h
    obtain ⟨hd, t, hr, ht⟩ := laid_value he
    exact ⟨hd, t, hr, .address ht⟩
  · exact laid_immediate h
  · obtain ⟨e, m, rfl, he, hi⟩ := run_shape_indexed_eq_ok.1 h
    obtain ⟨hd, _, hr, t, u, rfl, ht, hu⟩ := laid_then_indexedBy (laid_enclosed he) hi
    exact ⟨hd, _, hr, .longIndirectY ht hu⟩
  · obtain ⟨e, rfl, he⟩ := run_shape_eq_ok.1 h
    obtain ⟨hd, t, hr, ht⟩ := laid_enclosed he
    exact ⟨hd, t, hr, .longIndirect ht⟩
  · obtain ⟨e, m, rfl, he, hi⟩ := run_shape_indexed_eq_ok.1 h
    obtain ⟨hd, _, hr, t, u, rfl, ht, hu⟩ := laid_then_indexedBy (laid_enclosedIndexed he) hi
    exact ⟨hd, _, hr, .stackIndirectY ht hu⟩
  · obtain ⟨rfl, -, rfl⟩ := run_implied_eq_ok.1 h
    exact ⟨c.settled_skipBlank, [], Cursor.reads_nil _, .implied⟩

/-! ## Statements -/

/-- What is laid out after blanks is read with them, and the word before it ends. -/
theorem laid_after_word {P : List Char → Prop} (h : Laid P c.skipBlank d)
    (ha : Avoids isIdentifierPart c.rest) :
    Laid (fun u => ∃ b t, u = b ++ t ∧ Blanks b ∧ P t ∧ Avoids isIdentifierPart u) c d := by
  obtain ⟨hd, t, hr, ht⟩ := h
  obtain ⟨b, hb, hrb⟩ := c.exists_blanks
  have hr := hrb.append hr
  refine ⟨hd, _, hr, b, t, rfl, hb, ht, ?_⟩
  rw [hr.1] at ha
  exact ha.of_append

theorem laid_keyword (h : (keyword limit).run c = .ok (s, d)) :
    Laid (StatementLayout limit s) c d := by
  obtain ⟨name, e, m, rfl, hname, horg, he⟩ := run_keyword_eq_ok.1 h
  obtain ⟨-, hrn, ha⟩ := Token.run_identifier_eq_ok.1 hname
  obtain ⟨hd, _, hr, b, t, rfl, hb, ht, ha⟩ := laid_after_word (laid_value he) ha
  refine ⟨hd, name.toList ++ b ++ t, ?_, .org horg hb ht ha⟩
  rw [List.append_assoc]
  exact hrn.append hr

theorem laid_labelDeclaration (h : labelDeclaration.run c = .ok (s, d)) :
    Laid (StatementLayout limit s) c d := by
  rcases run_labelDeclaration_eq_ok.1 h with ⟨l, m, rfl, hl, -, hd⟩ | ⟨name, m, m', rfl, hn, hr, hd⟩
  · obtain ⟨k, hk, rfl, hr, -⟩ := Token.run_relativeLabel_eq_ok.1 hl
    obtain ⟨hd, b, hb, hrb⟩ := Cursor.skipBlank_eq_iff.1 hd
    exact ⟨hd, _, hr.append hrb, .relative hb⟩
  · obtain ⟨hname, hrn, -⟩ := Token.run_identifier_eq_ok.1 hn
    obtain ⟨hd, b, hb, hrb⟩ := Cursor.skipBlank_eq_iff.1 hd
    exact ⟨hd, _, hrn.append (hr.append hrb), .named hname hb⟩

theorem laid_assignment (h : (assignmentStatement limit).run c = .ok (s, d)) :
    Laid (StatementLayout limit s) c d := by
  obtain ⟨name, e, m, m', rfl, hname, hequals, he⟩ := run_assignment_eq_ok.1 h
  obtain ⟨hn, hrn, -⟩ := Token.run_identifier_eq_ok.1 hname
  obtain ⟨hm', b, b', hb, hb', hequals⟩ := (Cursor.takes_iff rfl).1 hequals
  obtain ⟨hd, t, hr, ht⟩ := laid_value_of_settled hm' he
  refine ⟨hd, name.toList ++ b ++ '=' :: b' ++ t, ?_, .assignment hn hb hb' ht⟩
  have := (hrn.append hequals).append hr
  rwa [← List.append_assoc] at this

/-- A suffix ends as a word does. -/
theorem laid_sizeSuffix {size : Option Size} (h : sizeSuffix.run c = .ok (size, d))
    (ha : Avoids isIdentifierPart c.rest) :
    ∃ u, c.Reads u d ∧ SuffixLayout size u ∧ Avoids isIdentifierPart d.rest := by
  rcases run_sizeSuffix_eq_ok.1 h with ⟨rfl, rfl, -⟩ | ⟨z, m, ch, rfl, hdot, hr, hch, ha⟩
  · exact ⟨[], c.reads_nil, .none, ha⟩
  · obtain ⟨-, b, b', hb, hb', hdot⟩ := (Cursor.takes_iff rfl).1 hdot
    exact ⟨_, hdot.append hr, .some hb hb' hch, ha⟩

theorem laid_instruction (h : (instruction limit).run c = .ok (s, d)) :
    Laid (StatementLayout limit s) c d := by
  obtain ⟨mnemonic, size, o, m, m', rfl, hname, hsize, ho⟩ := run_instruction_eq_ok.1 h
  obtain ⟨hn, hrn, ha⟩ := Token.run_identifier_eq_ok.1 hname
  obtain ⟨u, hru, hu, ha⟩ := laid_sizeSuffix hsize ha
  obtain ⟨hd, _, hr, b, t, rfl, hb, ht, ha⟩ := laid_after_word (laid_operand ho) ha
  refine ⟨hd, mnemonic.toList ++ u ++ b ++ t, ?_, .instruction hn hu hb ht ha⟩
  rw [List.append_assoc]
  exact (hrn.append hru).append hr

/-- A statement is one of the four kinds. -/
theorem laid_statement (h : (statement limit).run c = .ok (s, d)) :
    Laid (StatementLayout limit s) c d := by
  obtain ⟨rule, hrule, h⟩ := run_choice_ok h
  simp only [List.mem_cons, List.not_mem_nil, or_false] at hrule
  rcases hrule with rfl | rfl | rfl | rfl
  · exact laid_keyword h
  · exact laid_labelDeclaration h
  · exact laid_assignment h
  · exact laid_instruction h

end Grammar

/-! ## Whole texts -/

/-- A rule that reads after blanks takes them and its own text from the front. -/
theorem Rule.text_of_parse {α : Type} {r : Rule α} {P : α → List Char → Prop}
    (hr : ∀ {c d : Cursor} {a : α}, c.Settled → r.run c = .ok (a, d) → Grammar.Laid (P a) c d)
    {text rest : String} {a : α} (h : Rule.parse (do skipBlank; r) text = .ok (a, rest)) :
    ∃ b t, text.toList = b ++ t ++ rest.toList ∧ Blanks b ∧ P a t := by
  obtain ⟨d, hrun, rfl⟩ := Rule.parse_eq_ok.1 h
  obtain ⟨-, t, hrt, ht⟩ := hr (Cursor.settled_skipBlank _) hrun
  obtain ⟨b, hb, hrb⟩ := (Cursor.ofText text.toList 0).exists_blanks
  refine ⟨b, t, ?_, hb, ht⟩
  rw [String.toList_ofList]
  exact (hrb.append hrt).1

/-- A result is known from its value, which can be compared. -/
theorem eq_ok_of_toOption {ε α : Type} {x : Except ε α} {a : α} (h : x.toOption = some a) :
    x = .ok a := by
  cases x with
  | ok b =>
    cases h
    rfl
  | error f => cases h

/-- Whatever is read is spelled by the text it is read from. The text that is not left is a layout
of the tree, nested no deeper than the limit, with blanks before it. -/
theorem layout_of_parse (depth : Depth) (text : String) :
    (∀ e rest, Expr.parse depth text = .ok (e, rest) →
      ∃ b t, text.toList = b ++ t ++ rest.toList ∧ Blanks b ∧ Layout depth.levels (.sum e) t) ∧
    (∀ s rest, Statement.parse depth text = .ok (s, rest) →
      ∃ b t, text.toList = b ++ t ++ rest.toList ∧ Blanks b ∧
        StatementLayout depth.levels s t) := by
  refine ⟨fun e rest h => ?_, fun s rest h => ?_⟩
  · exact Rule.text_of_parse (P := fun e => Layout depth.levels (.sum e))
      (fun hc h => Grammar.laid_value_of_settled hc h) h
  · exact Rule.text_of_parse (fun _ h => Grammar.laid_statement h) h

/-- An operator that nothing follows is left, and so is a comment after an indexed operand. -/
theorem layout_of_parse_indexed :
    (∃ b t, " 1 +f( $0F )* 2 - ,".toList = b ++ t ++ "- ,".toList ∧ Blanks b ∧
      Layout 3 (.sum (.binary .add (.number ⟨1, .unsized, by decide⟩) (.binary .mul
        (.call "f" [.number ⟨15, .oneByte, by decide⟩]) (.number ⟨2, .unsized, by decide⟩)))) t) ∧
    ∃ b t, " lda .W (+ ) , Y ;c".toList = b ++ t ++ ";c".toList ∧ Blanks b ∧
      StatementLayout 3 (.instruction ⟨"lda", some .word, .valued .indirectY
        (.label (.relative 1 (by decide)))⟩) t := by
  refine ⟨(layout_of_parse ⟨3, by decide, by decide⟩ " 1 +f( $0F )* 2 - ,").1 _ _ ?_,
    (layout_of_parse ⟨3, by decide, by decide⟩ " lda .W (+ ) , Y ;c").2 _ _ ?_⟩
  · exact eq_ok_of_toOption (by decide +kernel)
  · exact eq_ok_of_toOption (by decide +kernel)

end Asm65816
