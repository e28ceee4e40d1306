import Asm65816.Proofs.Layout

/-!
# Every layout is read

The grammar reads each layout of an expression as that expression, and stops where the layout ends.
The proof goes by induction on the layout, one lemma for each of its rules. What it carries
(`Understood`) is more than the result. Operators group to the left while layouts are cut at their
last operator, so for a chain it says that the rule, having read the text, is where it would be if
it had started with the tree already there: in `chainFrom` with that tree on its left.
-/

namespace Asm65816

open Text (Blanks Avoids BeginsIn Apart Radix isBlank isIdentifier isIdentifierPart
  isIdentifierStart)

namespace Grammar

open Rule

/-! ## What may follow -/

/-- The characters that close an expression. -/
def closers : List Char := [',', ')', ']', ':', ';']

/-- The characters that close a term. -/
def termClosers : List Char := '+' :: '-' :: closers

/-- The characters that close an operand. -/
def atomClosers : List Char := '*' :: '/' :: termClosers

/-- What closes an expression closes a term, and what closes a term closes an operand. -/
theorem closers_subset : closers ⊆ termClosers := by
  intro ch hch
  exact List.mem_cons_of_mem _ (List.mem_cons_of_mem _ hch)

theorem termClosers_subset : termClosers ⊆ atomClosers := by
  intro ch hch
  exact List.mem_cons_of_mem _ (List.mem_cons_of_mem _ hch)

/-- What the grammar makes of a text that is laid out for a phrase. -/
def Understood (limit levels : Nat) : Phrase → List Char → Prop
  | .atom e, t => ∀ ⦃c d : Cursor⦄, c.Reads t d → Apart t d.rest → BeginsIn atomClosers d.rest →
      (atom limit (inside limit levels)).run c = .ok (e, d)
  | .term e, t => ∀ ⦃c d : Cursor⦄, c.Reads t d → Apart t d.rest → BeginsIn atomClosers d.rest →
      (term limit (inside limit levels)).run c =
        chainFrom (atom limit (inside limit levels)) Operator.multiplicative? e d
  | .sum e, t => ∀ ⦃c d : Cursor⦄, c.Reads t d → Apart t d.rest → BeginsIn termClosers d.rest →
      (expression limit levels).run c =
        chainFrom (term limit (inside limit levels)) Operator.additive? e d
  | .arguments es, t => es ≠ [] → ∀ ⦃callee : String⦄ ⦃c m d : Cursor⦄, c.Reads t m →
      m.Settled → m.Takes ')' d →
      (argument callee (expression limit levels)).iterate c = .ok (es, d)

variable {limit levels : Nat} {c d m : Cursor} {e l r : Expr} {s t b b' b'' : List Char}

theorem settled_of_beginsIn (h : BeginsIn atomClosers d.rest) : d.Settled := h.avoids rfl

theorem settled_of_closers (h : BeginsIn closers d.rest) : d.Settled := h.avoids rfl

/-- Blanks and what closes an operand end every token but a run of markers. -/
theorem avoids_after {p : Char → Bool} (hp : ∀ ch, isBlank ch = true → p ch = false)
    (hclose : atomClosers.any p = false) (hb : Blanks b) (hr : c.Reads b d)
    (h : BeginsIn atomClosers d.rest) : Avoids p c.rest := by
  rw [hr.1]
  exact Avoids.blanks_append hp hb (h.avoids hclose)

/-- A term stops where no operator of its tier stands. -/
theorem chainFrom_term_closed {operand : Advancing Expr} (h : BeginsIn termClosers d.rest) :
    chainFrom operand Operator.multiplicative? e d = .ok (e, d) := by
  refine chainFrom_of_none (Option.bind_eq_none_iff.2 fun ch hch => ?_)
  have hnone := h.avoids (p := fun ch => (Operator.multiplicative? ch).isSome) rfl ch hch
  simpa using hnone

/-- An expression stops where no operator of its tier stands. -/
theorem chainFrom_sum_closed {operand : Advancing Expr} (h : BeginsIn closers d.rest) :
    chainFrom operand Operator.additive? e d = .ok (e, d) := by
  refine chainFrom_of_none (Option.bind_eq_none_iff.2 fun ch hch => ?_)
  have hnone := h.avoids (p := fun ch => (Operator.additive? ch).isSome) rfl ch hch
  simpa using hnone

/-- What closes an expression is no marker, so it may touch one. -/
theorem apart_of_closers (h : BeginsIn closers t) : Apart s t := by
  intro ch _ hch
  have hmark := h.avoids (p := fun ch => ch = '+' || ch = '-') rfl ch hch
  simpa using hmark

/-- An expression is read whole where a closing character follows it. -/
theorem Understood.run_expression (h : Understood limit levels (.sum e) t) (hr : c.Reads t d)
    (hd : BeginsIn closers d.rest) : (expression limit levels).run c = .ok (e, d) := by
  rw [h hr (apart_of_closers hd) (hd.mono closers_subset), chainFrom_sum_closed hd]

/-- A closing bracket or a comma closes the expression before it. -/
theorem beginsIn_of_reads {ch : Char} (hch : ch ∈ closers) (hr : m.Reads (ch :: b) d) :
    BeginsIn closers m.rest := by
  rw [hr.1]
  exact Text.beginsIn_cons hch

/-! ## Operands -/

theorem understood_decimal {n : Number} {ds : List Char} (hds : Radix.decimal.Digits ds)
    (hv : n.value = Radix.decimal.value ds) (hw : n.width = .unsized) (hb : Blanks b) :
    Understood limit levels (.atom (.number n)) (ds ++ b) := by
  intro c d hr _ hd
  have hc := (Layout.decimal hds hv hw hb : Layout levels _ _).settled nofun hr
  obtain ⟨m, hr, hrb⟩ := Cursor.reads_append.1 hr
  obtain ⟨ch, rest, rfl⟩ := List.exists_cons_of_ne_nil hds.1
  refine run_atom_of_decimal hc (Cursor.reads_cons.1 hr).1 (hds.2 ch List.mem_cons_self) ?_
  refine run_numeral_eq_ok.2 ⟨n, m, rfl, Token.run_decimal_eq_ok.2 ⟨_, hds, hv, hw, hr, ?_⟩,
    Cursor.skipBlank_eq_iff.2 ⟨settled_of_beginsIn hd, b, hb, hrb⟩⟩
  exact avoids_after (fun _ => Text.isDigit_of_isBlank _) rfl hb hrb hd

theorem understood_hexadecimal {n : Number} {ds : List Char} (hb : Blanks b)
    (hds : Radix.hexadecimal.Digits ds) (hv : n.value = Radix.hexadecimal.value ds)
    (hw : n.width = .ofDigitCount ds.length) (hb' : Blanks b') :
    Understood limit levels (.atom (.number n)) ('$' :: b ++ ds ++ b') := by
  intro c d hr _ hd
  have hc := (Layout.hexadecimal hb hds hv hw hb' : Layout levels _ _).settled nofun hr
  obtain ⟨m, hr, hrb⟩ := Cursor.reads_append.1 hr
  refine run_atom_of_hexadecimal hc (Cursor.reads_cons.1 hr).1 ?_
  refine run_numeral_eq_ok.2 ⟨n, m, rfl,
    Token.run_hexadecimal_eq_ok.2 ⟨b, ds, hb, hds, hv, hw, hr, ?_⟩,
    Cursor.skipBlank_eq_iff.2 ⟨settled_of_beginsIn hd, b', hb', hrb⟩⟩
  exact avoids_after (fun _ => Text.isDigit_of_isBlank _) rfl hb' hrb hd

/-- A name is read up to the blanks that follow it. -/
theorem run_lexeme_identifier {name : String} (hn : isIdentifier name.toList = true)
    (hb : Blanks b) (hr : c.Reads (name.toList ++ b) d) (hd : d.Settled)
    (ha : Avoids isIdentifierPart d.rest) :
    (lexeme Token.identifier).run c = .ok (name, d) := by
  obtain ⟨m, hr, hrb⟩ := Cursor.reads_append.1 hr
  refine run_lexeme_eq_ok.2 ⟨m, Token.run_identifier_eq_ok.2 ⟨hn, hr, ?_⟩,
    Cursor.skipBlank_eq_iff.2 ⟨hd, b, hb, hrb⟩⟩
  rw [hrb.1]
  exact Avoids.blanks_append (fun _ => Text.isIdentifierPart_of_isBlank) hb ha

theorem understood_named {name : String} (hn : isIdentifier name.toList = true) (hb : Blanks b) :
    Understood limit levels (.atom (.label (.named name))) (name.toList ++ b) := by
  intro c d hr _ hd
  have hc := (Layout.named hn hb : Layout levels _ _).settled nofun hr
  have hname := run_lexeme_identifier hn hb hr (settled_of_beginsIn hd) (hd.avoids rfl)
  have hcall : (call limit (inside limit levels)).Refuses c := by
    refine refuses_call_of_peek? hname fun hp => ?_
    exact absurd (hd _ hp) (by decide)
  obtain ⟨ch, rest, hcs, hs, -⟩ := Text.isIdentifier_iff.1 hn
  rw [hcs] at hr
  refine run_atom_of_name hc (Cursor.reads_cons.1 hr).1 hs ?_
  rw [run_choice_cons_eq_ok, run_choice_cons_eq_ok]
  exact .inr ⟨hcall, .inl (run_reference_eq_ok.2 (.inr ⟨name, rfl, hname⟩))⟩

/-- A run of markers ends at a blank, or where what follows stands apart from it. -/
theorem avoids_marker {k : Int} (hk : k ≠ 0) (hb : Blanks b) (hr : m.Reads b d)
    (ha : Apart (Label.markers k ++ b) d.rest) : Avoids (· = Label.marker k) m.rest := by
  rw [hr.1]
  cases b with
  | nil =>
    intro ch hch
    refine decide_eq_false ?_
    rintro rfl
    rw [List.append_nil] at ha
    have hne := ha _ (Label.getLast?_markers hk) hch
    exact (Label.marker_eq k).elim hne.1 hne.2
  | cons ch b =>
    refine Text.avoids_cons.2 (decide_eq_false ?_)
    rintro rfl
    have hblank := hb _ List.mem_cons_self
    rcases Label.marker_eq k with h | h <;> rw [h] at hblank <;> cases hblank

theorem understood_relative {k : Int} {hk : k ≠ 0} (hb : Blanks b) :
    Understood limit levels (.atom (.label (.relative k hk))) (Label.markers k ++ b) := by
  intro c d hr ha hd
  have hc := (Layout.relative hb : Layout levels (.atom (.label (.relative k hk))) _).settled
    nofun hr
  obtain ⟨m, hr, hrb⟩ := Cursor.reads_append.1 hr
  have hlabel : (lexeme Token.relativeLabel).run c = .ok (.relative k hk, d) := by
    refine run_lexeme_eq_ok.2 ⟨m, Token.run_relativeLabel_eq_ok.2 ⟨k, hk, rfl, hr, ?_⟩,
      Cursor.skipBlank_eq_iff.2 ⟨settled_of_beginsIn hd, b, hb, hrb⟩⟩
    exact avoids_marker hk hb hrb ha
  refine run_atom_of_marker hc ?_ (run_reference_eq_ok.2 (.inl ⟨_, rfl, hlabel⟩))
  obtain ⟨rest, hcons⟩ := Label.markers_eq_cons hk
  rw [hcons] at hr
  rw [(Cursor.reads_cons.1 hr).1, Option.some.injEq, Option.some.injEq]
  exact Label.marker_eq k

/-! ## Brackets -/

/-- A group is read at the level it opens. -/
theorem understood_group (hb : Blanks b) (h : Layout levels (.sum e) t) (hb' : Blanks b')
    (ih : Understood limit levels (.sum e) t) :
    Understood limit (levels + 1) (.atom e) ('(' :: b ++ t ++ ')' :: b') := by
  intro c d hr _ hd
  have hc := (Layout.group hb h hb').settled nofun hr
  obtain ⟨m', hr, hclose⟩ := Cursor.reads_append.1 hr
  obtain ⟨m, hopen, hr⟩ := Cursor.reads_append.1 hr
  have hm' : BeginsIn closers m'.rest := beginsIn_of_reads (by decide) hclose
  have hset : m'.Settled := settled_of_closers hm'
  refine run_atom_of_group hc (run_group_eq_ok.2 ⟨_, m, m', rfl, ?_, ih.run_expression hr hm', ?_⟩)
  · exact hc.takes_iff.2 ⟨h.settled nofun hr, b, hb, hopen⟩
  · exact hset.takes_iff.2 ⟨settled_of_beginsIn hd, b', hb', hclose⟩

/-- The last argument is followed by the parenthesis. -/
theorem understood_oneArgument (ih : Understood limit levels (.sum e) t) :
    Understood limit levels (.arguments [e]) t := by
  intro _ callee c m d hr hset hm
  have hclose : BeginsIn closers m.rest := by
    obtain ⟨-, b, -, hr'⟩ := hset.takes_iff.1 hm
    exact beginsIn_of_reads (by decide) hr'
  refine Advancing.iterate_eq_ok.2 (.inl ⟨e, rfl, run_argument_eq_ok.2 ⟨m, ?_, hm⟩⟩)
  exact ih.run_expression hr hclose

/-- Every other argument is followed by a comma and the arguments after it. -/
theorem understood_moreArguments {f : Expr} {es : List Expr} (hb : Blanks b)
    (ht : Layout levels (.arguments (f :: es)) t) (ihs : Understood limit levels (.sum e) s)
    (iht : Understood limit levels (.arguments (f :: es)) t) :
    Understood limit levels (.arguments (e :: f :: es)) (s ++ ',' :: b ++ t) := by
  intro _ callee c m d hr hset hm
  obtain ⟨m₂, hr, hrt⟩ := Cursor.reads_append.1 hr
  obtain ⟨m₁, hrs, hcomma⟩ := Cursor.reads_append.1 hr
  have hm₁ : BeginsIn closers m₁.rest := beginsIn_of_reads (by decide) hcomma
  have hset₁ : m₁.Settled := settled_of_closers hm₁
  have htakes : m₁.Takes ',' m₂ :=
    hset₁.takes_iff.2 ⟨ht.settled (by simp) hrt, b, hb, hcomma⟩
  exact Advancing.iterate_eq_ok.2 (.inr ⟨e, f :: es, m₂, rfl,
    run_argument_eq_ok.2 ⟨m₁, ihs.run_expression hrs hm₁, htakes⟩,
    iht (by simp) hrt hset hm⟩)

/-- A call is read with its arguments, if there are any. -/
theorem understood_call {name : String} {es : List Expr} (hn : isIdentifier name.toList = true)
    (hb : Blanks b) (hb' : Blanks b') (h : Layout levels (.arguments es) t) (hb'' : Blanks b'')
    (ih : Understood limit levels (.arguments es) t) :
    Understood limit (levels + 1) (.atom (.call name es))
      (name.toList ++ b ++ '(' :: b' ++ t ++ ')' :: b'') := by
  intro c d hr _ hd
  have hc := (Layout.call hn hb hb' h hb'').settled nofun hr
  obtain ⟨m₃, hr, hclose⟩ := Cursor.reads_append.1 hr
  obtain ⟨m₂, hr, hargs⟩ := Cursor.reads_append.1 hr
  obtain ⟨m₁, hname, hopen⟩ := Cursor.reads_append.1 hr
  have hset₁ : m₁.Settled := hopen.avoids rfl
  have hset₃ : m₃.Settled := hclose.avoids rfl
  have hparen : m₃.Takes ')' d := hset₃.takes_iff.2 ⟨settled_of_beginsIn hd, b'', hb'', hclose⟩
  have hname' : (lexeme Token.identifier).run c = .ok (name, m₁) :=
    run_lexeme_identifier hn hb hname hset₁ (hopen.avoids rfl)
  have hset₂ : m₂.Settled := by
    cases es with
    | nil =>
      cases h
      exact Cursor.reads_nil_iff.1 hargs ▸ hset₃
    | cons f es => exact h.settled (by simp) hargs
  have hrun : (callArguments name (expression limit levels)).run m₂ = .ok (es, d) := by
    refine (run_callArguments_eq_ok hset₂).2 ?_
    cases es with
    | nil =>
      cases h
      exact .inl ⟨rfl, Cursor.reads_nil_iff.1 hargs ▸ hparen⟩
    | cons f es =>
      refine .inr ⟨?_, ih (by simp) hargs hset₃ hparen⟩
      obtain ⟨ch, hpk, hch⟩ := h.peek? (by simp) hargs
      rw [hpk]
      rintro ⟨⟩
      cases hch
  have hcall : (call limit (inside limit (levels + 1))).run c = .ok (.call name es, d) :=
    run_call_eq_ok.2 ⟨name, es, _, m₁, m₂, rfl, hname', rfl,
      hset₁.takes_iff.2 ⟨hset₂, b', hb', hopen⟩, hrun⟩
  obtain ⟨ch, rest, hcs, hs, -⟩ := Text.isIdentifier_iff.1 hn
  rw [hcs] at hname
  refine run_atom_of_name hc (Cursor.reads_cons.1 hname).1 hs ?_
  rw [run_choice_cons_eq_ok]
  exact .inl hcall

/-! ## Chains -/

/-- One operator with the operand after it is read onto what is there. -/
theorem chainFrom_step {operand : Advancing Expr} {operator? : Char → Option Operator}
    {op : Operator} {ch : Char} (hsym : op.symbol = [ch]) (hop : operator? ch = some op)
    (hb : Blanks b) (hr : c.Reads (op.symbol ++ b) m) (hm : m.Settled)
    (h : operand.run m = .ok (r, d)) :
    chainFrom operand operator? l c = chainFrom operand operator? (.binary op l r) d := by
  rw [hsym] at hr
  obtain ⟨hpk, hr⟩ := Cursor.reads_cons.1 hr
  refine chainFrom_of_some (by rw [hpk]; exact hop) ?_
  rw [Cursor.skipBlank_eq_iff.2 ⟨hm, b, hb, hr⟩]
  exact h

/-- What follows an operator does not matter to the text before it. -/
theorem apart_of_symbol {op : Operator} {ch : Char} (hsym : op.symbol = [ch])
    (h : Apart s op.symbol) (hr : c.Reads (op.symbol ++ b) m) : Apart s c.rest := by
  rw [hr.1]
  rw [hsym] at h ⊢
  exact Text.apart_cons.1 h

theorem beginsIn_of_symbol {op : Operator} {ch : Char} {chars : List Char}
    (hsym : op.symbol = [ch]) (hch : ch ∈ chars) (hr : c.Reads (op.symbol ++ b) m) :
    BeginsIn chars c.rest := by
  rw [hr.1, hsym]
  exact Text.beginsIn_cons hch

/-- The operators of the upper tier are read as such, and close an operand. -/
theorem symbol_of_mem_product {op : Operator} (h : op ∈ [.mul, .div]) :
    ∃ ch ∈ atomClosers, op.symbol = [ch] ∧ Operator.multiplicative? ch = some op := by
  simp only [List.mem_cons, List.not_mem_nil, or_false] at h
  rcases h with rfl | rfl
  · exact ⟨'*', by decide, rfl, rfl⟩
  · exact ⟨'/', by decide, rfl, rfl⟩

/-- The operators of the lower tier are read as such, and close a term. -/
theorem symbol_of_mem_addition {op : Operator} (h : op ∈ [.add, .sub]) :
    ∃ ch ∈ termClosers, op.symbol = [ch] ∧ Operator.additive? ch = some op := by
  simp only [List.mem_cons, List.not_mem_nil, or_false] at h
  rcases h with rfl | rfl
  · exact ⟨'+', by decide, rfl, rfl⟩
  · exact ⟨'-', by decide, rfl, rfl⟩

theorem understood_product {op : Operator} (hop : op ∈ [.mul, .div]) (ha : Apart s op.symbol)
    (hb : Blanks b) (ht : Layout levels (.atom r) t) (ihs : Understood limit levels (.term l) s)
    (iht : Understood limit levels (.atom r) t) :
    Understood limit levels (.term (.binary op l r)) (s ++ op.symbol ++ b ++ t) := by
  intro c d hr hapart hd
  obtain ⟨ch, hch, hsym, hop⟩ := symbol_of_mem_product hop
  obtain ⟨m₂, hr, hrt⟩ := Cursor.reads_append.1 hr
  rw [List.append_assoc] at hr
  obtain ⟨m₁, hrs, hrop⟩ := Cursor.reads_append.1 hr
  rw [ihs hrs (apart_of_symbol hsym ha hrop) (beginsIn_of_symbol hsym hch hrop)]
  refine chainFrom_step hsym hop hb hrop (ht.settled nofun hrt) (iht hrt ?_ hd)
  exact (Text.apart_append (ht.ne_nil nofun)).1 hapart

theorem understood_addition {op : Operator} (hop : op ∈ [.add, .sub]) (ha : Apart s op.symbol)
    (hb : Blanks b) (ht : Layout levels (.term r) t) (ihs : Understood limit levels (.sum l) s)
    (iht : Understood limit levels (.term r) t) :
    Understood limit levels (.sum (.binary op l r)) (s ++ op.symbol ++ b ++ t) := by
  intro c d hr hapart hd
  obtain ⟨ch, hch, hsym, hop⟩ := symbol_of_mem_addition hop
  obtain ⟨m₂, hr, hrt⟩ := Cursor.reads_append.1 hr
  rw [List.append_assoc] at hr
  obtain ⟨m₁, hrs, hrop⟩ := Cursor.reads_append.1 hr
  have hterm : (term limit (inside limit levels)).run m₂ = .ok (r, d) := by
    rw [iht hrt ((Text.apart_append (ht.ne_nil nofun)).1 hapart) (hd.mono termClosers_subset),
      chainFrom_term_closed hd]
  rw [ihs hrs (apart_of_symbol hsym ha hrop) (beginsIn_of_symbol hsym hch hrop)]
  exact chainFrom_step hsym hop hb hrop (ht.settled nofun hrt) hterm

/-- The upper tier takes a first operand as it is. -/
theorem understood_ofAtom (ih : Understood limit levels (.atom e) t) :
    Understood limit levels (.term e) t := fun _ _ hr ha hd => run_chain_of_ok (ih hr ha hd)

/-- The lower tier takes a first term as it is. -/
theorem understood_ofTerm (ih : Understood limit levels (.term e) t) :
    Understood limit levels (.sum e) t := by
  intro c d hr ha hd
  rw [expression_eq_sum]
  refine run_chain_of_ok ?_
  rw [ih hr ha (hd.mono termClosers_subset), chainFrom_term_closed hd]

/-! ## Layouts -/

/-- The grammar makes of every layout what is laid out. -/
theorem understood_of_layout {p : Phrase} (h : Layout levels p t) :
    Understood limit levels p t := by
  induction h with
  | decimal hds hv hw hb => exact understood_decimal hds hv hw hb
  | hexadecimal hb hds hv hw hb' => exact understood_hexadecimal hb hds hv hw hb'
  | named hn hb => exact understood_named hn hb
  | relative hb => exact understood_relative hb
  | group hb h hb' ih => exact understood_group hb h hb' ih
  | call hn hb hb' h hb'' ih => exact understood_call hn hb hb' h hb'' ih
  | noArguments => exact fun h => absurd rfl h
  | oneArgument _ ih => exact understood_oneArgument ih
  | moreArguments _ hb ht ihs iht => exact understood_moreArguments hb ht ihs iht
  | ofAtom _ ih => exact understood_ofAtom ih
  | product hop _ ha hb ht ihs iht => exact understood_product hop ha hb ht ihs iht
  | ofTerm _ ih => exact understood_ofTerm ih
  | addition hop _ ha hb ht ihs iht => exact understood_addition hop ha hb ht ihs iht

/-- A layout of an expression is read whole where a closing character follows it. -/
theorem run_expression_of_layout (h : Layout levels (.sum e) t) (hr : c.Reads t d)
    (hd : BeginsIn closers d.rest) : (expression limit levels).run c = .ok (e, d) :=
  (understood_of_layout h).run_expression hr hd

end Grammar

end Asm65816
