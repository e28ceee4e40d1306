import Asm65816.Proofs.FailureReach
import Asm65816.Proofs.FatalFailures
import Asm65816.Proofs.UnambiguousStatements

/-!
# Expressions are maximal

An expression stops where nothing more of it can be read. An operator is left only where its operand
refuses, in the tier of the operator; and a name is left only where no parenthesis follows, since a
name and a parenthesis are committed to a call.

For the operators the exit of each loop is enough: a chain of the lower tier ends where its last
term ended, so what holds where terms end holds there as well. For the names, what is left of the
last name is a `Context` without open brackets, and the expression ends as one that begins with the
name does.
-/

namespace Asm65816

open Text (Blanks Avoids Apart Radix isBlank isIdentifier isIdentifierChar isIdentifierStart)

/-! ## The last word of a text -/

namespace Text

variable {s p r t name b b' : List Char}

/-- What stands before a name and after it, where the name is the last word of a text. It does not
go on a longer word, and it is not made of the digits of a hexadecimal number. -/
structure LastName (p name b : List Char) : Prop where
  isIdentifier : isIdentifier name = true
  blanks : Blanks b
  apart : ∀ ch, p.getLast? = some ch → isIdentifierChar ch = false
  unmarked : ∀ q b', Blanks b' → p ≠ q ++ '$' :: b'

/-- The last word of the text is a name. -/
def EndsInName (t : List Char) : Prop := ∃ p name b, t = p ++ name ++ b ∧ LastName p name b

theorem isIdentifierChar_of_isBlank {ch : Char} (h : isBlank ch = true) :
    isIdentifierChar ch = false := by
  rw [isIdentifierChar, isIdentifierStart_of_isBlank h, isIdentifierPart_of_isBlank h]
  rfl

theorem isBlank_of_isIdentifierChar {ch : Char} (h : isIdentifierChar ch = true) :
    isBlank ch = false := by
  refine Bool.eq_false_iff.2 fun hb => ?_
  rw [isIdentifierChar_of_isBlank hb] at h
  cases h

/-- Hexadecimal digits look like parts of a name. -/
theorem isIdentifierChar_of_isDigit {ch : Char} (h : Radix.hexadecimal.isDigit ch = true) :
    isIdentifierChar ch = true := by
  have hascii : ∀ n < 128, Radix.hexadecimal.isDigit (Char.ofNat n) = true →
      isIdentifierChar (Char.ofNat n) = true := by decide +kernel
  have hlt : ch.toNat < 128 := by
    have h9 : '9'.toNat = 57 := rfl
    have hf : 'f'.toNat = 102 := rfl
    have hF : 'F'.toNat = 70 := rfl
    simp only [Radix.isDigit, Radix.digitValue?] at h
    split at h
    · omega
    · split at h
      · omega
      · split at h
        · omega
        · cases h
  rw [← Char.ofNat_toNat ch] at h ⊢
  exact hascii _ hlt h

/-- Blanks at the end are told from what they follow. -/
theorem eq_of_append_blanks (hs : ∀ ch, s.getLast? = some ch → isBlank ch = false)
    (ht : ∀ ch, t.getLast? = some ch → isBlank ch = false) (hb : Blanks b) (hb' : Blanks b')
    (h : s ++ b = t ++ b') : s = t := by
  have havoids : ∀ {u : List Char}, (∀ ch, u.getLast? = some ch → isBlank ch = false) →
      Avoids isBlank u.reverse := by
    intro u hu ch hch
    rw [List.head?_reverse] at hch
    exact hu ch hch
  have hreverse : b.reverse ++ s.reverse = b'.reverse ++ t.reverse := by
    rw [← List.reverse_append, ← List.reverse_append, h]
  have hrun := run_unique (fun ch hch => hb ch (List.mem_reverse.1 hch))
    (fun ch hch => hb' ch (List.mem_reverse.1 hch)) (havoids hs) (havoids ht) hreverse
  exact List.reverse_injective hrun.2

namespace LastName

variable (h : LastName p name b)
include h

theorem isIdentifierChar : ∀ ch ∈ name, isIdentifierChar ch = true :=
  isIdentifierChar_of_isIdentifier h.isIdentifier

theorem ne_nil : name ≠ [] := by
  obtain ⟨ch, rest, hname, -⟩ := isIdentifier_iff.1 h.isIdentifier
  rw [hname]
  exact List.cons_ne_nil ch rest

theorem getLast?_append {ch : Char} (hch : (p ++ name).getLast? = some ch) :
    Text.isIdentifierChar ch = true := by
  rw [List.getLast?_append, List.getLast?_eq_some_getLast h.ne_nil, Option.some_or,
    Option.some.injEq] at hch
  rw [← hch]
  exact h.isIdentifierChar _ (List.getLast_mem h.ne_nil)

/-- Without the blanks after it a text ends as the name does. -/
theorem eq_append (hs : ∀ ch, s.getLast? = some ch → isBlank ch = false) (hb' : Blanks b')
    (heq : s ++ b' = p ++ name ++ b) : s = p ++ name :=
  eq_of_append_blanks hs (fun _ hch => isBlank_of_isIdentifierChar (h.getLast?_append hch)) hb'
    h.blanks heq

/-- A text that ends otherwise does not end in the name. -/
theorem false_of_getLast? {ch : Char} (hs : s.getLast? = some ch)
    (hblank : isBlank ch = false) (hch : Text.isIdentifierChar ch = false) (hb' : Blanks b')
    (heq : s ++ b' = p ++ name ++ b) : False := by
  have hsp : s = p ++ name := by
    refine h.eq_append (fun x hx => ?_) hb' heq
    rw [hs, Option.some.injEq] at hx
    rwa [← hx]
  rw [hsp] at hs
  rw [h.getLast?_append hs] at hch
  cases hch

/-- A name at the end of a text is the name at the end of its last part, if what is before that part
goes on no word. -/
theorem of_append (hr : r ≠ []) (hblank : Avoids isBlank r)
    (hs : ∀ ch, s.getLast? = some ch → Text.isIdentifierChar ch = false)
    (heq : s ++ r = p ++ name ++ b) :
    ∃ p', p = s ++ p' ∧ r = p' ++ name ++ b ∧ LastName p' name b := by
  rw [List.append_assoc] at heq
  rcases List.append_eq_append_iff.1 heq with ⟨p', rfl, hr'⟩ | ⟨q, hsq, hq⟩
  · refine ⟨p', rfl, by rw [hr', List.append_assoc], h.isIdentifier, h.blanks, ?_, ?_⟩
    · intro ch hch
      refine h.apart ch ?_
      rw [List.getLast?_append, hch, Option.some_or]
    · rintro q b' hb' rfl
      exact h.unmarked (s ++ q) b' hb' (by rw [List.append_assoc])
  · rcases List.append_eq_append_iff.1 hq with ⟨x, -, hb⟩ | ⟨x, hname, hrx⟩
    · obtain ⟨ch, rest, rfl⟩ := List.exists_cons_of_ne_nil hr
      have hch : ch ∈ b := by simp [hb]
      rw [avoids_cons, h.blanks ch hch] at hblank
      cases hblank
    · rcases List.eq_nil_or_concat q with rfl | ⟨q, ch, rfl⟩
      · rw [List.append_nil] at hsq
        rw [List.nil_append] at hname
        refine ⟨[], by rw [hsq, List.append_nil], by rw [hname, hrx]; rfl, h.isIdentifier,
          h.blanks, nofun, fun q b' _ hnil => ?_⟩
        exact absurd hnil.symm (List.append_ne_nil_of_right_ne_nil _ (List.cons_ne_nil _ _))
      · have hword := h.isIdentifierChar ch (by simp [hname])
        rw [hs ch (by simp [hsq])] at hword
        cases hword

end LastName

end Text

open Text (EndsInName LastName)

/-! ## What stands before the last name -/

namespace Grammar

open Rule

variable {limit levels : Nat} {inner : Option (Advancing Expr)} {c d m : Cursor} {e : Expr}
  {p b t name : List Char} {ph : Phrase}

/-- No word ends in an operator, nor in the blanks after one. -/
theorem isIdentifierChar_of_getLast?_operator {op : Operator} {s : List Char} {ch : Char}
    (hb : Blanks b) (hch : (s ++ op.symbol ++ b).getLast? = some ch) :
    isIdentifierChar ch = false := by
  have hsymbol : op.symbol.all (fun x => !isIdentifierChar x) = true := by cases op <;> decide
  have hne : op.symbol ++ b ≠ [] := by cases op <;> exact List.cons_ne_nil _ _
  have hmem : ch ∈ op.symbol ++ b := by
    rw [List.append_assoc, List.getLast?_append, List.getLast?_eq_some_getLast hne, Option.some_or,
      Option.some.injEq] at hch
    rw [← hch]
    exact List.getLast_mem hne
  rcases List.mem_append.1 hmem with hop | hblank
  · simpa using List.all_eq_true.1 hsymbol ch hop
  · exact Text.isIdentifierChar_of_isBlank (hb ch hblank)

/-- The last word of a hexadecimal number is made of its digits, or it comes right after its
mark. -/
theorem not_lastName_hexadecimal {b₁ ds b' : List Char} (hb₁ : Blanks b₁)
    (hds : Radix.hexadecimal.Digits ds) (hb' : Blanks b') (hname : LastName p name b) :
    '$' :: b₁ ++ ds ++ b' ≠ p ++ name ++ b := by
  intro heq
  have hlast : ∀ ch, ('$' :: b₁ ++ ds).getLast? = some ch → isBlank ch = false := by
    intro ch hch
    rw [List.getLast?_append, List.getLast?_eq_some_getLast hds.1, Option.some_or,
      Option.some.injEq] at hch
    refine Text.isBlank_of_isIdentifierChar (Text.isIdentifierChar_of_isDigit (hds.2 ch ?_))
    rw [← hch]
    exact List.getLast_mem hds.1
  have hcut := hname.eq_append hlast hb' heq
  rcases List.append_eq_append_iff.1 hcut with ⟨q, hp, hdigits⟩ | ⟨q, hp, hword⟩
  · rcases List.eq_nil_or_concat q with rfl | ⟨q, ch, rfl⟩
    · exact hname.unmarked [] b₁ hb₁ (by rw [hp, List.append_nil]; rfl)
    · have hdigit : Radix.hexadecimal.isDigit ch = true := hds.2 ch (by simp [hdigits])
      have hnot := hname.apart ch (by
        rw [hp, List.concat_eq_append, ← List.append_assoc, List.getLast?_concat])
      rw [Text.isIdentifierChar_of_isDigit hdigit] at hnot
      cases hnot
  · cases q with
    | nil => exact hname.unmarked [] b₁ hb₁ (by rw [← hp.trans (List.append_nil p)]; rfl)
    | cons ch q =>
      have hword := hname.isIdentifierChar ch (by simp [hword])
      have hmem : ch ∈ '$' :: b₁ := by simp [hp]
      rcases List.mem_cons.1 hmem with rfl | hblank
      · cases hword
      · rw [Text.isIdentifierChar_of_isBlank (hb₁ ch hblank)] at hword
        cases hword

/-- Where the last word is a name, it is the last word of the operand after the last operator. -/
theorem context_of_operator {op : Operator} {s b₁ u : List Char}
    (hop : op ∈ [.add, .sub, .mul, .div]) (hs : Layout levels (.sum e) s) (ha : Apart s op.symbol)
    (hb₁ : Blanks b₁) (hu : Layout levels ph u) (hph : ph ≠ .arguments [])
    (heq : s ++ op.symbol ++ b₁ ++ u = p ++ name ++ b) (hname : LastName p name b)
    (ih : ∀ {p'}, u = p' ++ name ++ b → LastName p' name b → Context levels 0 p') :
    Context levels 0 p := by
  obtain ⟨ch, rest, hcons, hch⟩ := hu.opens hph
  have hblank : Avoids isBlank u := by
    rw [hcons]
    exact Text.avoids_cons.2 (isBlank_of_opensExpression hch)
  obtain ⟨p', rfl, hu', hname'⟩ := hname.of_append (hu.ne_nil hph) hblank
    (fun _ => isIdentifierChar_of_getLast?_operator hb₁) heq
  rw [List.append_assoc (s ++ op.symbol)]
  exact .operator hop hs ha ((ih hu' hname').blanks hb₁)

/-- Where the last word of an expression is a name, operators with what is on their left stand
before it. -/
theorem context_of_lastName (h : Layout levels ph t) (hph : ∀ es, ph ≠ .arguments es)
    (heq : t = p ++ name ++ b) (hname : LastName p name b) : Context levels 0 p := by
  induction h generalizing p with
  | @decimal _ _ ds b' hds _ _ hb' =>
    have hlast : ∀ ch, ds.getLast? = some ch → isBlank ch = false := fun ch hch =>
      Bool.eq_false_iff.2 fun hblank => by
        have hdigit := hds.2 ch (List.mem_of_getLast? hch)
        rw [Text.isDigit_of_isBlank _ hblank] at hdigit
        cases hdigit
    obtain ⟨ch, rest, rfl, hs, -⟩ := Text.isIdentifier_iff.1 hname.isIdentifier
    have hdigit := hds.2 ch (by simp [hname.eq_append hlast hb' heq])
    rw [Text.isDigit_of_isIdentifierStart hs] at hdigit
    cases hdigit
  | hexadecimal hb₁ hds _ _ hb' => exact absurd heq (not_lastName_hexadecimal hb₁ hds hb' hname)
  | @named _ word b' hword hb' =>
    have hchars := Text.isIdentifierChar_of_isIdentifier hword
    have hlast : ∀ ch, word.toList.getLast? = some ch → isBlank ch = false := fun ch hch =>
      Text.isBlank_of_isIdentifierChar (hchars ch (List.mem_of_getLast? hch))
    have hcut := hname.eq_append hlast hb' heq
    rcases List.eq_nil_or_concat p with rfl | ⟨q, ch, rfl⟩
    · exact .here
    · have hnot := hname.apart ch (by simp)
      rw [hchars ch (by simp [hcut])] at hnot
      cases hnot
  | @relative _ k hk b' hb' =>
    exfalso
    have hlast := Label.getLast?_markers hk
    rcases Label.marker_eq k with hmarker | hmarker
    · rw [hmarker] at hlast
      exact hname.false_of_getLast? hlast rfl (by decide) hb' heq
    · rw [hmarker] at hlast
      exact hname.false_of_getLast? hlast rfl (by decide) hb' heq
  | @group _ _ b₁ u b' _ _ hb' _ =>
    exact (hname.false_of_getLast? (s := '(' :: b₁ ++ u ++ [')']) List.getLast?_concat rfl
      (by decide) hb' (by simpa using heq)).elim
  | @call _ word _ b₁ b₂ u b' _ _ _ _ hb' _ =>
    exact (hname.false_of_getLast? (s := word.toList ++ b₁ ++ '(' :: b₂ ++ u ++ [')'])
      List.getLast?_concat rfl (by decide) hb' (by simpa using heq)).elim
  | noArguments => exact absurd rfl (hph _)
  | oneArgument => exact absurd rfl (hph _)
  | moreArguments => exact absurd rfl (hph _)
  | ofAtom _ ih => exact ih nofun heq hname
  | ofTerm _ ih => exact ih nofun heq hname
  | product hop hs ha hb₁ hu _ ih =>
    have hop : _ ∈ [Operator.add, .sub, .mul, .div] := List.mem_append_right [.add, .sub] hop
    exact context_of_operator hop (.ofTerm hs) ha hb₁ hu nofun heq hname (ih nofun)
  | addition hop hs ha hb₁ hu _ ih =>
    have hop : _ ∈ [Operator.add, .sub, .mul, .div] := List.mem_append_left [.mul, .div] hop
    exact context_of_operator hop hs ha hb₁ hu nofun heq hname (ih nofun)

/-! ## Where chains end -/

section
variable {operand : Advancing Expr} {operator? : Char → Option Operator} {left : Expr}

/-- A chain stops where no operator of its tier stands, or where the operand after it refuses. -/
theorem refuses_after_chainFrom {op : Operator}
    (h : chainFrom operand operator? left c = .ok (e, d)) (hop : d.peek?.bind operator? = some op) :
    operand.Refuses (d.advance 1).skipBlank := by
  fun_induction chainFrom operand operator? left c with
  | case1 left c hnone =>
    cases h
    rw [hnone] at hop
    cases hop
  | case2 left c op' hop' right m hrun ih => exact ih h
  | case3 left c op' hop' f hrun hfatal => cases h
  | case4 left c op' hop' f hrun hfatal =>
    cases h
    exact ⟨f, hrun, Bool.eq_false_iff.2 hfatal⟩

theorem exists_run_of_chainFrom (hleft : ∃ m x, operand.run m = .ok (x, c))
    (h : chainFrom operand operator? left c = .ok (e, d)) :
    ∃ m x, operand.run m = .ok (x, d) := by
  fun_induction chainFrom operand operator? left c with
  | case1 => cases h; exact hleft
  | case2 left c op hop right m hrun ih => exact ih ⟨_, _, hrun⟩ h
  | case3 => cases h
  | case4 => cases h; exact hleft

/-- A chain ends where its last operand ended. -/
theorem exists_run_of_chain (h : (chain operand operator?).run c = .ok (e, d)) :
    ∃ m x, operand.run m = .ok (x, d) := by
  obtain ⟨left, m, hleft, hfrom⟩ := run_chain_eq_ok.1 h
  exact exists_run_of_chainFrom ⟨c, left, hleft⟩ hfrom

theorem refuses_after_chain {op : Operator} (h : (chain operand operator?).run c = .ok (e, d))
    (hop : d.peek?.bind operator? = some op) : operand.Refuses (d.advance 1).skipBlank := by
  obtain ⟨left, m, -, hfrom⟩ := run_chain_eq_ok.1 h
  exact refuses_after_chainFrom hfrom hop

end

/-! ## A name and a parenthesis -/

section
variable {α β : Type}

/-- A sequence refuses in one of its parts. -/
theorem not_refuses_bind {r : Rule α} {k : α → Rule β} (h : ¬ r.Refuses c)
    (hk : ∀ {a d}, r.run c = .ok (a, d) → ¬ (k a).Refuses d) : ¬ (r >>= k).Refuses c := by
  rintro ⟨f, hf, hfatal⟩
  rcases run_bind_eq_error.1 hf with hf | ⟨a, d, hrun, hf⟩
  · exact h ⟨f, hf, hfatal⟩
  · exact hk hrun ⟨f, hf, hfatal⟩

theorem not_refuses_iterate {step : Advancing (α × Bool)} (h : ∀ c, ¬ step.Refuses c)
    (c : Cursor) : ¬ Rule.Refuses ⟨step.iterate⟩ c := by
  rintro ⟨f, hf, hfatal⟩
  dsimp only at hf
  fun_induction Advancing.iterate step c with
  | case1 c g hrun =>
    cases hf
    exact h c ⟨f, hrun, hfatal⟩
  | case2 => cases hf
  | case3 c a m hrun g hrest ih =>
    cases hf
    exact ih hrest
  | case4 => cases hf

end

theorem not_refuses_enter {offset : Nat} : ¬ (enter limit offset inner).Refuses c := by
  rintro ⟨f, hf, hfatal⟩
  rw [fatal_of_enter_error hf] at hfatal
  cases hfatal

/-- The failure of an argument is final. -/
theorem not_refuses_argument {callee : String} {i : Advancing Expr} :
    ¬ (argument callee i).Refuses c := by
  rintro ⟨f, hf, hfatal⟩
  obtain ⟨g, -, rfl⟩ := run_within_error hf
  rw [Failure.within] at hfatal
  split at hfatal
  · next hg =>
    rw [hg] at hfatal
    cases hfatal
  · cases hfatal

theorem not_refuses_callArguments {callee : String} {i : Advancing Expr} (hc : c.Settled) :
    ¬ (callArguments callee i).Refuses c := by
  unfold callArguments
  refine not_refuses_bind (by rintro ⟨f, hf, -⟩; cases hf) fun {a d} hcursor => ?_
  cases hcursor
  split
  · next hpk =>
    have hclose : (token [')'] "')'" Failure.lexical).run c = .ok (')', (c.advance 1).skipBlank) :=
      run_token_eq_ok.2 ⟨List.mem_singleton_self _,
        Cursor.takes_iff_peek?.2 ⟨by rwa [hc.skipBlank], by rw [hc.skipBlank]⟩⟩
    refine not_refuses_bind (not_refuses_of_ok hclose) fun _ => ?_
    rintro ⟨f, hf, -⟩
    cases hf
  · exact not_refuses_iterate (fun _ => not_refuses_argument) c

/-- A name and a parenthesis are a call, or they fail for good. -/
theorem not_refuses_call {word : String} (hword : (lexeme Token.identifier).run c = .ok (word, m))
    (hpk : m.peek? = some '(') : ¬ (call limit inner).Refuses c := by
  have hset : m.Settled := avoids_of_peek? hpk rfl
  have hopen : (token ['('] "'('" Failure.lexical).run m = .ok ('(', (m.advance 1).skipBlank) :=
    run_token_eq_ok.2 ⟨List.mem_singleton_self _,
      Cursor.takes_iff_peek?.2 ⟨by rwa [hset.skipBlank], by rw [hset.skipBlank]⟩⟩
  refine not_refuses_bind (not_refuses_of_ok hword) fun {a d} hrun => ?_
  rw [hword] at hrun
  cases hrun
  rw [Refuses, run_cursor_bind, if_pos hpk]
  refine not_refuses_bind not_refuses_enter fun {i d} henter => ?_
  obtain ⟨-, rfl⟩ := run_enter_eq_ok.1 henter
  refine not_refuses_bind (not_refuses_of_ok hopen) fun {_ d} hrun => ?_
  rw [hopen] at hrun
  cases hrun
  refine not_refuses_bind (not_refuses_callArguments (m.advance 1).settled_skipBlank) fun _ => ?_
  rintro ⟨f, hf, -⟩
  cases hf

/-- Where a call does not refuse, the operand is the call. -/
theorem run_atom_of_not_refuses_call {ch : Char} (hc : c.Settled) (hpk : c.peek? = some ch)
    (hs : isIdentifierStart ch = true) (h : ¬ (call limit inner).Refuses c) :
    (atom limit inner).run c = (call limit inner).run c := by
  cases hcall : (call limit inner).run c with
  | ok x => exact run_atom_of_name hc hpk hs (run_choice_head hcall)
  | error f =>
    have haborts : (call limit inner).Aborts c f := by
      refine ⟨hcall, ?_⟩
      cases hf : f.fatal with
      | true => rfl
      | false => exact absurd ⟨f, hcall, hf⟩ h
    obtain ⟨hgroup, hdecimal, hhexadecimal⟩ := refuses_of_name limit inner hc hpk hs
    rw [run_atom_eq, hc.skipBlank]
    exact (aborts_choice_tail hgroup <| aborts_choice_tail hdecimal <|
      aborts_choice_tail hhexadecimal <| aborts_choice_head haborts).1

/-- An expression that begins with a name and a parenthesis reads on beyond the parenthesis, or
fails for good. -/
theorem lt_of_name {word : String} {ch : Char} (hc : c.Settled) (hpk : c.peek? = some ch)
    (hs : isIdentifierStart ch = true)
    (hword : (lexeme Token.identifier).run c = .ok (word, m)) (hparen : m.peek? = some '(')
    (h : (expression limit levels).run c = .ok (e, d)) : m.pos < d.pos := by
  rw [expression_eq_sum] at h
  obtain ⟨_, k₁, hterm, hsum⟩ := run_chain_eq_ok.1 h
  obtain ⟨_, k₂, hatom, hchain⟩ := run_chain_eq_ok.1 hterm
  rw [run_atom_of_not_refuses_call hc hpk hs (not_refuses_call hword hparen)] at hatom
  obtain ⟨_, _, i, _, k₃, -, hword', -, htakes, harguments⟩ := run_call_eq_ok.1 hatom
  rw [hword] at hword'
  cases hword'
  obtain ⟨used, hused⟩ := forward_callArguments _ i harguments
  obtain ⟨used₂, hused₂⟩ := forward_chainFrom _ _ _ hchain
  obtain ⟨used₁, hused₁⟩ := forward_chainFrom _ _ _ hsum
  have hopen : m.pos < k₃.pos := by
    obtain ⟨b, -, hr⟩ := htakes.2
    rw [Cursor.Settled.skipBlank (avoids_of_peek? hparen rfl)] at hr
    rw [hr.2, List.length_cons]
    omega
  have h₃ := hused.pos_le
  have h₂ := hused₂.pos_le
  have h₁ := hused₁.pos_le
  omega

/-- Before the last operand of an expression nothing decides where it ends. -/
theorem ends_of_context (hp : Context levels 0 p) (hr : c.Reads p m)
    (h : ¬ (expression limit levels).Refuses m) :
    (expression limit levels).ends c = (expression limit levels).ends m := by
  generalize hnesting : 0 = nesting at hp
  induction hp generalizing c with
  | here =>
    obtain rfl := Cursor.reads_nil_iff.1 hr
    rfl
  | @blank _ _ ch p hch hp ih =>
    obtain ⟨k, hblank, hr⟩ := Cursor.reads_append (s := [ch]).1 hr
    have hb : Blanks [ch] := fun x hx => by rwa [List.mem_singleton.1 hx]
    rw [← ih hr h hnesting, Rule.ends, Rule.ends, run_expression_of_blanks hb hblank]
  | operator hop hs ha hp ih =>
    obtain ⟨k, hrs, hr⟩ := Cursor.reads_append.1 hr
    have hk := ih hr h hnesting
    rw [ends_of_operator hop hs ha hrs fun hrefuses => h ((refuses_congr hk).1 hrefuses), hk]
  | group => cases hnesting
  | call => cases hnesting

/-- No parenthesis follows an expression that ends in a name. -/
theorem peek?_ne_of_lastName (h : (expression limit levels).run c = .ok (e, d))
    (hp : Context levels 0 p) (hname : isIdentifier name = true) (hb : Blanks b)
    (hr : c.Reads (p ++ name ++ b) d) : d.peek? ≠ some '(' := by
  intro hparen
  obtain ⟨word, rfl⟩ : ∃ word : String, word.toList = name :=
    ⟨String.ofList name, String.toList_ofList⟩
  rw [List.append_assoc] at hr
  obtain ⟨m, hrp, hrn⟩ := Cursor.reads_append.1 hr
  have hword : (lexeme Token.identifier).run m = .ok (word, d) :=
    run_lexeme_identifier hname hb hrn (avoids_of_peek? hparen rfl) (avoids_of_peek? hparen rfl)
  obtain ⟨ch, rest, hcons, hs, -⟩ := Text.isIdentifier_iff.1 hname
  rw [hcons] at hrn
  have hpk := (Cursor.reads_cons.1 hrn).1
  have hm : m.Settled := avoids_of_peek? hpk
    (Text.isBlank_of_isIdentifierChar (by simp [isIdentifierChar, hs]))
  have hrefuses : ¬ (expression limit levels).Refuses m := by
    rw [refuses_expression_iff, Refuses,
      run_atom_of_not_refuses_call hm hpk hs (not_refuses_call hword hparen)]
    exact not_refuses_call hword hparen
  have hends := ends_of_context hp hrp hrefuses
  rw [Rule.ends, Rule.ends, h] at hends
  cases hrun : (expression limit levels).run m with
  | error f =>
    rw [hrun] at hends
    cases hends
  | ok x =>
    obtain ⟨e', d'⟩ := x
    rw [hrun] at hends
    cases hends
    exact absurd (lt_of_name hm hpk hs hword hparen hrun) (Nat.lt_irrefl _)

/-- An expression is maximal. Neither a blank nor anything else that could be read with it follows
it: a term refuses after a `+` or `-` that is left, an operand after a `*` or `/`, and no
parenthesis is left after a name. -/
theorem expression_maximal (limit levels : Nat) (h : (expression limit levels).run c = .ok (e, d)) :
    d.Settled ∧
    (d.peek? = some '+' ∨ d.peek? = some '-' →
      (term limit (inside limit levels)).Refuses (d.advance 1).skipBlank) ∧
    (d.peek? = some '*' ∨ d.peek? = some '/' →
      (atom limit (inside limit levels)).Refuses (d.advance 1).skipBlank) ∧
    ∀ t, c.Reads t d → EndsInName t → d.peek? ≠ some '(' := by
  have hsum : (sum limit (inside limit levels)).run c = .ok (e, d) := by
    rwa [expression_eq_sum] at h
  obtain ⟨m, x, hterm⟩ := exists_run_of_chain hsum
  refine ⟨(faithful limit levels h).1, ?_, ?_, ?_⟩
  · rintro (hpk | hpk)
    · exact refuses_after_chain hsum (by rw [hpk]; rfl)
    · exact refuses_after_chain hsum (by rw [hpk]; rfl)
  · rintro (hpk | hpk)
    · exact refuses_after_chain hterm (by rw [hpk]; rfl)
    · exact refuses_after_chain hterm (by rw [hpk]; rfl)
  · intro t hr hname
    obtain ⟨p, name, b, rfl, hlast⟩ := hname
    obtain ⟨-, t, hrt, ht, -⟩ := faithful limit levels h
    obtain ⟨b₀, hb₀, hskip⟩ := c.exists_blanks
    have heq : b₀ ++ t = p ++ name ++ b :=
      List.append_cancel_right ((hskip.append hrt).1.symm.trans hr.1)
    have hblank : Avoids isBlank t := by
      obtain ⟨ch, rest, rfl, hch⟩ := ht.opens nofun
      exact Text.avoids_cons.2 (isBlank_of_opensExpression hch)
    obtain ⟨p', rfl, heq', hlast'⟩ := hlast.of_append (ht.ne_nil nofun) hblank
      (fun ch hch => Text.isIdentifierChar_of_isBlank (hb₀ ch (List.mem_of_getLast? hch))) heq
    have hcontext : Context levels 0 p' := context_of_lastName ht nofun heq' hlast'
    exact peek?_ne_of_lastName h (hcontext.blanks hb₀) hlast.isIdentifier hlast.blanks hr

/-- An operator of the upper tier is left after a name in the lower tier. -/
theorem expression_maximal_of_dangling :
    let text := "2*a+b *)".toList
    let e : Expr := .binary .add (.binary .mul (.number ⟨2, .unsized, by decide⟩)
      (.label (.named "a"))) (.label (.named "b"))
    let d : Cursor := ⟨6, ['*', ')']⟩
    (expression 1 1).run (.ofText text 0) = .ok (e, d) ∧
    (Cursor.ofText text 0).Reads "2*a+b ".toList d ∧ EndsInName "2*a+b ".toList ∧
    d.Settled ∧ d.peek? = some '*' ∧
    (atom 1 (inside 1 1)).Refuses (d.advance 1).skipBlank ∧ d.peek? ≠ some '(' := by
  intro text e d
  have hrun : (expression 1 1).run (.ofText text 0) = .ok (e, d) :=
    eq_ok_of_toOption (by decide +kernel)
  have hreads : (Cursor.ofText text 0).Reads "2*a+b ".toList d := ⟨rfl, rfl⟩
  have hname : EndsInName "2*a+b ".toList := by
    refine ⟨"2*a+".toList, ['b'], [' '], rfl, by decide, by decide, ?_, ?_⟩
    · rintro ch ⟨⟩
      decide
    · intro q b _ heq
      have hmem : '$' ∈ "2*a+".toList := by simp [heq]
      exact absurd hmem (by decide)
  obtain ⟨hset, -, hmul, hparen⟩ := expression_maximal 1 1 hrun
  exact ⟨hrun, hreads, hname, hset, rfl, hmul (.inl rfl), hparen _ hreads hname⟩

end Grammar

end Asm65816
