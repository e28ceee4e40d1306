import Asm65816.Proofs.DepthLimit
import Asm65816.Proofs.FatalFailures

/-!
# The nesting limit is exact

How deep an expression nests can be told from its parentheses alone: each one that opens takes a
level and each one that closes gives it back. Reading fails by nesting exactly where these levels
run out, and at the parenthesis where they do (`Text.OpensBeyond`), whatever follows.

A layout that does not fit the levels has a `Context` in it that opens all of them, with a group or
a call right after it (`Grammar.LeadsTo`). Counting over the context ends at that parenthesis, and
reading aborts there.
-/

namespace Asm65816

open Text (Blanks Avoids Apart BeginsIn Radix isIdentifier)

/-! ## Counting parentheses -/

namespace Text

variable {i j k levels : Nat} {s t : List Char} {ch : Char}

/-- The parenthesis at `k` opens one level too many, and none before it does: all levels are open
where it stands, and not all where an earlier one stands. -/
structure OpensBeyond (levels : Nat) (t : List Char) (k : Nat) : Prop where
  opens : t[k]? = some '('
  full : levels + (t.take k).count ')' ≤ (t.take k).count '('
  first : ∀ i < k, t[i]? = some '(' → (t.take i).count '(' < levels + (t.take i).count ')'

/-- Where the first parenthesis stands that opens a level when none is left. -/
def firstBeyond : Nat → List Char → Option Nat
  | _, [] => none
  | levels, ch :: t =>
    if ch = '(' then
      match levels with
      | 0 => some 0
      | levels + 1 => (firstBeyond levels t).map (· + 1)
    else if ch = ')' then (firstBeyond (levels + 1) t).map (· + 1)
    else (firstBeyond levels t).map (· + 1)

theorem firstBeyond_open_zero (t : List Char) : firstBeyond 0 ('(' :: t) = some 0 := rfl

theorem firstBeyond_open_succ (levels : Nat) (t : List Char) :
    firstBeyond (levels + 1) ('(' :: t) = (firstBeyond levels t).map (· + 1) := rfl

theorem firstBeyond_close (levels : Nat) (t : List Char) :
    firstBeyond levels (')' :: t) = (firstBeyond (levels + 1) t).map (· + 1) := rfl

theorem firstBeyond_cons (hopen : ch ≠ '(') (hclose : ch ≠ ')') :
    firstBeyond levels (ch :: t) = (firstBeyond levels t).map (· + 1) := by
  simp only [firstBeyond, if_neg hopen, if_neg hclose]

theorem opensBeyond_cons_zero : OpensBeyond levels (ch :: t) 0 ↔ ch = '(' ∧ levels = 0 := by
  refine ⟨fun h => ⟨by simpa using h.opens, by simpa using h.full⟩, ?_⟩
  rintro ⟨rfl, rfl⟩
  exact ⟨rfl, Nat.le_refl _, nofun⟩

/-- A character before takes a level or gives one back. -/
theorem opensBeyond_cons_succ (hlevel : ch = '(' → 0 < i)
    (h : i + [ch].count ')' = j + [ch].count '(') :
    OpensBeyond i (ch :: t) (k + 1) ↔ OpensBeyond j t k := by
  have hcount : ∀ (x : Char) n,
      ((ch :: t).take (n + 1)).count x = [ch].count x + (t.take n).count x := by
    intro x n
    rw [List.take_succ_cons, List.count_cons, List.count_singleton, Nat.add_comm]
  refine ⟨fun ⟨hk, hfull, hfirst⟩ => ⟨hk, ?_, fun n hn htn => ?_⟩,
    fun ⟨hk, hfull, hfirst⟩ => ⟨hk, ?_, fun n hn htn => ?_⟩⟩
  · rw [hcount, hcount] at hfull
    omega
  · have hcounts := hfirst (n + 1) (Nat.succ_lt_succ hn) htn
    rw [hcount, hcount] at hcounts
    omega
  · rw [hcount, hcount]
    omega
  · cases n with
    | zero => exact hlevel (by simpa using htn)
    | succ n =>
      have hcounts := hfirst n (Nat.lt_of_succ_lt_succ hn) htn
      rw [hcount, hcount]
      omega

theorem firstBeyond_eq_some_iff : firstBeyond levels t = some k ↔ OpensBeyond levels t k := by
  induction t generalizing levels k with
  | nil => exact ⟨nofun, fun h => by cases h.opens⟩
  | cons ch t ih =>
    have step : ∀ j, (ch = '(' → 0 < levels) → levels + [ch].count ')' = j + [ch].count '(' →
        ((firstBeyond j t).map (· + 1) = some k ↔ OpensBeyond levels (ch :: t) k) := by
      intro j hlevel hcount
      rw [Option.map_eq_some_iff]
      cases k with
      | zero =>
        refine ⟨nofun, fun h => ?_⟩
        obtain ⟨hch, rfl⟩ := opensBeyond_cons_zero.1 h
        cases hlevel hch
      | succ k => simp [ih, opensBeyond_cons_succ hlevel hcount]
    by_cases hopen : ch = '('
    · subst hopen
      cases levels with
      | zero =>
        rw [firstBeyond_open_zero, Option.some.injEq]
        refine ⟨?_, fun h => ?_⟩
        · rintro rfl
          exact opensBeyond_cons_zero.2 ⟨rfl, rfl⟩
        · cases k with
          | zero => rfl
          | succ k => cases h.first 0 (Nat.succ_pos k) rfl
      | succ levels => exact step levels (fun _ => Nat.succ_pos _) rfl
    · by_cases hclose : ch = ')'
      · subst hclose
        exact step (levels + 1) (fun h => absurd h hopen) rfl
      · rw [firstBeyond_cons hopen hclose]
        refine step levels (fun h => absurd h hopen) ?_
        simp [hopen, hclose]

/-! ### Texts that the count passes -/

/-- With `i` levels before it the text never runs out of them, and has `j` levels after it. -/
def Leaves (i : Nat) (t : List Char) (j : Nat) : Prop :=
  ∀ u, firstBeyond i (t ++ u) = (firstBeyond j u).map (· + t.length)

theorem Leaves.eq_none (h : Leaves i t j) : firstBeyond i t = none := by
  have hnil := h []
  rwa [List.append_nil] at hnil

theorem Leaves.append (hs : Leaves i s j) (ht : Leaves j t k) : Leaves i (s ++ t) k := by
  intro u
  rw [List.append_assoc, hs, ht, Option.map_map, List.length_append]
  congr 1
  funext n
  exact (Nat.add_assoc ..).trans (by rw [Nat.add_comm t.length])

theorem leaves_open (levels : Nat) : Leaves (levels + 1) ['('] levels :=
  firstBeyond_open_succ levels

theorem leaves_close (levels : Nat) : Leaves levels [')'] (levels + 1) := firstBeyond_close levels

theorem leaves_singleton (hopen : ch ≠ '(') (hclose : ch ≠ ')') : Leaves levels [ch] levels :=
  fun _ => firstBeyond_cons hopen hclose

/-- A text without parentheses leaves the levels as they are. -/
theorem leaves_of_all {p : Char → Bool} (ht : ∀ ch ∈ t, p ch = true)
    (hp : p '(' = false ∧ p ')' = false) : Leaves levels t levels := by
  induction t with
  | nil => exact fun u => Option.map_id'.symm
  | cons ch t ih =>
    have hch := ht ch List.mem_cons_self
    refine (leaves_singleton ?_ ?_).append (ih fun x hx => ht x (List.mem_cons_of_mem _ hx))
    · rintro rfl
      rw [hp.1] at hch
      cases hch
    · rintro rfl
      rw [hp.2] at hch
      cases hch

theorem leaves_of_blanks (hb : Blanks t) : Leaves levels t levels := leaves_of_all hb (by decide)

theorem Leaves.append_blanks (hs : Leaves i s j) (hb : Blanks t) : Leaves i (s ++ t) j :=
  hs.append (leaves_of_blanks hb)

theorem leaves_of_digits {r : Radix} (ht : r.Digits t) : Leaves levels t levels :=
  leaves_of_all ht.2 (by cases r <;> decide)

theorem leaves_of_isIdentifier (ht : isIdentifier t = true) : Leaves levels t levels := by
  have hnone : ∀ ch ∈ t, (!List.contains ['(', ')'] ch) = true :=
    not_contains_of_isIdentifier (by decide) (by decide) ht
  exact leaves_of_all hnone (by decide)

theorem leaves_symbol (op : Operator) : Leaves levels op.symbol levels :=
  leaves_of_all (p := op.symbol.contains) (fun _ => List.elem_eq_true_of_mem)
    (by cases op <;> decide)

end Text

open Text (Leaves OpensBeyond firstBeyond leaves_singleton leaves_open leaves_close leaves_of_blanks
  leaves_of_isIdentifier leaves_symbol)

/-- A layout never runs out of the levels it fits. -/
theorem Layout.leaves {levels : Nat} {p : Phrase} {t : List Char} (h : Layout levels p t) :
    Leaves levels t levels := by
  induction h with
  | decimal hds _ _ hb => exact (Text.leaves_of_digits hds).append_blanks hb
  | @hexadecimal levels _ _ _ _ hb hds _ _ hb' =>
    have mark : Leaves levels ['$'] levels := leaves_singleton (by decide) (by decide)
    exact ((mark.append_blanks hb).append (Text.leaves_of_digits hds)).append_blanks hb'
  | named hn hb => exact (leaves_of_isIdentifier hn).append_blanks hb
  | @relative levels k _ _ hb =>
    have markers : Leaves levels (Label.markers k) levels := by
      refine Text.leaves_of_all (p := (· == Label.marker k)) (fun ch hch => ?_) ?_
      · exact beq_iff_eq.2 (List.eq_of_mem_replicate hch)
      · rcases Label.marker_eq k with h | h <;> rw [h] <;> decide
    exact markers.append_blanks hb
  | group hb _ hb' ih =>
    exact (((leaves_open _).append_blanks hb).append ih).append ((leaves_close _).append_blanks hb')
  | @call levels name _ b _ _ _ hn hb hb' _ hb'' ih =>
    have callee : Leaves (levels + 1) (name.toList ++ b) (levels + 1) :=
      (leaves_of_isIdentifier hn).append_blanks hb
    exact ((callee.append ((leaves_open _).append_blanks hb')).append ih).append
      ((leaves_close _).append_blanks hb'')
  | noArguments => exact leaves_of_blanks Text.blanks_nil
  | @moreArguments levels _ _ _ _ _ _ _ hb _ ihs iht =>
    have comma : Leaves levels [','] levels := leaves_singleton (by decide) (by decide)
    exact (ihs.append (comma.append_blanks hb)).append iht
  | oneArgument _ ih | ofAtom _ ih | ofTerm _ ih => exact ih
  | @product _ op _ _ _ _ _ _ _ _ hb _ ihs iht | @addition _ op _ _ _ _ _ _ _ _ hb _ ihs iht =>
    exact ((ihs.append (leaves_symbol op)).append_blanks hb).append iht

namespace Grammar

open Rule

variable {limit levels n k : Nat} {c d m : Cursor} {e : Expr} {b q s t u : List Char}
  {name : String} {p : Phrase}

theorem Passed.leaves (h : Passed levels q) : Leaves levels q levels := by
  induction h with
  | nil => exact leaves_of_blanks Text.blanks_nil
  | cons hb hs _ ih =>
    have comma : Leaves levels [','] levels := leaves_singleton (by decide) (by decide)
    exact ((leaves_of_blanks hb).append hs.leaves).append (comma.append ih)

/-- A context takes a level for each bracket that it opens. -/
theorem Context.leaves {nesting : Nat} (h : Context levels nesting q) :
    Leaves levels q (levels - nesting) := by
  induction h with
  | here => exact leaves_of_blanks Text.blanks_nil
  | @blank _ _ ch p hch _ ih =>
    refine Leaves.append (s := [ch]) (leaves_of_blanks fun x hx => ?_) ih
    rwa [List.mem_singleton.1 hx]
  | @operator _ _ op _ _ _ _ hs _ _ ih => exact (hs.leaves.append (leaves_symbol op)).append ih
  | group _ ih =>
    rw [Nat.add_sub_add_right]
    exact (leaves_open _).append ih
  | @call levels _ name b _ _ hn hb hq _ ih =>
    have callee : Leaves (levels + 1) (name.toList ++ b) (levels + 1) :=
      (leaves_of_isIdentifier hn).append_blanks hb
    rw [Nat.add_sub_add_right]
    exact (callee.append ((leaves_open _).append hq.leaves)).append ih

/-! ## The parenthesis too many -/

/-- A group or a call at the start of a text, and where its parenthesis stands. -/
inductive Opening : List Char → Nat → Prop
  | group {t : List Char} : Opening ('(' :: t) 0
  | call {name : String} {b t : List Char} : isIdentifier name.toList = true → Blanks b →
      Opening (name.toList ++ b ++ '(' :: t) (name.toList ++ b).length

theorem Opening.append (h : Opening t k) (u : List Char) : Opening (t ++ u) k := by
  cases h with
  | group => exact .group
  | call hn hb =>
    rw [List.append_assoc]
    exact .call hn hb

theorem Opening.firstBeyond_eq (h : Opening t k) : firstBeyond 0 t = some k := by
  cases h with
  | group => rfl
  | call hn hb =>
    rw [(leaves_of_isIdentifier hn).append (leaves_of_blanks hb), Text.firstBeyond_open_zero]
    simp

/-- Without a level left a group or a call fails at its parenthesis. -/
theorem run_atom_of_opening (h : Opening t k) (u : List Char) :
    (atom limit none).run (.ofText (t ++ u) 0) = .error (.tooDeep limit k) := by
  have aborts_enter : ∀ {c : Cursor} {i : Nat},
      (enter limit i none).Aborts c (.tooDeep limit i) := ⟨rfl, rfl⟩
  cases h with
  | @group t =>
    have hread : (Cursor.ofText ('(' :: t ++ u) 0).Reads ['('] ⟨1, t ++ u⟩ := ⟨rfl, rfl⟩
    have hset : (Cursor.ofText ('(' :: t ++ u) 0).Settled := hread.avoids rfl
    have htoken : (token ['('] "'('" Failure.lexical).run (.ofText ('(' :: t ++ u) 0) =
        .ok ('(', Cursor.skipBlank ⟨1, t ++ u⟩) :=
      run_token_eq_ok.2 ⟨List.mem_singleton_self _, takes_skipBlank_of_reads hset hread⟩
    have hgroup : (group limit none).Aborts (.ofText ('(' :: t ++ u) 0) (.tooDeep limit 0) :=
      aborts_bind rfl (aborts_bind htoken (aborts_enter.bind _))
    exact (aborts_atom_of_group hset hgroup).1
  | @call name b t hn hb =>
    rw [List.append_assoc]
    have hread := reads_before (name.toList ++ b) ('(' :: t ++ u)
    have hname : (lexeme Token.identifier).run (.ofText (name.toList ++ b ++ ('(' :: t ++ u)) 0) =
        .ok (name, ⟨(name.toList ++ b).length, '(' :: t ++ u⟩) :=
      run_lexeme_identifier hn hb hread (Text.avoids_cons.2 rfl) (Text.avoids_cons.2 rfl)
    refine (aborts_atom_of_call hn hread (aborts_bind hname (aborts_bind rfl ?_))).1
    rw [if_pos (show Cursor.peek? ⟨_, '(' :: t ++ u⟩ = some '(' from rfl)]
    exact aborts_enter.bind _

/-- A context that opens all levels, and a group or a call after it. -/
inductive LeadsTo (levels : Nat) : List Char → Prop
  | mk {q t : List Char} {k : Nat} : Context levels levels q → Opening t k → LeadsTo levels (q ++ t)

/-- The same in an argument of a call, after complete ones. -/
inductive LeadsToArgument (levels : Nat) : List Char → Prop
  | mk {q t : List Char} : Passed levels q → LeadsTo levels t → LeadsToArgument levels (q ++ t)

theorem LeadsTo.of_opening (h : Opening t k) : LeadsTo 0 t := .mk .here h

theorem LeadsTo.after (h : LeadsTo n t)
    (hs : ∀ {q}, Context n n q → Context levels levels (s ++ q)) : LeadsTo levels (s ++ t) := by
  obtain ⟨hq, ht⟩ := h
  rw [← List.append_assoc]
  exact .mk (hs hq) ht

theorem LeadsTo.append (h : LeadsTo levels t) (u : List Char) : LeadsTo levels (t ++ u) := by
  obtain ⟨hq, ht⟩ := h
  rw [List.append_assoc]
  exact .mk hq (ht.append u)

theorem LeadsTo.operator {op : Operator} (h : LeadsTo levels t)
    (hop : op ∈ [.add, .sub, .mul, .div]) (hs : Layout levels (.sum e) s) (ha : Apart s op.symbol)
    (hb : Blanks b) : LeadsTo levels (s ++ op.symbol ++ b ++ t) := by
  refine h.after fun hq => ?_
  rw [List.append_assoc]
  exact .operator hop hs ha (hq.blanks hb)

namespace LeadsToArgument

theorem of_first (h : LeadsTo levels t) : LeadsToArgument levels t := .mk .nil h

theorem append (h : LeadsToArgument levels t) (u : List Char) :
    LeadsToArgument levels (t ++ u) := by
  obtain ⟨hq, ht⟩ := h
  rw [List.append_assoc]
  exact .mk hq (ht.append u)

theorem blanks (h : LeadsToArgument levels t) (hb : Blanks b) :
    LeadsToArgument levels (b ++ t) := by
  obtain ⟨hq, ht⟩ := h
  cases hq with
  | nil => exact of_first (ht.after fun hq => hq.blanks hb)
  | cons hb' hs hq =>
    rw [← List.append_assoc, ← List.append_assoc, ← List.append_assoc]
    exact .mk (.cons (hb.append hb') hs hq) ht

/-- The first argument is complete. -/
theorem after (h : LeadsToArgument levels t) (hs : Layout levels (.sum e) s) :
    LeadsToArgument levels (s ++ ',' :: t) := by
  obtain ⟨hq, ht⟩ := h
  rw [← List.cons_append, ← List.append_assoc]
  exact .mk (.cons Text.blanks_nil hs hq) ht

theorem call (h : LeadsToArgument levels t) (hn : isIdentifier name.toList = true)
    (hb : Blanks b) : LeadsTo (levels + 1) (name.toList ++ b ++ '(' :: t) := by
  obtain ⟨hq, ht⟩ := h
  rw [← List.cons_append, ← List.append_assoc]
  exact ht.after fun hp => .call hn hb hq hp

end LeadsToArgument

/-- Where a phrase leads that does not fit the levels. -/
def Leads (levels : Nat) : Phrase → List Char → Prop
  | .arguments _, t => LeadsToArgument levels t
  | .atom _, t | .term _, t | .sum _, t => LeadsTo levels t

/-- A layout fits the levels, or it leads to a parenthesis too many. -/
theorem layout_or_leads (h : Layout n p t) (levels : Nat) :
    Layout levels p t ∨ Leads levels p t := by
  induction h generalizing levels with
  | decimal hds hv hw hb => exact .inl (.decimal hds hv hw hb)
  | hexadecimal hb hds hv hw hb' => exact .inl (.hexadecimal hb hds hv hw hb')
  | named hn hb => exact .inl (.named hn hb)
  | relative hb => exact .inl (.relative hb)
  | @group _ _ b t b' hb _ hb' ih =>
    cases levels with
    | zero => exact .inr (.of_opening .group)
    | succ levels =>
      rcases ih levels with h | h
      · exact .inl (.group hb h hb')
      · have hopen : LeadsTo (levels + 1) ('(' :: b ++ t) :=
          LeadsTo.after h fun hq => .group (hq.blanks hb)
        exact .inr (hopen.append _)
  | @call _ name _ b b' t b'' hn hb hb' _ hb'' ih =>
    have htext : name.toList ++ b ++ '(' :: b' ++ t ++ ')' :: b'' =
        name.toList ++ b ++ '(' :: (b' ++ t) ++ ')' :: b'' := by simp
    cases levels with
    | zero =>
      rw [htext]
      exact .inr (.of_opening ((Opening.call hn hb).append _))
    | succ levels =>
      rcases ih levels with h | h
      · exact .inl (.call hn hb hb' h hb'')
      · rw [htext]
        exact .inr (((LeadsToArgument.blanks h hb').call hn hb).append _)
  | noArguments => exact .inl .noArguments
  | oneArgument _ ih =>
    rcases ih levels with h | h
    · exact .inl (.oneArgument h)
    · exact .inr (.of_first h)
  | @moreArguments _ _ _ _ s b t _ hb _ ihs iht =>
    rcases ihs levels with hs | hs
    · rcases iht levels with ht | ht
      · exact .inl (.moreArguments hs hb ht)
      · rw [List.append_assoc]
        exact .inr ((LeadsToArgument.blanks ht hb).after hs)
    · rw [List.append_assoc]
      exact .inr ((LeadsToArgument.of_first hs).append _)
  | ofAtom _ ih => exact (ih levels).imp .ofAtom id
  | ofTerm _ ih => exact (ih levels).imp .ofTerm id
  | @product _ op _ _ s b t hop _ ha hb _ ihs iht =>
    rcases ihs levels with hs | hs
    · rcases iht levels with ht | ht
      · exact .inl (.product hop hs ha hb ht)
      · exact .inr (LeadsTo.operator ht (List.mem_append_right [Operator.add, .sub] hop)
          (.ofTerm hs) ha hb)
    · rw [List.append_assoc, List.append_assoc]
      exact .inr (LeadsTo.append hs _)
  | @addition _ op _ _ s b t hop _ ha hb _ ihs iht =>
    rcases ihs levels with hs | hs
    · rcases iht levels with ht | ht
      · exact .inl (.addition hop hs ha hb ht)
      · exact .inr (LeadsTo.operator ht (List.mem_append_left [Operator.mul, .div] hop) hs ha hb)
    · rw [List.append_assoc, List.append_assoc]
      exact .inr (LeadsTo.append hs _)

/-- The count over a context that opens all levels ends at the parenthesis after it. -/
theorem firstBeyond_of_context (hq : Context levels levels q) (ht : Opening t k) :
    firstBeyond levels (q ++ t) = some (q.length + k) := by
  rw [hq.leaves, Nat.sub_self, ht.firstBeyond_eq, Option.map_some, Nat.add_comm]

/-- Before the first parenthesis too many stands a context that opens all levels. -/
theorem exists_context_of_opensBeyond (h : Layout n (.sum e) t) (hk : OpensBeyond levels t k) :
    ∃ q u i, t = q ++ u ∧ k = q.length + i ∧ Context levels levels q ∧ Opening u i := by
  rw [← Text.firstBeyond_eq_some_iff] at hk
  rcases layout_or_leads h levels with hfits | @⟨q, u, i, hq, hu⟩
  · rw [hfits.leaves.eq_none] at hk
    cases hk
  · rw [firstBeyond_of_context hq hu, Option.some.injEq] at hk
    exact ⟨q, u, i, rfl, hk.symm, hq, hu⟩

/-- A text runs out of levels when it does not fit them. -/
theorem exists_opensBeyond_iff (h : Layout n (.sum e) t) :
    (∃ k, OpensBeyond levels t k) ↔ ¬ Layout levels (.sum e) t := by
  simp only [← Text.firstBeyond_eq_some_iff]
  refine ⟨?_, fun hfits => ?_⟩
  · rintro ⟨k, hk⟩ hfits
    rw [hfits.leaves.eq_none] at hk
    cases hk
  · obtain ⟨hq, hu⟩ := (layout_or_leads h levels).resolve_left hfits
    exact ⟨_, firstBeyond_of_context hq hu⟩

/-! ## Values in brackets -/

/-- The bracket of an operand and what stands after the value, for each shape in brackets. -/
def bracketed : List (Char × String) :=
  [('(', ")"), ('[', "]"), ('(', "),y"), ('[', "],y"), ('(', ",x)"), ('(', ",s),y")]

variable {form : Char × String}

theorem opens_of_mem_bracketed (h : form ∈ bracketed) : form.1 = '(' ∨ form.1 = '[' := by
  revert form
  decide

/-- Each shape is read where the value fits one level less than the limit. -/
theorem exists_run_operand_of_layout (hform : form ∈ bracketed) (hb : Blanks b)
    (h : Layout levels (.sum e) t) (hlt : levels < limit)
    (hr : c.skipBlank.Reads (form.1 :: (b ++ t) ++ form.2.toList) d) (hd : d.rest = []) :
    ∃ o, (operand limit).run c = .ok (o, d) := by
  have hclosed := beginsIn_of_end hd
  have hset := settled_of_closers hclosed
  have hy : (indexedBy 'y').Refuses d := refuses_indexedBy_of_end hd
  have hword : Avoids Text.isIdentifierPart d.rest := hclosed.avoids rfl
  simp only [bracketed, List.mem_cons, List.not_mem_nil, or_false] at hform
  rcases hform with rfl | rfl | rfl | rfl | rfl | rfl
  · exact ⟨_, run_operand_indirect hb h hlt hr hclosed hy⟩
  · exact ⟨_, run_operand_longIndirect hb h hlt hr hd⟩
  · exact ⟨_, run_operand_indirectY hb h hlt (by decide) (by decide) hr hset hword⟩
  · exact ⟨_, run_operand_longIndirectY hb h hlt hr hset hword⟩
  · exact ⟨_, run_operand_xIndirect hb h hlt hr hset⟩
  · exact ⟨_, run_operand_stackIndirectY hb h hlt hr hset hword⟩

/-- A name before an operand begins a statement, be it the keyword or a mnemonic. -/
theorem exists_run_statement_of_operand {o : Operand} (hlimit : 1 ≤ limit)
    (hname : Token.identifier.run c = .ok (name, m)) (hcolon : Avoids ([':'].contains) m.rest)
    (hequals : Avoids (['='].contains) m.skipBlank.rest) (hdot : m.skipBlank.peek? ≠ some '.')
    (ho : (operand limit).run m = .ok (o, d)) : ∃ x, (statement limit).run c = .ok x := by
  have hinstruction : (IsOrg name.toList → (value limit).Refuses m) →
      ∃ x, (statement limit).run c = .ok x := fun hvalue =>
    ⟨_, run_statement_of_mnemonic hname hcolon hequals hvalue
      (run_sizeSuffix_eq_ok.2 (.inl ⟨rfl, rfl, hdot⟩)) ho⟩
  cases hvalue : (value limit).run m with
  | ok x =>
    obtain ⟨e, d'⟩ := x
    by_cases horg : IsOrg name.toList
    · exact ⟨_, run_choice_head (run_keyword_eq_ok.2 ⟨name, e, m, rfl, hname, horg, hvalue⟩)⟩
    · exact hinstruction fun h => absurd h horg
  | error f =>
    refine hinstruction fun _ => ⟨f, hvalue, Bool.eq_false_iff.2 fun hfatal => ?_⟩
    have haborts := (aborts_operand_of_value hlimit ⟨hvalue, hfatal⟩).1
    rw [ho] at haborts
    cases haborts

theorem exists_run_statement_of_layout (hform : form ∈ bracketed)
    (hn : isIdentifier name.toList = true) (hb : Blanks b) (h : Layout levels (.sum e) t)
    (hlt : levels < limit)
    (hr : c.Reads (name.toList ++ ' ' :: form.1 :: b ++ t ++ form.2.toList) d) (hd : d.rest = []) :
    ∃ x, (statement limit).run c.skipBlank = .ok x := by
  have htext : name.toList ++ ' ' :: form.1 :: b ++ t ++ form.2.toList =
      name.toList ++ ' ' :: (form.1 :: (b ++ t) ++ form.2.toList) := by simp
  rw [htext] at hr
  have hset : c.Settled := by
    rw [Cursor.Settled, hr.1, List.append_assoc]
    exact avoids_blank_of_isIdentifier hn _
  rw [hset.skipBlank]
  obtain ⟨m, hname, hcolon, hr⟩ := exists_run_identifier hn hr
  have hopens := opens_of_mem_bracketed hform
  have havoids : ∀ {p : Char → Bool}, p '(' = false → p '[' = false →
      ∀ t, Avoids p (form.1 :: t) := by
    intro p hparen hbracket t
    rcases hopens with h | h
    · rw [h]
      exact Text.avoids_cons.2 hparen
    · rw [h]
      exact Text.avoids_cons.2 hbracket
  have hskip := reads_of_space (havoids rfl rfl _) hr
  obtain ⟨o, ho⟩ := exists_run_operand_of_layout hform hb h hlt hskip hd
  refine exists_run_statement_of_operand (by omega) hname hcolon ?_ ?_ ho
  · rw [hskip.1]
    exact havoids rfl rfl _
  · rw [(Cursor.reads_cons.1 hskip).1]
    rcases hopens with h | h <;> rw [h] <;> decide

end Grammar

/-! ## Whole texts -/

open Grammar

section
variable {α : Type} {read : String → Except Diagnostic α} {limit levels n k : Nat}
  {before t after : List Char} {depth : Depth} {e : Expr} {name : String} {b : List Char}

/-- A text in its surroundings nests too deep exactly when it opens more than `levels` levels, and
then that is the failure at the first parenthesis that does so, whatever follows the text. -/
structure Guarded (read : String → Except Diagnostic α) (limit levels : Nat)
    (before t after : List Char) : Prop where
  tooDeep_iff : TooDeep (read (String.ofList (before ++ t ++ after))) ↔
    ∃ k, OpensBeyond levels t k
  surfaces : ∀ k, OpensBeyond levels t k → ∀ rest,
    Surfaces read before (t ++ rest) (.tooDeep limit k)

/-- Where a parenthesis stands can be told from any place before it. -/
theorem surfaces_append_iff {q text : List Char} :
    Surfaces read (before ++ q) text (.tooDeep limit k) ↔
      Surfaces read before (q ++ text) (.tooDeep limit (q.length + k : Nat)) := by
  have hoffset : (k : Int) + (before ++ q).length = (q.length + k : Nat) + before.length := by
    rw [List.length_append]
    omega
  unfold Surfaces
  rw [List.append_assoc]
  show _ = Except.error (Diagnostic.ofFailure _ (.tooDeep limit _)) ↔
    _ = Except.error (Diagnostic.ofFailure _ (.tooDeep limit _))
  rw [hoffset]

/-- It is enough that a text that fits is read, and that the parentheses after contexts surface. -/
theorem guarded_of_layout (h : Layout n (.sum e) t)
    (hfits : Layout levels (.sum e) t →
      ∃ x, read (String.ofList (before ++ t ++ after)) = .ok x)
    (hdeep : ∀ {q u k}, Context levels levels q → Opening u k → ∀ rest,
      Surfaces read (before ++ q) (u ++ rest) (.tooDeep limit k)) :
    Guarded read limit levels before t after := by
  have hsurfaces : ∀ k, OpensBeyond levels t k → ∀ rest,
      Surfaces read before (t ++ rest) (.tooDeep limit k) := by
    intro k hk rest
    obtain ⟨q, u, i, rfl, rfl, hq, hu⟩ := exists_context_of_opensBeyond h hk
    rw [List.append_assoc]
    exact surfaces_append_iff.1 (hdeep hq hu rest)
  refine ⟨⟨fun htoo => ?_, ?_⟩, hsurfaces⟩
  · refine (exists_opensBeyond_iff h).2 fun hlayout => ?_
    obtain ⟨x, hx⟩ := hfits hlayout
    exact not_tooDeep_of_ok hx htoo
  · rintro ⟨k, hk⟩
    have herror := hsurfaces k hk after
    unfold Surfaces at herror
    rw [← List.append_assoc] at herror
    exact ⟨_, herror, rfl⟩

/-- A rule that matches a text after blanks reads it. -/
theorem Rule.exists_parse_eq_ok {r : Rule α} {text : List Char} {x : α × Cursor}
    (h : r.run (Cursor.ofText text 0).skipBlank = .ok x) :
    ∃ y, Rule.parse (do skipBlank; r) (String.ofList text) = .ok y := by
  refine ⟨(x.1, String.ofList x.2.rest), Rule.parse_eq_ok.2 ⟨x.2, ?_, rfl⟩⟩
  rw [String.toList_ofList, h]

theorem Expr.guarded (hb : Blanks b) (h : Layout n (.sum e) t) :
    Guarded (Expr.parse depth) depth.levels depth.levels b t [] := by
  refine guarded_of_layout h (fun hfits => ?_) fun hq hu rest => ?_
  · obtain ⟨m, hrb, hrt⟩ := Cursor.reads_append.1 (reads_before (b ++ t) [])
    have hrun : (value depth.levels).run (Cursor.ofText (b ++ t ++ []) 0).skipBlank =
        .ok (e, ⟨(b ++ t).length, []⟩) := by
      rw [hrb.skipBlank_eq hb]
      exact run_expression_skipBlank.trans
        (run_expression_of_layout hfits hrt (Text.beginsIn_nil _))
    exact Rule.exists_parse_eq_ok hrun
  · refine Expr.surfaces_of_context rfl (hq.blanks hb) ?_
    rw [Nat.sub_self]
    exact run_atom_of_opening hu rest

theorem Statement.guarded {form : Char × String} (hform : form ∈ bracketed)
    (hn : isIdentifier name.toList = true) (hb : Blanks b) (h : Layout n (.sum e) t) :
    Guarded (Statement.parse depth) depth.levels (depth.levels - 1)
      (name.toList ++ ' ' :: form.1 :: b) t form.2.toList := by
  have hone := depth.one_le
  have hlt : depth.levels - 1 < depth.levels := by omega
  refine guarded_of_layout h (fun hfits => ?_) fun {q u k} hq hu rest => ?_
  · have hread := reads_before (name.toList ++ ' ' :: form.1 :: b ++ t ++ form.2.toList) []
    obtain ⟨x, hx⟩ := exists_run_statement_of_layout hform hn hb hfits hlt hread rfl
    rw [List.append_nil] at hx
    exact Rule.exists_parse_eq_ok hx
  · have hnone : depth.levels - (depth.levels - 1 + 1) = 0 := by omega
    have hrun :
        (atom depth.levels (inside depth.levels (depth.levels - (depth.levels - 1 + 1)))).run
          (.ofText (u ++ rest) 0) = .error (.tooDeep depth.levels k) := by
      rw [hnone]
      exact run_atom_of_opening hu rest
    obtain ⟨hparen, hbracket⟩ := Statement.surfaces_of_context_enclosed rfl hn (hq.blanks hb) hrun
    rw [List.append_assoc]
    rcases opens_of_mem_bracketed hform with hopen | hopen
    · rw [hopen]
      exact hparen
    · rw [hopen]
      exact hbracket

end

end Asm65816
