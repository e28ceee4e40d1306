import Asm65816.Proofs.FailureShape
import Asm65816.Proofs.Shapes

/-!
# How far failures reach

The hint of a failed choice is meant to name the failure that got furthest into the text
(`Failure.NamesFurthest`). It is found by going to the furthest alternative, choice by choice, and a
choice counts as far as it began, not as far as one of its alternatives got. Where no alternative is
a choice itself this makes no difference, so it makes none for expressions
(`Grammar.namesFurthest_expression`).

For the rest of the grammar it has to be known where rules fail. A rule that begins with a character
fails there or further on (`Rule.Opens`), and a group fails where the shapes of an operand do that
begin with the same parenthesis (`Grammar.GivesUp`).
-/

namespace Asm65816

/-! ## Furthest failures of a tree -/

namespace Failure

variable {f g : Failure} {fs gs : List Failure} {p : Int}

instance (f : Failure) : Decidable f.Plain := inferInstanceAs (Decidable (f.kind ≠ _))

/-- No failure of the tree that is no choice stands beyond `p`. -/
def NoneBeyond (p : Int) (f : Failure) : Prop := ∀ g ∈ f.nodes, g.Plain → g.offset ≤ p

/-- The deepest failure, in whose words the hint is, is one that got furthest. -/
def NamesFurthest (f : Failure) : Prop := f.NoneBeyond f.deepest.offset

instance (f : Failure) : Decidable f.NamesFurthest :=
  inferInstanceAs (Decidable (∀ g ∈ f.nodes, g.Plain → g.offset ≤ f.deepest.offset))

theorem Plain.deepest_eq (h : f.Plain) : f.deepest = f := by
  cases f with
  | leaf => rfl
  | exhausted => exact absurd rfl h

theorem Plain.noneBeyond_iff (h : f.Plain) : f.NoneBeyond p ↔ f.offset ≤ p := by
  cases f with
  | leaf cause offset hint =>
    refine ⟨fun hp => hp _ (mem_nodes_self _) h, fun hp g hg _ => ?_⟩
    obtain rfl : g = .leaf .. := List.mem_singleton.1 hg
    exact hp
  | exhausted => exact absurd rfl h

/-- The failure of a choice is no failure of its own. -/
theorem noneBeyond_ofAlternatives_iff {reason : Reason} {offset : Int} {hint : Option String} :
    (ofAlternatives reason offset hint fs).NoneBeyond p ↔ ∀ f ∈ fs, f.NoneBeyond p := by
  unfold NoneBeyond ofAlternatives
  rw [nodes]
  constructor
  · intro h f hf g hg
    exact h g (List.mem_cons_of_mem _ (mem_nodesOf.2 ⟨f, hf, hg⟩))
  · intro h g hg hplain
    rcases List.mem_cons.1 hg with rfl | hg
    · exact absurd rfl hplain
    · obtain ⟨f, hf, hg⟩ := mem_nodesOf.1 hg
      exact h f hf g hg hplain

theorem failures_ofAlternatives (reason : Reason) (offset : Int) (hint : Option String)
    (fs : List Failure) : (ofAlternatives reason offset hint fs).failures = fs := rfl

theorem deepest_ofAlternatives {reason : Reason} {offset : Int} {hint : Option String}
    (h : furthest? fs = some g) :
    (ofAlternatives reason offset hint fs).deepest = g.deepest :=
  deepest_exhausted h ..

theorem offset_le_of_furthest? (h : furthest? fs = some g) : ∀ f ∈ fs, f.offset ≤ g.offset := by
  induction fs generalizing g with
  | nil => nofun
  | cons f' rest ih =>
    intro f hf
    rw [furthest?] at h
    split at h
    · next hnone =>
      cases h
      obtain rfl | hf := List.mem_cons.1 hf
      · exact Int.le_refl _
      · obtain ⟨later, hlater⟩ := exists_furthest? (List.ne_nil_of_mem hf)
        rw [hnone] at hlater
        cases hlater
    · next later hlater =>
      have hle := ih hlater
      split at h
      · cases h
        obtain rfl | hf := List.mem_cons.1 hf
        · assumption
        · exact hle f hf
      · cases h
        obtain rfl | hf := List.mem_cons.1 hf
        · exact Int.le_refl _
        · have := hle f hf
          omega

/-- Of failures that got equally far the last one is taken. -/
theorem furthest?_append_cons (hbefore : ∀ f ∈ fs, f.offset ≤ g.offset)
    (hafter : ∀ f ∈ gs, f.offset < g.offset) : furthest? (fs ++ g :: gs) = some g := by
  induction fs with
  | nil =>
    rw [List.nil_append, furthest?]
    split
    · rfl
    · next later hlater =>
      have hlt := hafter later (furthest?_mem hlater)
      rw [if_neg (by omega)]
  | cons f rest ih =>
    have hrest := ih fun f hf => hbefore f (List.mem_cons_of_mem _ hf)
    rw [List.cons_append, furthest?, hrest]
    simp only [if_pos (hbefore f List.mem_cons_self)]

/-- The deepest failure got as far as the furthest alternative did. -/
theorem Proper.offset_le_deepest {last first : Int} (h : f.Proper last first) :
    f.offset ≤ f.deepest.offset := by
  induction h with
  | leaf => exact Int.le_refl _
  | @exhausted _ _ _ _ fs _ _ _ hdeepest _ hfs ih =>
    have hne : fs ≠ [] := by
      rintro rfl
      cases hdeepest
    obtain ⟨g, hg⟩ := exists_furthest? hne
    have hmem := furthest?_mem hg
    rw [deepest_exhausted hg]
    exact Int.le_trans (hfs g hmem).first_le (ih g hmem)

/-- The deepest failure got as far as each alternative did, as far as it counts. -/
theorem Proper.le_deepest_of_mem {last first : Int} (h : f.Proper last first)
    (hg : g ∈ f.failures) : g.offset ≤ f.deepest.offset := by
  cases h with
  | leaf => cases hg
  | exhausted _ _ _ _ hfs =>
    rw [failures] at hg
    obtain ⟨m, hm⟩ := exists_furthest? (List.ne_nil_of_mem hg)
    have hle := offset_le_of_furthest? hm g hg
    have hdeepest := (hfs m (furthest?_mem hm)).offset_le_deepest
    rw [deepest_exhausted hm]
    exact Int.le_trans hle hdeepest

/-- Where no alternative is a choice itself, the furthest of them is the furthest failure. -/
theorem namesFurthest_of_plain {reason : Reason} {offset : Int} {hint : Option String}
    (hne : fs ≠ []) (hplain : ∀ f ∈ fs, f.Plain) :
    (ofAlternatives reason offset hint fs).NamesFurthest := by
  obtain ⟨g, hg⟩ := exists_furthest? hne
  rw [NamesFurthest, deepest_ofAlternatives hg, (hplain g (furthest?_mem hg)).deepest_eq,
    noneBeyond_ofAlternatives_iff]
  intro f hf
  exact (hplain f hf).noneBeyond_iff.2 (offset_le_of_furthest? hg f hf)

/-- The last alternative is the furthest if none got further. -/
theorem namesFurthest_last_iff {reason : Reason} {offset : Int} {hint : Option String}
    (hplain : ∀ f ∈ fs, f.Plain) (hle : ∀ f ∈ fs, f.offset ≤ g.offset)
    (hdeepest : g.offset ≤ g.deepest.offset) :
    (ofAlternatives reason offset hint (fs ++ [g])).NamesFurthest ↔ g.NamesFurthest := by
  have hfurthest : furthest? (fs ++ [g]) = some g :=
    furthest?_append_cons hle fun f hf => absurd hf List.not_mem_nil
  rw [NamesFurthest, deepest_ofAlternatives hfurthest, noneBeyond_ofAlternatives_iff]
  constructor
  · intro h
    exact h g (List.mem_append_right _ List.mem_cons_self)
  · intro h f hf
    rcases List.mem_append.1 hf with hf | hf
    · exact (hplain f hf).noneBeyond_iff.2 (Int.le_trans (hle f hf) hdeepest)
    · obtain rfl := List.mem_singleton.1 hf
      exact h

/-- The last alternative but one is the furthest if it got further than the last, and it hides what
is beyond it in the last. -/
theorem namesFurthest_last_but_one_iff {reason : Reason} {offset : Int} {hint : Option String}
    (hplain : ∀ f ∈ fs, f.Plain) (hfplain : f.Plain) (hle : ∀ f' ∈ fs, f'.offset ≤ f.offset)
    (hlt : g.offset < f.offset) :
    (ofAlternatives reason offset hint (fs ++ [f, g])).NamesFurthest ↔ g.NoneBeyond f.offset := by
  have hfurthest : furthest? (fs ++ [f, g]) = some f := by
    refine furthest?_append_cons hle fun g' hg' => ?_
    obtain rfl := List.mem_singleton.1 hg'
    exact hlt
  rw [NamesFurthest, deepest_ofAlternatives hfurthest, hfplain.deepest_eq,
    noneBeyond_ofAlternatives_iff]
  constructor
  · intro h
    exact h g (List.mem_append_right _ (List.mem_cons_of_mem _ List.mem_cons_self))
  · intro h f' hf'
    rcases List.mem_append.1 hf' with hf' | hf'
    · exact (hplain f' hf').noneBeyond_iff.2 (hle f' hf')
    · rcases List.mem_cons.1 hf' with rfl | hf'
      · exact hfplain.noneBeyond_iff.2 (Int.le_refl _)
      · obtain rfl := List.mem_singleton.1 hf'
        exact h

theorem offset_within (reason : Reason) (committed : Bool) (f : Failure) :
    (f.within reason committed).offset = f.offset := by
  rw [within]
  split
  · rfl
  · rfl

theorem fatal_of_within {reason : Reason} {committed : Bool}
    (h : (f.within reason committed).fatal = false) : f.fatal = false := by
  rw [Bool.eq_false_iff]
  intro hf
  rw [within, if_pos hf, hf] at h
  cases h

end Failure

theorem Cursor.Takes.unique {c d e : Cursor} {ch : Char} (hd : c.Takes ch d) (he : c.Takes ch e) :
    d = e := by
  have hskip : ∀ {d}, c.Takes ch d → (c.skipBlank.advance 1).skipBlank = d := by
    rintro d ⟨hsettled, b, hb, hread⟩
    exact skipBlank_eq_iff.2 ⟨hsettled, b, hb, (reads_cons.1 hread).2⟩
  rw [← hskip hd, ← hskip he]

/-! ## How far rules fail -/

namespace Rule

variable {α β : Type} {r : Rule α} {c d : Cursor} {f : Failure} {ch : Char}

theorem bind_assoc {γ : Type} (r : Rule α) (f : α → Rule β) (g : β → Rule γ) :
    (r >>= f) >>= g = r >>= fun a => f a >>= g := by
  have hrun : ((r >>= f) >>= g).run = (r >>= fun a => f a >>= g).run := by
    funext c
    rw [run_bind, run_bind, run_bind]
    cases r.run c with
    | ok x => rfl
    | error e => rfl
  exact congrArg Rule.mk hrun

/-- What is made of a rule's answer does not fail by itself. -/
theorem run_map_error {k : α → β} (h : (do let a ← r; pure (k a) : Rule β).run c = .error f) :
    r.run c = .error f := by
  rcases run_bind_eq_error.1 h with h | ⟨_, _, -, h⟩
  · exact h
  · cases h

theorem run_lexeme_error (h : (lexeme r).run c = .error f) : r.run c = .error f := by
  rcases run_bind_eq_error.1 h with h | ⟨_, _, -, h⟩
  · exact h
  · cases h

theorem run_within_error {reason : Reason} {committed : Bool}
    (h : (r.within reason committed).run c = .error f) :
    ∃ g, r.run c = .error g ∧ f = g.within reason committed := by
  simp only [within] at h
  split at h
  · cases h
  · cases h
    exact ⟨_, ‹_›, rfl⟩

/-- A character that is missing is reported where it should stand. -/
theorem run_char_error {accepted : List Char} {what : String} {report : Reason → Int → Failure}
    (hreport : Failure.Reports report) (h : (char accepted what report).run c = .error f) :
    f.offset = c.pos ∧ ∀ ch ∈ accepted, c.peek? ≠ some ch := by
  have hoffset : ∀ reason, (report reason c.pos).offset = c.pos := by
    intro reason
    obtain ⟨cause, hcause, -⟩ := hreport reason c.pos
    rw [hcause]
    rfl
  simp only [char] at h
  split at h
  · next hnil =>
    cases h
    refine ⟨hoffset _, fun ch _ hpeek => ?_⟩
    rw [Cursor.peek?, hnil] at hpeek
    cases hpeek
  · next ch' rest hcons =>
    split at h
    · cases h
    · next hnot =>
      cases h
      refine ⟨hoffset _, fun ch hch hpeek => hnot ?_⟩
      rw [Cursor.peek?, hcons] at hpeek
      cases hpeek
      simpa using hch

theorem run_token_error {accepted : List Char} {what : String} {report : Reason → Int → Failure}
    (hreport : Failure.Reports report) (h : (token accepted what report).run c = .error f) :
    f.offset = c.skipBlank.pos ∧ ∀ ch ∈ accepted, c.skipBlank.peek? ≠ some ch := by
  rw [token, run_skipBlank_bind] at h
  exact run_char_error hreport (run_lexeme_error h)

/-- A failure of the rule that is not fatal does not stand before the place where it began. -/
def Ahead (r : Rule α) : Prop :=
  ∀ ⦃c : Cursor⦄ ⦃f : Failure⦄, r.run c = .error f → f.fatal = false → c.pos ≤ f.offset

theorem ahead_of_fails (h : ∀ first, r.Fails false first) : r.Ahead :=
  fun c _ hf _ => (h c.pos (Nat.le_refl _) hf).1.first_le

/-- The rule begins with a character after blanks. Where the character is missing the rule fails;
where it stands the rule fails only further on. -/
structure Opens (ch : Char) (r : Rule α) : Prop where
  ok : ∀ {c d a}, r.run c = .ok (a, d) →
    c.skipBlank.peek? = some ch ∧ c.skipBlank.pos < d.pos
  missing : ∀ {c f}, r.run c = .error f → f.fatal = false → c.skipBlank.peek? ≠ some ch →
    f.offset = c.skipBlank.pos
  past : ∀ {c f}, r.run c = .error f → f.fatal = false → c.skipBlank.peek? = some ch →
    c.skipBlank.pos < f.offset

theorem opens_token {what : String} {report : Reason → Int → Failure}
    (hreport : Failure.Reports report) : Opens ch (token [ch] what report) where
  ok h := by
    obtain ⟨hmem, htakes⟩ := run_token_eq_ok.1 h
    obtain rfl := List.mem_singleton.1 hmem
    obtain ⟨-, b, -, hread⟩ := id htakes
    refine ⟨htakes.peek?, ?_⟩
    rw [hread.2, List.length_cons]
    omega
  missing h _ _ := (run_token_error hreport h).1
  past h _ hpeek := absurd hpeek ((run_token_error hreport h).2 ch List.mem_cons_self)

theorem Opens.bind {k : α → Rule β} (hr : Opens ch r) (hforward : ∀ a, (k a).Forward)
    (hahead : ∀ a, (k a).Ahead) : Opens ch (r >>= k) where
  ok h := by
    obtain ⟨a, d, h, hk⟩ := run_bind_eq_ok.1 h
    obtain ⟨hpeek, hpos⟩ := hr.ok h
    obtain ⟨t, hread⟩ := hforward a hk
    exact ⟨hpeek, Nat.lt_of_lt_of_le hpos hread.pos_le⟩
  missing h hfatal hpeek := by
    rcases run_bind_eq_error.1 h with h | ⟨a, d, h, -⟩
    · exact hr.missing h hfatal hpeek
    · exact absurd (hr.ok h).1 hpeek
  past h hfatal hpeek := by
    rcases run_bind_eq_error.1 h with h | ⟨a, d, h, hk⟩
    · exact hr.past h hfatal hpeek
    · have hpos := (hr.ok h).2
      have hle := hahead a hk hfatal
      omega

theorem opens_cursor_bind {k : Cursor → Rule α} (h : ∀ c, Opens ch (k c)) :
    Opens ch (cursor >>= k) where
  ok {c _ _} hrun := (h c).ok hrun
  missing {c _} hrun := (h c).missing hrun
  past {c _} hrun := (h c).past hrun

/-- The rule fails only where it begins. -/
def FailsHere (r : Rule α) : Prop :=
  ∀ ⦃c : Cursor⦄ ⦃f : Failure⦄, r.run c = .error f → f.offset = c.pos

theorem FailsHere.lexeme (h : r.FailsHere) : (lexeme r).FailsHere :=
  fun _ _ hf => h (run_lexeme_error hf)

theorem FailsHere.map {k : α → β} (h : r.FailsHere) :
    (do let a ← r; pure (k a) : Rule β).FailsHere :=
  fun _ _ hf => h (run_map_error hf)

end Rule

namespace Token

open Rule

theorem failsHere_identifier : identifier.FailsHere := fun c f hf => by
  simp only [identifier] at hf
  split at hf
  · cases hf
    rfl
  · split at hf
    · cases hf
    · cases hf
      rfl

theorem failsHere_relativeLabel : relativeLabel.FailsHere := fun c f hf => by
  simp only [relativeLabel] at hf
  split at hf
  · cases hf
  · cases hf
  · cases hf
    rfl

theorem failsHere_decimal : decimal.FailsHere := fun c f hf => by
  simp only [decimal] at hf
  split at hf
  · cases hf
    rfl
  · split at hf
    · cases hf
    · next hnumber =>
      cases hf
      rw [number_eq_error hnumber]
      rfl

/-- A hexadecimal number fails where its dollar sign should stand, or after it. -/
theorem run_hexadecimal_error {c : Cursor} {f : Failure} (h : hexadecimal.run c = .error f)
    (hfatal : f.fatal = false) :
    (c.peek? ≠ some '$' → f.offset = c.pos) ∧ (c.peek? = some '$' → c.pos < f.offset) := by
  rw [hexadecimal, run_cursor_bind, run_bind_eq_error] at h
  rcases h with h | ⟨_, d, hdollar, h⟩
  · obtain ⟨hoffset, hmissing⟩ := run_char_error Failure.reports_lexical h
    exact ⟨fun _ => hoffset, fun hpeek => absurd hpeek (hmissing '$' List.mem_cons_self)⟩
  · obtain ⟨hmem, hread⟩ := run_char_eq_ok.1 hdollar
    obtain rfl := List.mem_singleton.1 hmem
    refine ⟨fun hpeek => absurd (Cursor.reads_cons.1 hread).1 hpeek, fun _ => ?_⟩
    have hskip := d.reads_skipBlank.pos_le
    have hpos : c.pos < d.pos := by
      rw [hread.2]
      exact Nat.lt_succ_self _
    rw [run_skipBlank_bind] at h
    simp only [hexadecimalDigits] at h
    split at h
    · cases h
      show (c.pos : Int) < d.skipBlank.pos
      omega
    · split at h
      · cases h
      · next hnumber =>
        cases h
        rw [number_eq_error hnumber] at hfatal
        cases hfatal

end Token

namespace Grammar

open Rule

variable {limit levels : Nat} {c d : Cursor} {f : Failure}

/-! ## Expressions -/

theorem failsHere_reference : reference.FailsHere := fun c f hf => by
  rw [reference, run_cursor_bind] at hf
  split at hf
  · exact Token.failsHere_relativeLabel.lexeme.map hf
  · exact Token.failsHere_identifier.lexeme.map hf

/-- A call is refused at its name only where a label is refused as well. -/
theorem offset_of_call_error {inner : Option (Advancing Expr)} {g : Failure}
    (h : (call limit inner).run c = .error f) (hreference : reference.run c = .error g) :
    f.offset = c.pos := by
  rcases run_bind_eq_error.1 h with h | ⟨name, d, hname, -⟩
  · exact Token.failsHere_identifier.lexeme h
  · rw [run_reference_eq_ok.2 (.inr ⟨name, rfl, hname⟩)] at hreference
    cases hreference

theorem run_chain_error {operand : Advancing Expr} {operator? : Char → Option Operator}
    (h : (chain operand operator?).run c = .error f) (hfatal : f.fatal = false) :
    operand.run c = .error f := by
  rcases run_bind_eq_error.1 h with h | ⟨_, _, -, h⟩
  · exact h
  · rw [fatal_of_chainFrom_error h] at hfatal
    cases hfatal

/-- An expression that fails, but not fatally, has none of the five forms. They fail where the
expression should begin, but for a group whose parenthesis stands there and for a hexadecimal number
whose dollar sign does. -/
theorem run_expression_error (h : (expression limit levels).run c = .error f)
    (hfatal : f.fatal = false) :
    ∃ fg fd fh fc fr,
      f = .ofAlternatives (.expected "expression") c.skipBlank.pos none [fg, fd, fh, fc, fr] ∧
      (∀ g ∈ [fg, fd, fh, fc, fr], g.Plain) ∧
      ((group limit (inside limit levels)).run c.skipBlank = .error fg ∧ fg.fatal = false) ∧
      (c.skipBlank.peek? ≠ some '$' → fh.offset = c.skipBlank.pos) ∧
      (c.skipBlank.peek? = some '$' → c.skipBlank.pos < fh.offset) ∧
      ∀ g ∈ [fd, fc, fr], g.offset = c.skipBlank.pos := by
  rw [expression_eq_sum] at h
  have h := run_chain_error (run_chain_error h hfatal) hfatal
  rw [run_atom_eq] at h
  rcases run_choice_error h with ⟨hfatal', -⟩ | ⟨fs, rfl, hfs⟩
  · rw [hfatal] at hfatal'
    cases hfatal'
  · rcases hfs with _ | ⟨hg, _ | ⟨hd, _ | ⟨hh, _ | ⟨hc, _ | ⟨hr, _ | _⟩⟩⟩⟩⟩
    have hhex : Token.hexadecimal.run c.skipBlank = .error _ :=
      run_lexeme_error (run_map_error hh.1)
    obtain ⟨hmissing, hpast⟩ := Token.run_hexadecimal_error hhex hh.2
    refine ⟨_, _, _, _, _, rfl, ?_, hg, hmissing, hpast, ?_⟩
    · have hplain : ∀ {r : Rule Expr} {g}, (r.Fails true c.skipBlank.pos) →
          r.run c.skipBlank = .error g → g.Plain := fun hr hrun => (hr (Nat.le_refl _) hrun).2 rfl
      simp only [List.mem_cons, List.not_mem_nil, or_false, forall_eq_or_imp, forall_eq]
      exact ⟨hplain (fails_group fails_inside) hg.1,
        hplain (fails_numeral Token.fails_decimal Token.advances_decimal) hd.1,
        hplain (fails_numeral Token.fails_hexadecimal Token.advances_hexadecimal) hh.1,
        hplain (fails_call fails_inside) hc.1, hplain fails_reference hr.1⟩
    · simp only [List.mem_cons, List.not_mem_nil, or_false, forall_eq_or_imp, forall_eq]
      exact ⟨Token.failsHere_decimal.lexeme.map hd.1, offset_of_call_error hc.1 hr.1,
        failsHere_reference hr.1⟩

section
variable (h : (expression limit levels).run c = .error f) (hfatal : f.fatal = false)
include h hfatal

theorem namesFurthest_expression : f.NamesFurthest := by
  obtain ⟨fg, fd, fh, fc, fr, rfl, hplain, -⟩ := run_expression_error h hfatal
  exact Failure.namesFurthest_of_plain (List.cons_ne_nil _ _) hplain

/-- An expression counts as far as it begins. -/
theorem offset_of_expression_error : f.offset = c.skipBlank.pos := by
  obtain ⟨_, _, _, _, _, rfl, -⟩ := run_expression_error h hfatal
  rfl

/-- Digits that are missing after a dollar sign are missing beyond it. -/
theorem not_noneBeyond_of_dollar (hpeek : c.skipBlank.peek? = some '$') :
    ¬ f.NoneBeyond c.skipBlank.pos := by
  obtain ⟨fg, fd, fh, fc, fr, rfl, hplain, -, -, hpast, -⟩ := run_expression_error h hfatal
  intro hnone
  have hmem : fh ∈ [fg, fd, fh, fc, fr] := by simp
  have hnone := Failure.noneBeyond_ofAlternatives_iff.1 hnone fh hmem
  have hle := (hplain fh hmem).noneBeyond_iff.1 hnone
  have hlt := hpast hpeek
  omega

end

/-! ## Parentheses

A group and the shapes in parentheses give up at the same place, so the failure of the group is not
beyond those of the shapes.
-/

theorem fatal_of_enter_error {offset : Nat} {inner : Option (Advancing Expr)}
    (h : (enter limit offset inner).run c = .error f) : f.fatal = true := by
  cases inner with
  | none =>
    cases h
    rfl
  | some i => cases h

/-- Where an expression in parentheses is given up: at the parenthesis, in the expression, or where
the other parenthesis should stand. -/
inductive GivesUp (limit : Nat) (c : Cursor) : Int → Prop
  | opening : c.skipBlank.peek? ≠ some '(' → GivesUp limit c c.skipBlank.pos
  | inner {i : Advancing Expr} {m : Cursor} {v : Failure} : inside limit limit = some i →
      c.Takes '(' m → i.run m = .error v → GivesUp limit c v.offset
  | closing {i : Advancing Expr} {m d : Cursor} {e : Expr} : inside limit limit = some i →
      c.Takes '(' m → i.run m = .ok (e, d) → GivesUp limit c d.skipBlank.pos

theorem GivesUp.unique {p q : Int} (hp : GivesUp limit c p) (hq : GivesUp limit c q) : p = q := by
  cases hp with
  | opening hp =>
    cases hq with
    | opening => rfl
    | inner _ htakes | closing _ htakes => exact absurd htakes.peek? hp
  | inner hi htakes hrun =>
    cases hq with
    | opening hq => exact absurd htakes.peek? hq
    | inner hi' htakes' hrun' =>
      cases hi.symm.trans hi'
      cases htakes.unique htakes'
      cases hrun.symm.trans hrun'
      rfl
    | closing hi' htakes' hrun' =>
      cases hi.symm.trans hi'
      cases htakes.unique htakes'
      cases hrun.symm.trans hrun'
  | closing hi htakes hrun =>
    cases hq with
    | opening hq => exact absurd htakes.peek? hq
    | inner hi' htakes' hrun' =>
      cases hi.symm.trans hi'
      cases htakes.unique htakes'
      cases hrun.symm.trans hrun'
    | closing hi' htakes' hrun' =>
      cases hi.symm.trans hi'
      cases htakes.unique htakes'
      cases hrun.symm.trans hrun'
      rfl

/-- After the expression only the other parenthesis can be missing. -/
theorem givesUp_of_error {what : String} {reason : Reason} {offset : Nat}
    (h : (do
      let _ ← token ['('] what Failure.lexical
      let inner ← enter limit offset (inside limit limit)
      let e ← inner.within reason false
      let _ ← token [')'] "')'" Failure.mismatch
      pure e : Rule Expr).run c = .error f)
    (hfatal : f.fatal = false) : GivesUp limit c f.offset := by
  rcases run_bind_eq_error.1 h with h | ⟨_, m, hopen, h⟩
  · obtain ⟨hoffset, hmissing⟩ := run_token_error Failure.reports_lexical h
    rw [hoffset]
    exact .opening (hmissing '(' List.mem_cons_self)
  · obtain ⟨hmem, htakes⟩ := run_token_eq_ok.1 hopen
    obtain rfl := List.mem_singleton.1 hmem
    rcases run_bind_eq_error.1 h with h | ⟨i, m', henter, h⟩
    · rw [fatal_of_enter_error h] at hfatal
      cases hfatal
    · obtain ⟨hinside, rfl⟩ := run_enter_eq_ok.1 henter
      rcases run_bind_eq_error.1 h with h | ⟨e, d, hrun, h⟩
      · obtain ⟨v, hv, rfl⟩ := run_within_error h
        rw [Failure.offset_within]
        exact .inner hinside htakes hv
      · rcases run_bind_eq_error.1 h with h | ⟨_, _, -, h⟩
        · rw [(run_token_error Failure.reports_mismatch h).1]
          exact .closing hinside htakes (run_within_eq_ok.1 hrun)
        · cases h

theorem givesUp_of_group (h : (group limit (inside limit limit)).run c.skipBlank = .error f)
    (hfatal : f.fatal = false) : GivesUp limit c f.offset := by
  have hup := givesUp_of_error h hfatal
  generalize f.offset = p at hup
  cases hup with
  | opening hpeek =>
    rw [c.settled_skipBlank.skipBlank] at hpeek ⊢
    exact .opening hpeek
  | inner hi htakes hrun => exact .inner hi (Cursor.takes_skipBlank.1 htakes) hrun
  | closing hi htakes hrun => exact .closing hi (Cursor.takes_skipBlank.1 htakes) hrun

theorem givesUp_of_enclosed (h : (enclosed limit '(' ')').run c = .error f)
    (hfatal : f.fatal = false) : GivesUp limit c f.offset := by
  rw [enclosed, opened] at h
  simp only [Rule.bind_assoc] at h
  exact givesUp_of_error h hfatal

/-- A group and the first shape in parentheses fail at the same place. -/
theorem offset_indirectY_eq {fg : Failure}
    (hgroup : (group limit (inside limit limit)).run c.skipBlank = .error fg)
    (hfg : fg.fatal = false) (h : (indirectY limit).run c = .error f) (hf : f.fatal = false) :
    f.offset = fg.offset := by
  rcases run_bind_eq_error.1 h with h | ⟨e, d, hok, -⟩
  · exact (givesUp_of_enclosed h hf).unique (givesUp_of_group hgroup hfg)
  · obtain ⟨m', hopen, hclose⟩ := run_enclosed_eq_ok.1 hok
    obtain ⟨i, m, hi, htakes, hrun⟩ := run_opened_eq_ok.1 hopen
    have hgroup' : (group limit (inside limit limit)).run c.skipBlank = .ok (e, d) :=
      run_group_eq_ok.2 ⟨i, m, m', hi, Cursor.takes_skipBlank.2 htakes, hrun, hclose⟩
    rw [hgroup] at hgroup'
    cases hgroup'

/-- The failure of an operand's value got no further than that of a shape in parentheses, unless
digits are missing after a dollar sign. -/
theorem noneBeyond_of_value {v : Failure} {p : Int} (hv : (value limit).run c = .error v)
    (hvf : v.fatal = false) (h : (indirectY limit).run c = .error f) (hf : f.fatal = false)
    (hpeek : c.skipBlank.peek? ≠ some '$') (hp : c.skipBlank.pos ≤ p) (hfp : f.offset ≤ p) :
    v.NoneBeyond p := by
  obtain ⟨fg, fd, fh, fc, fr, rfl, hplain, ⟨hgroup, hfg⟩, hmissing, -, hhere⟩ :=
    run_expression_error hv hvf
  have hg := offset_indirectY_eq hgroup hfg h hf
  have hh := hmissing hpeek
  simp only [List.mem_cons, List.not_mem_nil, or_false, forall_eq_or_imp, forall_eq] at hhere
  obtain ⟨hd, hc, hr⟩ := hhere
  rw [Failure.noneBeyond_ofAlternatives_iff]
  intro g hgmem
  rw [(hplain g hgmem).noneBeyond_iff]
  simp only [List.mem_cons, List.not_mem_nil, or_false] at hgmem
  rcases hgmem with rfl | rfl | rfl | rfl | rfl
  all_goals omega

end Grammar

end Asm65816
