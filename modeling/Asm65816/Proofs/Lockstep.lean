import Asm65816.Proofs.Alignment
import Asm65816.Proofs.FailureTree
import Asm65816.Proofs.Tokens
import Mathlib.Data.List.Forall2

/-!
# Rules in step

A `Lockstep` compares two readings. Over an alignment of their cursors it tells which failures
belong together, and which failures of the first reading excuse the second from following it. Two
rules keep in step (`Lockstep.Similar`) if from cursors that belong together both match with the
same value, to cursors that belong together again, or both fail, with failures that do.

The laws of a lockstep are those that the rules need: failures that belong together are fatal
together, and they stay together when a rule tells them in its own words or a choice collects them.
There is one lemma here for each way to build a rule out of others, and one for each token; the
grammar as a whole is then in step with itself under any lockstep.

Two locksteps are defined here: that of a text and the same text further on, in which failures are
moved along (`Lockstep.further`), and one that keeps only the kind of a failure
(`Lockstep.sameKind`).
-/

namespace Asm65816

open Text (Radix isIdentifierPart isIdentifierStart)

/-- How two readings are compared. -/
structure Lockstep extends Alignment where
  /-- The failures that belong together. -/
  failure : Failure → Failure → Prop
  /-- A failure of the first reading after which the second may go any way. -/
  excused : Failure → Prop
  fatal_of_excused : ∀ {f}, excused f → f.fatal = true
  fatal_eq : ∀ {f f'}, failure f f' → f'.fatal = f.fatal
  /-- Failures of one kind that are found at the same place. They may differ in what they tell about
  the text there, and only where the texts differ. -/
  leaf : ∀ {c c' : Cursor} {cause cause' : Cause} (hint : Option String),
    toAlignment.Near c c' → cause'.kind = cause.kind → cause'.fatal = cause.fatal →
    (c'.rest = c.rest → cause' = cause) →
    failure (.leaf cause c.pos hint) (.leaf cause' c'.pos hint)
  within : ∀ {f f' : Failure} (reason : Reason) (committed : Bool), failure f f' →
    failure (.leaf (.mismatch reason committed) f.offset (some f.message))
      (.leaf (.mismatch reason committed) f'.offset (some f'.message))
  alternatives : ∀ {c c' : Cursor} {fs fs' : List Failure} (reason : Reason),
    toAlignment.Near c c' → List.Forall₂ failure fs fs' →
    failure (.ofAlternatives reason c.pos none fs) (.ofAlternatives reason c'.pos none fs')

namespace Lockstep

/-- The outcomes of two rules belong together; `near` tells which cursors do. -/
inductive Agree (σ : Lockstep) (near : Cursor → Cursor → Prop) {α : Type} :
    Except Failure (α × Cursor) → Except Failure (α × Cursor) → Prop
  | ok {a : α} {d d' : Cursor} : near d d' → Agree σ near (.ok (a, d)) (.ok (a, d'))
  | error {f f' : Failure} : σ.failure f f' → Agree σ near (.error f) (.error f')
  | excused {f : Failure} {x : Except Failure (α × Cursor)} : σ.excused f →
      Agree σ near (.error f) x

/-- Two rules keep in step. -/
def Similar (σ : Lockstep) {α : Type} (r r' : Rule α) : Prop :=
  ∀ ⦃c c' : Cursor⦄, σ.Near c c' → σ.Agree σ.Near (r.run c) (r'.run c')

/-- Two rules keep in step and end at the same place, since they skip no blanks at their end. -/
def Tight (σ : Lockstep) {α : Type} (r r' : Rule α) : Prop :=
  ∀ ⦃c c' : Cursor⦄, σ.Near c c' → σ.Agree σ.Exact (r.run c) (r'.run c')

variable {σ : Lockstep} {α β : Type} {c c' : Cursor} {near near' : Cursor → Cursor → Prop}

theorem Agree.mono {x x' : Except Failure (α × Cursor)} (h : σ.Agree near x x')
    (hn : ∀ d d', near d d' → near' d d') : σ.Agree near' x x' := by
  cases h with
  | ok hd => exact .ok (hn _ _ hd)
  | error hf => exact .error hf
  | excused hf => exact .excused hf

/-- The second reading follows a match. -/
theorem Agree.of_ok {x' : Except Failure (α × Cursor)} {a : α} {d : Cursor}
    (h : σ.Agree near (.ok (a, d)) x') : ∃ d', x' = .ok (a, d') ∧ near d d' := by
  cases h with
  | ok hd => exact ⟨_, rfl, hd⟩

/-- The second reading follows a failure, unless it is excused. -/
theorem Agree.of_error {x' : Except Failure (α × Cursor)} {f : Failure}
    (h : σ.Agree near (.error f) x') : σ.excused f ∨ ∃ f', x' = .error f' ∧ σ.failure f f' := by
  cases h with
  | error hf => exact .inr ⟨_, rfl, hf⟩
  | excused hf => exact .inl hf

theorem Tight.similar {r r' : Rule α} (h : σ.Tight r r') : σ.Similar r r' := fun _ _ hc =>
  (h hc).mono fun _ _ => .inl

/-! ## Failures at one place -/

/-- The same cause at the same place. -/
theorem failure_leaf (h : σ.Near c c') (cause : Cause) (hint : Option String) :
    σ.failure (.leaf cause c.pos hint) (.leaf cause c'.pos hint) :=
  σ.leaf hint h rfl rfl fun _ => rfl

/-- What is missing is told together with what stands there instead. -/
def Reports (σ : Lockstep) (report : Reason → Int → Failure) : Prop :=
  ∀ (what : String) ⦃c c' : Cursor⦄, σ.Near c c' →
    σ.failure (report (.missing what c.peek?) c.pos) (report (.missing what c'.peek?) c'.pos)

theorem reports_lexical (σ : Lockstep) : σ.Reports Failure.lexical := fun what c c' h =>
  σ.leaf none h rfl rfl fun hrest => by rw [Cursor.peek?, Cursor.peek?, hrest]

theorem reports_mismatch (σ : Lockstep) : σ.Reports Failure.mismatch := fun what c c' h =>
  σ.leaf none h rfl rfl fun hrest => by rw [Cursor.peek?, Cursor.peek?, hrest]

/-! ## Sequences -/

theorem Agree.bind {r r' : Rule α} {g g' : α → Rule β} (h : σ.Agree near (r.run c) (r'.run c'))
    (hg : ∀ a d d', r.run c = .ok (a, d) → near d d' →
      σ.Agree near' ((g a).run d) ((g' a).run d')) :
    σ.Agree near' ((r >>= g).run c) ((r' >>= g').run c') := by
  rw [Rule.run_bind, Rule.run_bind]
  generalize r.run c = x, r'.run c' = x' at h hg
  cases h with
  | ok hd => exact hg _ _ _ rfl hd
  | error hf => exact .error hf
  | excused hf => exact .excused hf

theorem Similar.bind {r r' : Rule α} {g g' : α → Rule β} (h : σ.Similar r r')
    (hg : ∀ a, σ.Similar (g a) (g' a)) : σ.Similar (r >>= g) (r' >>= g') := fun _ _ hc =>
  (h hc).bind fun a _ _ _ hd => hg a hd

theorem similar_pure (a : α) : σ.Similar (pure a) (pure a) := fun _ _ hc => .ok hc

theorem similar_skipBlank : σ.Similar Rule.skipBlank Rule.skipBlank := fun _ _ hc =>
  .ok hc.skipBlank.1

theorem Similar.lexeme {r r' : Rule α} (h : σ.Similar r r') :
    σ.Similar (Rule.lexeme r) (Rule.lexeme r') :=
  h.bind fun a => similar_skipBlank.bind fun _ => similar_pure a

/-- A rule that first looks where it is. -/
theorem similar_cursor_bind {g g' : Cursor → Rule α}
    (h : ∀ c c', σ.Near c c' → σ.Agree σ.Near ((g c).run c) ((g' c').run c')) :
    σ.Similar (Rule.cursor >>= g) (Rule.cursor >>= g') := fun c c' hc => by
  rw [Rule.run_cursor_bind, Rule.run_cursor_bind]
  exact h c c' hc

theorem Similar.within {r r' : Rule α} (h : σ.Similar r r') (reason : Reason) (committed : Bool) :
    σ.Similar (r.within reason committed) (r'.within reason committed) := fun c c' hc => by
  have hrun := h hc
  unfold Rule.within
  dsimp only
  generalize r.run c = x, r'.run c' = x' at hrun
  cases hrun with
  | ok hd => exact .ok hd
  | error hf =>
    refine .error ?_
    unfold Failure.within
    rw [σ.fatal_eq hf]
    split
    · exact hf
    · exact σ.within reason committed hf
  | excused hf =>
    refine .excused ?_
    unfold Failure.within
    rwa [if_pos (σ.fatal_of_excused hf)]

/-! ## Characters -/

/-- A character is taken in both readings or in none, if none of those that are accepted stands
where the first text has ended. -/
theorem agree_char {accepted : List Char} {what : String} {report : Reason → Int → Failure}
    (hreport : σ.Reports report) (hc : σ.Near c c')
    (hends : ∀ ch rest', c.rest = [] → c'.rest = ch :: rest' → accepted.contains ch = false) :
    σ.Agree σ.Exact ((Rule.char accepted what report).run c)
      ((Rule.char accepted what report).run c') := by
  have hfail := hreport what hc
  rw [Cursor.peek?, Cursor.peek?] at hfail
  simp only [Rule.char]
  cases hrest : c.rest with
  | cons ch rest =>
    rw [(hc.exact (by simp [hrest])).2, hrest] at hfail ⊢
    simp only [List.cons_append]
    split
    · exact .ok (hc.advance (Cursor.peek?_eq_some.2 ⟨rest, hrest⟩))
    · exact .error hfail
  | nil =>
    cases hrest' : c'.rest with
    | nil =>
      rw [hrest, hrest'] at hfail
      exact .error hfail
    | cons ch rest' =>
      rw [hrest, hrest'] at hfail
      simp only [hends ch rest' hrest hrest']
      exact .error hfail

theorem tight_char {accepted : List Char} {what : String} {report : Reason → Int → Failure}
    (hends : σ.Ends accepted.contains) (hreport : σ.Reports report) :
    σ.Tight (Rule.char accepted what report) (Rule.char accepted what report) := fun _ _ hc =>
  agree_char hreport hc fun _ _ hrest hrest' => hc.eq_false_of_nil hends hrest hrest'

theorem similar_token {accepted : List Char} {what : String} {report : Reason → Int → Failure}
    (hends : σ.Ends accepted.contains) (hreport : σ.Reports report) :
    σ.Similar (Rule.token accepted what report) (Rule.token accepted what report) :=
  similar_skipBlank.bind fun _ => (tight_char hends hreport).similar.lexeme

/-! ## Choices -/

/-- What came of trying alternatives belongs together. -/
inductive AgreeAttempt (σ : Lockstep) : Rule.Attempt α → Rule.Attempt α → Prop
  | decided {x x' : Except Failure (α × Cursor)} : σ.Agree σ.Near x x' →
      AgreeAttempt σ (.decided x) (.decided x')
  | excused {f : Failure} {x : Rule.Attempt α} : σ.excused f →
      AgreeAttempt σ (.decided (.error f)) x
  | failed {fs fs' : List Failure} : List.Forall₂ σ.failure fs fs' →
      AgreeAttempt σ (.failed fs) (.failed fs')

/-- The alternatives of two choices, tried from the same place, keep in step. -/
theorem agreeAttempt_tryEach {rs rs' : List (Rule α)}
    (h : List.Forall₂ (fun r r' => σ.Agree σ.Near (r.run c) (r'.run c')) rs rs') :
    σ.AgreeAttempt (Rule.tryEach rs c) (Rule.tryEach rs' c') := by
  induction h with
  | nil => exact .failed .nil
  | @cons r r' rs rs' hr _ ih =>
    rw [Rule.tryEach, Rule.tryEach]
    generalize r.run c = x, r'.run c' = x' at hr
    cases hr with
    | ok hd => exact .decided (.ok hd)
    | excused hf =>
      simp only [σ.fatal_of_excused hf]
      exact .excused hf
    | @error f f' hf =>
      simp only [σ.fatal_eq hf]
      split
      · exact .decided (.error hf)
      · generalize Rule.tryEach rs c = y, Rule.tryEach rs' c' = y' at ih
        cases ih with
        | decided hx => exact .decided hx
        | excused hg => exact .excused hg
        | failed hfs => exact .failed (.cons hf hfs)

theorem similar_choice {rs rs' : List (Rule α)} (what : String)
    (h : List.Forall₂ σ.Similar rs rs') :
    σ.Similar (Rule.choice what rs) (Rule.choice what rs') := fun c c' hc => by
  have hattempt := agreeAttempt_tryEach (h.imp fun _ _ hr => hr hc)
  simp only [Rule.choice]
  generalize Rule.tryEach rs c = y, Rule.tryEach rs' c' = y' at hattempt
  cases hattempt with
  | decided hx => exact hx
  | excused hf => exact .excused hf
  | failed hfs => exact .error (σ.alternatives _ hc hfs)

/-! ## Repetitions -/

theorem similar_iterate {step step' : Advancing (α × Bool)}
    (h : σ.Similar step.toRule step'.toRule) : σ.Similar ⟨step.iterate⟩ ⟨step'.iterate⟩ := by
  intro c
  dsimp only
  -- The induction is on what is left to read: each step reads something.
  induction hn : c.rest.length using Nat.strongRecOn generalizing c with
  | ind n ih =>
    intro c' hc
    rw [step.iterate_eq_bind, step'.iterate_eq_bind]
    refine (h hc).bind fun ⟨a, more⟩ d d' hrun hd => ?_
    have hlt := step.length_lt hrun
    cases more with
    | false => exact .ok hd
    | true => exact (ih _ (hn ▸ hlt) rfl hd).bind fun as e e' _ he => .ok he

/-! ## Tokens -/

section
open Token

/-- A first character and the run after it. -/
theorem agree_run {p : Char → Bool} {ch : Char} {rest : List Char} (hends : σ.Ends p)
    (hc : σ.Near c c') (hrest : c.rest = ch :: rest) :
    ∃ rest', c'.rest = ch :: rest' ∧ rest'.takeWhile p = rest.takeWhile p ∧
      σ.Exact ((c.advance 1).skipWhile p) ((c'.advance 1).skipWhile p) := by
  have hadvance := hc.advance (Cursor.peek?_eq_some.2 ⟨rest, hrest⟩)
  have hrest' : c'.rest = ch :: (rest ++ (σ.gap ++ σ.rest)) := by
    rw [(hc.exact (by simp [hrest])).2, hrest]
    rfl
  obtain ⟨htake, hskip⟩ := hadvance.skipWhile hends
  rw [Cursor.advance, Cursor.advance, hrest, hrest'] at htake
  exact ⟨_, hrest', htake, hskip⟩

theorem tight_identifier : σ.Tight identifier identifier := fun c c' hc => by
  have hends : σ.Ends isIdentifierPart := σ.ends_of_stops (by decide)
  have hfail := σ.reports_lexical "identifier" hc
  rw [Cursor.peek?, Cursor.peek?] at hfail
  simp only [identifier]
  cases hrest : c.rest with
  | cons ch rest =>
    obtain ⟨rest', hrest', htake, hskip⟩ := agree_run hends hc hrest
    rw [hrest, hrest'] at hfail
    simp only [hrest', htake]
    split
    · exact .ok hskip
    · exact .error hfail
  | nil =>
    rw [hrest] at hfail
    cases hrest' : c'.rest with
    | nil =>
      rw [hrest'] at hfail
      exact .error hfail
    | cons ch rest' =>
      have hstart : isIdentifierStart ch = false :=
        hc.eq_false_of_nil (σ.ends_of_stops (by decide)) hrest hrest'
      rw [hrest'] at hfail
      simp only [hstart]
      exact .error hfail

/-- Whether digits spell a number does not depend on where they stand. -/
theorem number_cases (radix : Radix) (digits : List Char) (width : Width) (literal : List Char) :
    (∃ n, ∀ offset, number radix digits width literal offset = .ok n) ∨
      ∀ offset, number radix digits width literal offset =
        .error (.overflow (String.ofList literal) offset none) := by
  unfold number
  split
  · exact .inr fun _ => rfl
  · split
    · exact .inl ⟨_, fun _ => rfl⟩
    · exact .inr fun _ => rfl

/-- A number overflows in both readings or in none. -/
theorem agree_number {radix : Radix} {digits literal : List Char} {width : Width}
    {start start' d d' : Cursor} (hstart : σ.Near start start') (hd : σ.Exact d d') :
    σ.Agree σ.Exact
      (match number radix digits width literal start.pos with
        | .ok n => .ok (n, d)
        | .error f => .error f)
      (match number radix digits width literal start'.pos with
        | .ok n => .ok (n, d')
        | .error f => .error f) := by
  rcases number_cases radix digits width literal with ⟨n, hn⟩ | hfail
  · rw [hn, hn]
    exact .ok hd
  · rw [hfail, hfail]
    exact .error (failure_leaf hstart _ _)

/-- A run of digits ends where the first text does. -/
theorem agree_digits {radix : Radix} {width : List Char → Width}
    {literal : List Char → List Char} {start start' : Cursor} {missing missing' : Failure}
    (hstart : σ.Near start start') (hmissing : σ.failure missing missing') (hc : σ.Near c c') :
    σ.Agree σ.Exact
      (match c.rest.takeWhile radix.isDigit with
        | [] => .error missing
        | digits =>
          match number radix digits (width digits) (literal digits) start.pos with
          | .ok n => .ok (n, c.skipWhile radix.isDigit)
          | .error f => .error f)
      (match c'.rest.takeWhile radix.isDigit with
        | [] => .error missing'
        | digits =>
          match number radix digits (width digits) (literal digits) start'.pos with
          | .ok n => .ok (n, c'.skipWhile radix.isDigit)
          | .error f => .error f) := by
  have hends : σ.Ends radix.isDigit := σ.ends_of_stops (by cases radix <;> decide)
  rw [hc.takeWhile hends]
  cases htake : c.rest.takeWhile radix.isDigit with
  | nil => exact .error hmissing
  | cons ch digits =>
    have hne : c.rest ≠ [] := by
      rintro hnil
      rw [hnil] at htake
      cases htake
    exact agree_number hstart ((hc.exact hne).skipWhile hends).2

theorem tight_decimal : σ.Tight decimal decimal := fun _ _ hc =>
  agree_digits hc (failure_leaf hc _ _) hc

theorem tight_hexadecimal : σ.Tight hexadecimal hexadecimal := fun c c' hc => by
  unfold hexadecimal
  rw [Rule.run_cursor_bind, Rule.run_cursor_bind]
  refine (tight_char (σ.ends_of_stops (by decide)) σ.reports_lexical hc).bind ?_
  intro _ d d' _ hd
  rw [Rule.run_skipBlank_bind, Rule.run_skipBlank_bind]
  have hskip := (Alignment.Near.skipBlank (.inl hd)).1
  exact agree_digits hc (failure_leaf hskip _ _) hskip

theorem tight_relativeLabel : σ.Tight relativeLabel relativeLabel := fun c c' hc => by
  have hmarker : ∀ {m rest}, m ∉ Alignment.stops → c.rest = m :: rest →
      ∃ rest', c'.rest = m :: rest' ∧
        rest'.takeWhile (· = m) = rest.takeWhile (· = m) ∧
        σ.Exact ((c.advance 1).skipWhile (· = m)) ((c'.advance 1).skipWhile (· = m)) :=
    fun hm hrest => agree_run (σ.ends_eq hm) hc hrest
  have hfail : σ.failure (.lexical (.expected "relative label") c.pos)
      (.lexical (.expected "relative label") c'.pos) := failure_leaf hc _ _
  simp only [relativeLabel]
  split
  · next rest hrest =>
    obtain ⟨rest', hrest', htake, hskip⟩ := hmarker (by decide) hrest
    simp only [hrest', htake]
    exact .ok hskip
  · next rest hrest =>
    obtain ⟨rest', hrest', htake, hskip⟩ := hmarker (by decide) hrest
    simp only [hrest', htake]
    exact .ok hskip
  · next hplus hminus =>
    split
    · next rest' hrest' =>
      have hpeek := (hc.peek?_eq_some_iff (σ.ends_eq (by decide))).1
        (Cursor.peek?_eq_some.2 ⟨rest', hrest'⟩)
      obtain ⟨rest, hrest⟩ := Cursor.peek?_eq_some.1 hpeek
      exact absurd hrest (hplus rest)
    · next rest' hrest' =>
      have hpeek := (hc.peek?_eq_some_iff (σ.ends_eq (by decide))).1
        (Cursor.peek?_eq_some.2 ⟨rest', hrest'⟩)
      obtain ⟨rest, hrest⟩ := Cursor.peek?_eq_some.1 hpeek
      exact absurd hrest (hminus rest)
    · exact .error hfail

end

/-! ## Two locksteps -/

/-- A failure of the second reading is that of the first, moved. -/
theorem leaf_further {k : Nat} {c c' : Cursor} {cause cause' : Cause} (hint : Option String)
    (hc : (Alignment.further k).Near c c') (hcause : c'.rest = c.rest → cause' = cause) :
    Failure.leaf cause' c'.pos hint = (Failure.leaf cause c.pos hint).shift k ∧
      (Failure.leaf cause c.pos hint).InText := by
  obtain ⟨hpos, hrest⟩ := Alignment.near_further_iff.1 hc
  refine ⟨?_, Failure.inText_leaf.2 (Int.natCast_nonneg _)⟩
  rw [hcause hrest, Failure.shift, hpos, Int.natCast_add]

/-- The alternatives of the second reading fail as those of the first do, moved. -/
theorem eq_map_of_forall₂ {k : Nat} {fs fs' : List Failure}
    (h : List.Forall₂ (fun f f' => f' = f.shift k ∧ f.InText) fs fs') :
    fs' = fs.map (Failure.shift k) ∧ ∀ f ∈ fs, f.InText := by
  induction h with
  | nil => exact ⟨rfl, List.forall_mem_nil _⟩
  | cons hf _ ih =>
    obtain ⟨hmap, hin⟩ := ih
    exact ⟨by rw [hf.1, hmap, List.map_cons], List.forall_mem_cons.2 ⟨hf.2, hin⟩⟩

/-- A text and the same text `k` characters further on. -/
def further (k : Nat) : Lockstep where
  toAlignment := .further k
  failure f f' := f' = f.shift k ∧ f.InText
  excused _ := False
  fatal_of_excused := False.elim
  fatal_eq h := by rw [h.1, Failure.fatal_shift]
  leaf hint hc _ _ hcause := leaf_further hint hc hcause
  within reason committed h := by
    refine ⟨?_, Failure.inText_leaf.2 h.2.offset_nonneg⟩
    rw [h.1, Failure.shift, Failure.offset_shift, Failure.message_shift]
  alternatives reason hc hfs := by
    obtain ⟨hmap, hin⟩ := eq_map_of_forall₂ hfs
    refine ⟨?_, .exhausted (Int.natCast_nonneg _) hin⟩
    rw [hmap, Failure.shift_ofAlternatives, (Alignment.near_further_iff.1 hc).1, Int.natCast_add]

/-- Failures belong together when they are of one kind. -/
def sameKind (σ : Alignment) : Lockstep where
  toAlignment := σ
  failure f f' := f'.kind = f.kind ∧ f'.fatal = f.fatal
  excused _ := False
  fatal_of_excused := False.elim
  fatal_eq h := h.2
  leaf _ _ hkind hfatal _ := ⟨hkind, hfatal⟩
  within _ _ _ := ⟨rfl, rfl⟩
  alternatives _ _ _ := ⟨rfl, rfl⟩

end Lockstep

end Asm65816
