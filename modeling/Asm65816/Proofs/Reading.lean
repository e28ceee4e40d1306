import Asm65816.Token

/-!
# What rules read

Each small rule is described here by the text it takes. A rule that matches leads from a cursor to
another one by a text (`Cursor.Reads`), and what may follow that text is said by `Text.Avoids`: a
run ends where no further character of it stands. The lemmas `run_…_eq_ok` are equivalences, so that
the same lemma tells what a match has read and what text makes a rule match.

A choice needs one more notion. An alternative that gives way to the next fails, and not fatally
(`Rule.Refuses`); `Rule.run_choice_cons_eq_ok` describes a choice by the refusals before its match.
-/

namespace Asm65816

open Text (isBlank isIdentifierPart isIdentifierStart)

/-! ## Texts -/

namespace Text

/-- The text is made of blanks. -/
def Blanks (cs : List Char) : Prop := ∀ c ∈ cs, isBlank c = true

/-- The text does not begin with a character that satisfies `p`. -/
def Avoids (p : Char → Bool) (cs : List Char) : Prop := ∀ c, cs.head? = some c → p c = false

/-- The text is empty, or it begins with one of the characters. -/
def BeginsIn (chars cs : List Char) : Prop := ∀ c, cs.head? = some c → c ∈ chars

instance (cs : List Char) : Decidable (Blanks cs) :=
  decidable_of_iff (cs.all isBlank = true) List.all_eq_true

theorem blanks_nil : Blanks [] := nofun

theorem Blanks.append {b b' : List Char} (hb : Blanks b) (hb' : Blanks b') :
    Blanks (b ++ b') := by
  intro c hc
  exact (List.mem_append.1 hc).elim (hb c) (hb' c)

theorem avoids_nil (p : Char → Bool) : Avoids p [] := nofun

theorem avoids_cons {p : Char → Bool} {c : Char} {cs : List Char} :
    Avoids p (c :: cs) ↔ p c = false := by
  simp [Avoids]

/-- Blanks come between, so only what follows them can break the rule. -/
theorem Avoids.blanks_append {p : Char → Bool} {b cs : List Char}
    (hp : ∀ c, isBlank c = true → p c = false) (hb : Blanks b) (h : Avoids p cs) :
    Avoids p (b ++ cs) := by
  cases b with
  | nil => exact h
  | cons c b => exact avoids_cons.2 (hp c (hb c List.mem_cons_self))

/-- What a non-empty text begins with does not depend on what follows it. -/
theorem avoids_append {p : Char → Bool} {cs ds : List Char} (h : cs ≠ []) :
    Avoids p (cs ++ ds) ↔ Avoids p cs := by
  cases cs with
  | nil => exact absurd rfl h
  | cons c cs => rw [List.cons_append, avoids_cons, avoids_cons]

/-- A text begins as a longer one does. -/
theorem Avoids.of_append {p : Char → Bool} {cs ds : List Char} (h : Avoids p (cs ++ ds)) :
    Avoids p cs := by
  cases cs with
  | nil => exact avoids_nil p
  | cons c cs => exact avoids_cons.2 (avoids_cons.1 h)

theorem avoids_dropWhile (p : Char → Bool) (cs : List Char) : Avoids p (cs.dropWhile p) := by
  intro c hc
  have h := List.head?_dropWhile_not p cs
  rw [hc] at h
  simpa using h

theorem beginsIn_nil (chars : List Char) : BeginsIn chars [] := nofun

theorem BeginsIn.avoids {p : Char → Bool} {chars cs : List Char} (h : BeginsIn chars cs)
    (hp : chars.any p = false) : Avoids p cs := by
  intro c hc
  rw [List.any_eq_false] at hp
  exact Bool.eq_false_iff.2 (hp c (h c hc))

theorem BeginsIn.mono {chars more cs : List Char} (h : BeginsIn chars cs) (hsub : chars ⊆ more) :
    BeginsIn more cs := fun c hc => hsub (h c hc)

theorem beginsIn_cons {chars cs : List Char} {c : Char} (h : c ∈ chars) :
    BeginsIn chars (c :: cs) := by
  simpa [BeginsIn] using h

/-- No blank goes on or begins an identifier. -/
theorem isIdentifierPart_of_isBlank {c : Char} (h : isBlank c = true) :
    isIdentifierPart c = false := by
  simp only [isBlank, blanks, List.contains_cons, List.contains_nil, Bool.or_false,
    Bool.or_eq_true, beq_iff_eq] at h
  rcases h with rfl | rfl | rfl | rfl | rfl | rfl <;> decide

theorem isIdentifierStart_of_isBlank {c : Char} (h : isBlank c = true) :
    isIdentifierStart c = false := by
  simp only [isBlank, blanks, List.contains_cons, List.contains_nil, Bool.or_false,
    Bool.or_eq_true, beq_iff_eq] at h
  rcases h with rfl | rfl | rfl | rfl | rfl | rfl <;> decide

end Text

open Text (Blanks Avoids)

/-! ## Cursors -/

namespace Cursor

variable {c d e : Cursor} {s t : List Char}

/-- A text leads to one place only. -/
theorem Reads.unique (h : c.Reads s d) (k : c.Reads s e) : d = e := by
  obtain ⟨p, r⟩ := d
  obtain ⟨q, r'⟩ := e
  obtain rfl : r = r' := List.append_cancel_left (h.1.symm.trans k.1)
  obtain rfl : p = q := h.2.trans k.2.symm
  rfl

/-- Reading two texts is reading one after the other. -/
theorem reads_append : c.Reads (s ++ t) e ↔ ∃ d, c.Reads s d ∧ d.Reads t e := by
  constructor
  · rintro ⟨h1, h2⟩
    refine ⟨⟨c.pos + s.length, t ++ e.rest⟩, ⟨by rw [h1, List.append_assoc], rfl⟩, rfl, ?_⟩
    rw [h2, List.length_append, Nat.add_assoc]
  · rintro ⟨d, h, k⟩
    exact h.append k

/-- Reading a first character is a step of one. -/
theorem reads_cons {ch : Char} :
    c.Reads (ch :: s) d ↔ c.peek? = some ch ∧ (c.advance 1).Reads s d := by
  constructor
  · intro h
    obtain ⟨m, h1, h2⟩ := reads_append (s := [ch]).1 h
    have hp : c.peek? = some ch := by rw [peek?, h1.1]; rfl
    exact ⟨hp, (reads_advance_one hp).unique h1 ▸ h2⟩
  · rintro ⟨hp, h⟩
    exact (reads_advance_one hp).append h

/-- A cursor stands at the first character it reads. -/
theorem Reads.avoids {p : Char → Bool} {ch : Char} (h : c.Reads (ch :: s) d) (hp : p ch = false) :
    Avoids p c.rest := by
  rw [h.1]
  exact Text.avoids_cons.2 hp

theorem reads_nil_iff : c.Reads [] d ↔ c = d :=
  ⟨fun h => (reads_nil c).unique h, fun h => h ▸ reads_nil c⟩

theorem peek?_eq_some {ch : Char} : c.peek? = some ch ↔ ∃ rest, c.rest = ch :: rest := by
  rw [peek?]
  exact List.head?_eq_some_iff

/-- A run of characters is taken whole, and it ends where none follows. -/
theorem Reads.skipWhile {p : Char → Bool} (h : c.Reads s d) (hs : ∀ ch ∈ s, p ch = true)
    (hd : Avoids p d.rest) : c.rest.takeWhile p = s ∧ c.skipWhile p = d := by
  have ht : c.rest.takeWhile p = s := by
    rw [h.1, List.takeWhile_append_of_pos hs]
    cases hr : d.rest with
    | nil => simp
    | cons ch rest =>
      rw [hr] at hd
      simp [Text.avoids_cons.1 hd]
  exact ⟨ht, (reads_skipWhile p c).unique (ht ▸ h)⟩

/-- No blank stands at the cursor. -/
def Settled (c : Cursor) : Prop := Avoids isBlank c.rest

theorem settled_skipBlank (c : Cursor) : c.skipBlank.Settled := Text.avoids_dropWhile isBlank c.rest

/-- Skipping blanks leads over blanks to where none stands. -/
theorem skipBlank_eq_iff : c.skipBlank = d ↔ d.Settled ∧ ∃ b, Blanks b ∧ c.Reads b d := by
  constructor
  · rintro rfl
    refine ⟨c.settled_skipBlank, _, fun ch hch => ?_, c.reads_skipBlank⟩
    exact List.all_eq_true.1 List.all_takeWhile ch hch
  · rintro ⟨hd, b, hb, h⟩
    exact (h.skipWhile hb hd).2

/-- Blanks lead to where skipping them does. -/
theorem exists_blanks (c : Cursor) : ∃ b, Blanks b ∧ c.Reads b c.skipBlank :=
  (skipBlank_eq_iff.1 rfl).2

theorem Settled.skipBlank (h : c.Settled) : c.skipBlank = c :=
  skipBlank_eq_iff.2 ⟨h, [], Text.blanks_nil, reads_nil c⟩

/-- Blanks that were read are skipped as well. -/
theorem Reads.skipBlank_eq {b : List Char} (h : c.Reads b d) (hb : Blanks b) :
    c.skipBlank = d.skipBlank := by
  obtain ⟨b', hb', h'⟩ := d.exists_blanks
  exact skipBlank_eq_iff.2 ⟨d.settled_skipBlank, b ++ b', hb.append hb', h.append h'⟩

/-- A character with blanks around it leads from one cursor to the other. -/
def Takes (c : Cursor) (ch : Char) (d : Cursor) : Prop :=
  d.Settled ∧ ∃ b, Blanks b ∧ c.skipBlank.Reads (ch :: b) d

/-- Where no blank stands, the character comes first. -/
theorem Settled.takes_iff {ch : Char} (h : c.Settled) :
    c.Takes ch d ↔ d.Settled ∧ ∃ b, Blanks b ∧ c.Reads (ch :: b) d := by
  rw [Takes, h.skipBlank]

/-- A character that is no blank has all the blanks before it. -/
theorem takes_iff {ch : Char} (hch : isBlank ch = false) : c.Takes ch d ↔
    d.Settled ∧ ∃ b b', Blanks b ∧ Blanks b' ∧ c.Reads (b ++ ch :: b') d := by
  constructor
  · rintro ⟨hd, b', hb', h⟩
    obtain ⟨b, hb, hskip⟩ := c.exists_blanks
    exact ⟨hd, b, b', hb, hb', hskip.append h⟩
  · rintro ⟨hd, b, b', hb, hb', h⟩
    obtain ⟨m, h1, h2⟩ := reads_append.1 h
    have hm : m.Settled := h2.avoids hch
    rw [Takes, skipBlank_eq_iff.2 ⟨hm, b, hb, h1⟩]
    exact ⟨hd, b', hb', h2⟩

theorem takes_skipBlank {ch : Char} : c.skipBlank.Takes ch d ↔ c.Takes ch d := by
  rw [Takes, Takes, c.settled_skipBlank.skipBlank]

/-- What is taken is the next character that is no blank. -/
theorem Takes.peek? {ch : Char} (h : c.Takes ch d) : c.skipBlank.peek? = some ch := by
  obtain ⟨-, b, -, h⟩ := h
  exact (reads_cons.1 h).1

/-- What is taken is known from the next character that is no blank. -/
theorem takes_iff_peek? {ch : Char} :
    c.Takes ch d ↔ c.skipBlank.peek? = some ch ∧ (c.skipBlank.advance 1).skipBlank = d := by
  rw [skipBlank_eq_iff]
  constructor
  · rintro ⟨hd, b, hb, hr⟩
    obtain ⟨hpk, hr⟩ := reads_cons.1 hr
    exact ⟨hpk, hd, b, hb, hr⟩
  · rintro ⟨hpk, hd, b, hb, hr⟩
    exact ⟨hd, b, hb, reads_cons.2 ⟨hpk, hr⟩⟩

end Cursor

/-! ## Small rules -/

namespace Rule

variable {α β : Type} {c d : Cursor}

theorem run_cursor_bind (f : Cursor → Rule α) (c : Cursor) : (cursor >>= f).run c = (f c).run c :=
  rfl

theorem run_skipBlank_bind (f : Unit → Rule α) (c : Cursor) :
    (skipBlank >>= f).run c = (f ()).run c.skipBlank := rfl

theorem run_pure_eq_ok {a b : α} : (pure a : Rule α).run c = .ok (b, d) ↔ a = b ∧ c = d := by
  rw [run_pure]
  simp

/-- A rule with blanks after it reads its own text and the blanks. -/
theorem run_lexeme_eq_ok {r : Rule α} {a : α} :
    (lexeme r).run c = .ok (a, d) ↔ ∃ m, r.run c = .ok (a, m) ∧ m.skipBlank = d := by
  rw [lexeme, run_bind_eq_ok]
  constructor
  · rintro ⟨a', m, h, k⟩
    rw [run_skipBlank_bind, run_pure_eq_ok] at k
    obtain ⟨rfl, k⟩ := k
    exact ⟨m, h, k⟩
  · rintro ⟨m, h, k⟩
    exact ⟨a, m, h, by rw [run_skipBlank_bind, run_pure_eq_ok]; exact ⟨rfl, k⟩⟩

theorem run_char_eq_ok {accepted : List Char} {what : String} {report : Reason → Int → Failure}
    {ch : Char} :
    (char accepted what report).run c = .ok (ch, d) ↔ ch ∈ accepted ∧ c.Reads [ch] d := by
  rw [Cursor.reads_cons, Cursor.reads_nil_iff, Cursor.peek?_eq_some]
  simp only [char]
  constructor
  · intro h
    split at h
    · cases h
    · next hc =>
      split at h
      · next hm =>
        cases h
        exact ⟨by simpa using hm, ⟨_, hc⟩, rfl⟩
      · cases h
  · rintro ⟨hm, ⟨rest, hc⟩, rfl⟩
    simp [hc, hm]

/-- A token reads one of its characters and the blanks around it. -/
theorem run_token_eq_ok {accepted : List Char} {what : String} {report : Reason → Int → Failure}
    {ch : Char} :
    (token accepted what report).run c = .ok (ch, d) ↔ ch ∈ accepted ∧ c.Takes ch d := by
  rw [token, run_skipBlank_bind, run_lexeme_eq_ok]
  constructor
  · rintro ⟨m, h, k⟩
    obtain ⟨hm, h⟩ := run_char_eq_ok.1 h
    obtain ⟨hd, b, hb, k⟩ := Cursor.skipBlank_eq_iff.1 k
    exact ⟨hm, hd, b, hb, h.append k⟩
  · rintro ⟨hm, hd, b, hb, h⟩
    obtain ⟨m, h, k⟩ := Cursor.reads_append (s := [ch]).1 h
    exact ⟨m, run_char_eq_ok.2 ⟨hm, h⟩, Cursor.skipBlank_eq_iff.2 ⟨hd, b, hb, k⟩⟩

/-! ## Refusals -/

/-- The rule fails at `c`, and another one may be tried there. -/
def Refuses (r : Rule α) (c : Cursor) : Prop := ∃ f, r.run c = .error f ∧ f.fatal = false

theorem not_refuses_of_ok {r : Rule α} {x : α × Cursor} (h : r.run c = .ok x) : ¬ r.Refuses c := by
  rintro ⟨f, hf, -⟩
  rw [h] at hf
  cases hf

theorem refuses_fail {f : Failure} (h : f.fatal = false) (c : Cursor) :
    (fail f : Rule α).Refuses c := ⟨f, rfl, h⟩

/-- A sequence refuses where its first part does. -/
theorem Refuses.bind {r : Rule α} (h : r.Refuses c) (f : α → Rule β) : (r >>= f).Refuses c := by
  obtain ⟨e, he, hf⟩ := h
  exact ⟨e, run_bind_eq_error.2 (.inl he), hf⟩

/-- A sequence refuses where its second part does after the first. -/
theorem refuses_bind {r : Rule α} {f : α → Rule β} {a : α} (h : r.run c = .ok (a, d))
    (k : (f a).Refuses d) : (r >>= f).Refuses c := by
  obtain ⟨e, he, hf⟩ := k
  exact ⟨e, run_bind_eq_error.2 (.inr ⟨a, d, h, he⟩), hf⟩

theorem Refuses.within {r : Rule α} (h : r.Refuses c) (reason : Reason) :
    (r.within reason false).Refuses c := by
  obtain ⟨e, he, hf⟩ := h
  refine ⟨e.within reason false, by simp only [Rule.within, he], ?_⟩
  rw [Failure.within, hf]
  rfl

/-- A part of a rule that refuses has a part that does. -/
theorem Refuses.of_within {r : Rule α} {reason : Reason} {committed : Bool}
    (h : (r.within reason committed).Refuses c) : r.Refuses c := by
  obtain ⟨e, he, hf⟩ := h
  simp only [Rule.within] at he
  split at he
  · cases he
  · next g hg =>
    cases he
    refine ⟨g, hg, Bool.eq_false_iff.2 fun hfatal => ?_⟩
    rw [Failure.within, if_pos hfatal, hfatal] at hf
    cases hf

/-- A character that is not accepted is refused, whatever is then reported. -/
theorem refuses_char {accepted : List Char} {what : String} {report : Reason → Int → Failure}
    (hr : ∀ reason offset, (report reason offset).fatal = false)
    (h : Avoids accepted.contains c.rest) : (char accepted what report).Refuses c := by
  simp only [Refuses, char]
  cases hc : c.rest with
  | nil => exact ⟨_, rfl, hr ..⟩
  | cons ch rest =>
    rw [hc, Text.avoids_cons] at h
    simp only [h]
    exact ⟨_, rfl, hr ..⟩

theorem refuses_token {accepted : List Char} {what : String} {report : Reason → Int → Failure}
    (hr : ∀ reason offset, (report reason offset).fatal = false)
    (h : Avoids accepted.contains c.skipBlank.rest) :
    (token accepted what report).Refuses c := by
  have h : (char accepted what report).Refuses c.skipBlank := refuses_char hr h
  obtain ⟨f, hf, hn⟩ := h
  exact ⟨f, run_bind_eq_error.2 (.inr ⟨(), _, rfl, run_bind_eq_error.2 (.inl hf)⟩), hn⟩

/-- A choice matches by its first alternative, or the first refuses and the others match. -/
theorem run_choice_cons_eq_ok {what : String} {r : Rule α} {rs : List (Rule α)} {x : α × Cursor} :
    (choice what (r :: rs)).run c = .ok x ↔
      r.run c = .ok x ∨ r.Refuses c ∧ (choice what rs).run c = .ok x := by
  simp only [choice, tryEach, Refuses]
  cases hr : r.run c with
  | ok y => simp
  | error f =>
    cases hf : f.fatal with
    | true => simp [hf]
    | false => cases tryEach rs c <;> simp [hf]

/-- An alternative that matches is taken. -/
theorem run_choice_head {what : String} {r : Rule α} {rs : List (Rule α)} {x : α × Cursor}
    (h : r.run c = .ok x) : (choice what (r :: rs)).run c = .ok x :=
  run_choice_cons_eq_ok.2 (.inl h)

/-- An alternative that refuses is passed over. -/
theorem run_choice_tail {what : String} {r : Rule α} {rs : List (Rule α)} {x : α × Cursor}
    (hr : r.Refuses c) (h : (choice what rs).run c = .ok x) :
    (choice what (r :: rs)).run c = .ok x :=
  run_choice_cons_eq_ok.2 (.inr ⟨hr, h⟩)

/-- A choice refuses where each of its alternatives does. -/
theorem refuses_choice {what : String} {rs : List (Rule α)} (h : ∀ r ∈ rs, r.Refuses c) :
    (choice what rs).Refuses c := by
  have failed : ∃ fs, tryEach rs c = .failed fs := by
    induction rs with
    | nil => exact ⟨[], rfl⟩
    | cons r rs ih =>
      obtain ⟨f, hf, hn⟩ := h r List.mem_cons_self
      obtain ⟨fs, hfs⟩ := ih fun r hr => h r (List.mem_cons_of_mem _ hr)
      exact ⟨f :: fs, by simp [tryEach, hf, hn, hfs]⟩
  obtain ⟨fs, hfs⟩ := failed
  exact ⟨_, by simp only [choice, hfs]; rfl, rfl⟩

end Rule

/-! ## Repetitions -/

/-- A repetition is its first step, and a repetition after it if the step asks for more. -/
theorem Advancing.iterate_eq_bind {α : Type} (step : Advancing (α × Bool)) (c : Cursor) :
    step.iterate c = (do
      let (a, more) ← step.toRule
      if more then
        let as ← (⟨step.iterate⟩ : Rule (List α))
        pure (a :: as)
      else pure [a]).run c := by
  rw [Rule.run_bind, Advancing.iterate]
  split
  · next h => rw [h]
  · next h => rw [h]; rfl
  · next h =>
    rw [h]
    simp only [if_true, Rule.run_bind]
    split
    · next hrest => rw [hrest]
    · next hrest => rw [hrest]; rfl

end Asm65816
