import Asm65816.Proofs.Reading

/-!
# Cursors of two readings

Several facts about the grammar compare two readings: of a text and of the same text further on, of
a text and of one that goes on where it ends. An `Alignment` tells which cursors of two readings
belong together. The second text is the first one `shift` characters further on, and where the first
ends the second may go on, with blanks and then with a character that ends a statement. Two cursors
are at the same place (`Exact`), or the first text has ended and the second reading has skipped the
blanks as well (`Past`).

Cursors that belong together still do so after the same steps, and both readings see the same
wherever they look for a character that cannot stand where the first text has ended (`Ends`).
-/

namespace Asm65816

open Text (Blanks Avoids BeginsIn isBlank)

/-- How the cursors of two readings belong together. -/
structure Alignment where
  /-- How much further on the second text stands. -/
  shift : Nat
  /-- The blanks of the second text after the end of the first. -/
  gap : List Char
  /-- The second text after these blanks. -/
  rest : List Char
  blanks_gap : Blanks gap
  beginsIn_rest : BeginsIn [':', ';'] rest
  /-- A colon that touched the text before it could be that of a label. -/
  avoids_colon : gap = [] → Avoids (· = ':') rest

namespace Alignment

variable {σ : Alignment} {c c' d : Cursor} {p : Char → Bool} {ch : Char}

/-- Both readings are at the same place. -/
def Exact (σ : Alignment) (c c' : Cursor) : Prop :=
  c'.pos = c.pos + σ.shift ∧ c'.rest = c.rest ++ (σ.gap ++ σ.rest)

/-- The first text has ended, and the second reading has skipped the blanks after it. -/
def Past (σ : Alignment) (c c' : Cursor) : Prop :=
  c.rest = [] ∧ c'.pos = c.pos + σ.shift + σ.gap.length ∧ c'.rest = σ.rest

/-- The cursors belong together. -/
def Near (σ : Alignment) (c c' : Cursor) : Prop := σ.Exact c c' ∨ σ.Past c c'

/-- The characters that can stand in the second text where the first has ended. -/
def stops : List Char := ':' :: ';' :: Text.blanks

/-- Where the first text has ended no character of the second satisfies `p`. -/
def Ends (σ : Alignment) (p : Char → Bool) : Prop :=
  Avoids p (σ.gap ++ σ.rest) ∧ Avoids p σ.rest

/-- Blanks and the two characters that end a statement are all that can stand there. -/
theorem ends_of_stops (σ : Alignment) (h : stops.any p = false) : σ.Ends p := by
  rw [List.any_eq_false] at h
  have hrest : Avoids p σ.rest := by
    refine σ.beginsIn_rest.avoids (List.any_eq_false.2 fun ch hch => h ch ?_)
    exact List.mem_append_left Text.blanks hch
  refine ⟨Avoids.blanks_append (fun ch hch => ?_) σ.blanks_gap hrest, hrest⟩
  refine Bool.eq_false_iff.2 (h ch ?_)
  exact List.mem_cons_of_mem _ (List.mem_cons_of_mem _ (List.contains_iff_mem.1 hch))

theorem ends_eq (σ : Alignment) (h : ch ∉ stops) : σ.Ends (· = ch) := by
  refine σ.ends_of_stops (List.any_eq_false.2 fun x hx hxc => ?_)
  obtain rfl : x = ch := by simpa using hxc
  exact h hx

theorem ends_singleton (σ : Alignment) (h : ch ∉ stops) : σ.Ends [ch].contains := by
  refine σ.ends_of_stops (List.any_eq_false.2 fun x hx hxc => ?_)
  obtain rfl : x = ch := by simpa using hxc
  exact h hx

/-- No colon touches the end of the first text. -/
theorem avoids_colon_gap (σ : Alignment) : Avoids ([':'].contains) (σ.gap ++ σ.rest) := by
  cases hgap : σ.gap with
  | nil =>
    intro ch hch
    simpa using σ.avoids_colon hgap ch hch
  | cons ch gap =>
    rw [List.cons_append, Text.avoids_cons]
    have hblank := σ.blanks_gap ch (by rw [hgap]; exact List.mem_cons_self)
    refine Bool.eq_false_iff.2 fun hcolon => ?_
    obtain rfl : ch = ':' := by simpa using hcolon
    cases hblank

theorem avoids_blank_rest (σ : Alignment) : Avoids isBlank σ.rest := σ.beginsIn_rest.avoids rfl

/-! ## Moving -/

/-- What the first reading takes the second can take too, and they stay together. -/
theorem Exact.reads {s : List Char} (h : σ.Exact c c') (hr : c.Reads s d) :
    ∃ d', c'.Reads s d' ∧ σ.Exact d d' := by
  refine ⟨⟨d.pos + σ.shift, d.rest ++ (σ.gap ++ σ.rest)⟩, ⟨?_, ?_⟩, rfl, rfl⟩
  · rw [h.2, hr.1, List.append_assoc]
  · show d.pos + σ.shift = c'.pos + s.length
    rw [h.1, hr.2]
    omega

/-- The first text has not ended, so the second reading is at the same place. -/
theorem Near.exact (h : σ.Near c c') (hc : c.rest ≠ []) : σ.Exact c c' :=
  h.resolve_right fun hp => hc hp.1

theorem Near.exact_of_peek? (h : σ.Near c c') (hc : c.peek? = some ch) : σ.Exact c c' := by
  refine h.exact fun hnil => ?_
  rw [Cursor.peek?, hnil] at hc
  cases hc

theorem Exact.peek? (h : σ.Exact c c') (hc : c.peek? = some ch) : c'.peek? = some ch := by
  obtain ⟨rest, hrest⟩ := Cursor.peek?_eq_some.1 hc
  rw [Cursor.peek?, h.2, hrest]
  rfl

theorem Near.advance (h : σ.Near c c') (hc : c.peek? = some ch) :
    σ.Exact (c.advance 1) (c'.advance 1) := by
  obtain ⟨d', hr, hd⟩ := (h.exact_of_peek? hc).reads (Cursor.reads_advance_one hc)
  obtain ⟨-, hr⟩ := Cursor.reads_cons.1 hr
  rwa [Cursor.reads_nil_iff.1 hr]

/-- A run that the end of the first text ends is the same in both. -/
theorem Exact.skipWhile (h : σ.Exact c c') (hp : σ.Ends p) :
    c'.rest.takeWhile p = c.rest.takeWhile p ∧ σ.Exact (c.skipWhile p) (c'.skipWhile p) := by
  obtain ⟨d', hr, hd⟩ := h.reads (c.reads_skipWhile p)
  have havoids : Avoids p d'.rest := by
    rw [hd.2]
    cases hrest : (c.skipWhile p).rest with
    | nil => exact hp.1
    | cons ch rest =>
      have hdrop : Avoids p (c.skipWhile p).rest := Text.avoids_dropWhile p c.rest
      rw [hrest] at hdrop
      exact Text.avoids_cons.2 (Text.avoids_cons.1 hdrop)
  obtain ⟨htake, hskip⟩ := hr.skipWhile (List.all_eq_true.1 List.all_takeWhile) havoids
  exact ⟨htake, by rwa [hskip]⟩

theorem Near.takeWhile (h : σ.Near c c') (hp : σ.Ends p) :
    c'.rest.takeWhile p = c.rest.takeWhile p := by
  rcases h with h | ⟨hc, -, hc'⟩
  · exact (h.skipWhile hp).1
  · have hnil : c'.rest.takeWhile p = [] :=
      (c'.reads_nil.skipWhile (by simp) (by rw [hc']; exact hp.2)).1
    rw [hnil, hc, List.takeWhile_nil]

/-- Skipping blanks keeps cursors together. Where it leads to the end of the first text, the second
reading skips the blanks after it too. -/
theorem Near.skipBlank (h : σ.Near c c') :
    σ.Near c.skipBlank c'.skipBlank ∧
      (c.skipBlank.rest = [] → σ.Past c.skipBlank c'.skipBlank) := by
  rcases h with h | ⟨hc, hpos, hc'⟩
  · obtain ⟨b, hb, hr⟩ := c.exists_blanks
    obtain ⟨d', hr', hd⟩ := h.reads hr
    cases hrest : c.skipBlank.rest with
    | nil =>
      have hend : d'.Reads σ.gap ⟨d'.pos + σ.gap.length, σ.rest⟩ := by
        refine ⟨?_, rfl⟩
        rw [hd.2, hrest]
        rfl
      have hskip : c'.skipBlank = ⟨d'.pos + σ.gap.length, σ.rest⟩ :=
        Cursor.skipBlank_eq_iff.2
          ⟨σ.avoids_blank_rest, b ++ σ.gap, hb.append σ.blanks_gap, hr'.append hend⟩
      have hpast : σ.Past c.skipBlank c'.skipBlank := by
        rw [hskip]
        exact ⟨hrest, by rw [hd.1], rfl⟩
      exact ⟨.inr hpast, fun _ => hpast⟩
    | cons ch rest =>
      have hset : d'.Settled := by
        have hblank := c.settled_skipBlank
        rw [Cursor.Settled, hrest] at hblank
        rw [Cursor.Settled, hd.2, hrest]
        exact Text.avoids_cons.2 (Text.avoids_cons.1 hblank)
      rw [Cursor.skipBlank_eq_iff.2 ⟨hset, b, hb, hr'⟩]
      exact ⟨.inl hd, nofun⟩
  · have hset : c.Settled := by
      rw [Cursor.Settled, hc]
      exact Text.avoids_nil _
    have hset' : c'.Settled := by
      rw [Cursor.Settled, hc']
      exact σ.avoids_blank_rest
    rw [hset.skipBlank, hset'.skipBlank]
    exact ⟨.inr ⟨hc, hpos, hc'⟩, fun _ => ⟨hc, hpos, hc'⟩⟩

/-! ## Looking ahead -/

/-- Both readings see the same character, or the first one sees the end. -/
theorem Near.peek?_cases (h : σ.Near c c') (hp : σ.Ends p) :
    c'.peek? = c.peek? ∨ c.peek? = none ∧ ∀ ch, c'.peek? = some ch → p ch = false := by
  cases hc : c.rest with
  | cons ch rest =>
    refine .inl ?_
    rw [Cursor.peek?, Cursor.peek?, (h.exact (by simp [hc])).2, hc]
    rfl
  | nil =>
    refine .inr ⟨by rw [Cursor.peek?, hc]; rfl, ?_⟩
    rcases h with h | ⟨-, -, hc'⟩
    · rw [Cursor.peek?, h.2, hc]
      exact hp.1
    · rw [Cursor.peek?, hc']
      exact hp.2

/-- A character that stands where the first text has ended. -/
theorem Near.eq_false_of_nil {rest' : List Char} (h : σ.Near c c') (hp : σ.Ends p)
    (hc : c.rest = []) (hc' : c'.rest = ch :: rest') : p ch = false := by
  rcases h.peek?_cases hp with hpeek | ⟨-, hpeek⟩
  · rw [Cursor.peek?, Cursor.peek?, hc, hc'] at hpeek
    cases hpeek
  · exact hpeek ch (Cursor.peek?_eq_some.2 ⟨rest', hc'⟩)

theorem Near.peek?_eq_some_iff (h : σ.Near c c') (hp : σ.Ends (· = ch)) :
    c'.peek? = some ch ↔ c.peek? = some ch := by
  rcases h.peek?_cases hp with h | ⟨hc, hc'⟩
  · rw [h]
  · rw [hc]
    refine ⟨fun h => ?_, nofun⟩
    have := hc' ch h
    simp at this

theorem Near.bind_peek? {α : Type} {g : Char → Option α} (h : σ.Near c c')
    (hp : σ.Ends fun ch => (g ch).isSome) : c'.peek?.bind g = c.peek?.bind g := by
  rcases h.peek?_cases hp with h | ⟨hc, hc'⟩
  · rw [h]
  · rw [hc, Option.bind_none, Option.bind_eq_none_iff]
    intro ch hch
    simpa using hc' ch hch

theorem Near.any_peek? (h : σ.Near c c') (hp : σ.Ends p) : c'.peek?.any p = c.peek?.any p := by
  rcases h.peek?_cases hp with h | ⟨hc, hc'⟩
  · rw [h]
  · rw [hc, Option.any_none, Option.any_eq_false]
    intro ch hch
    simpa using hc' ch hch

theorem Near.endsWord (h : σ.Near c c') : c'.endsWord = c.endsWord := by
  rw [Cursor.endsWord, Cursor.endsWord, h.any_peek? (σ.ends_of_stops (by decide))]

/-- A statement ends at the end of the first text, and what goes on there ends it too. -/
theorem Near.endsStatement (h : σ.Near c c') : c'.endsStatement = c.endsStatement := by
  obtain ⟨hskip, hpast⟩ := h.skipBlank
  rw [Cursor.endsStatement, Cursor.endsStatement]
  cases hrest : c.skipBlank.rest with
  | nil =>
    have hstop : c'.skipBlank.peek?.all (fun ch => ch = ':' || ch = ';') = true := by
      rw [Cursor.peek?, (hpast hrest).2.2, Option.all_eq_true]
      intro ch hch
      simpa using σ.beginsIn_rest ch hch
    rw [hstop, Cursor.peek?, hrest]
    simp
  | cons ch rest =>
    have hexact : σ.Exact c c' := by
      refine h.exact fun hnil => ?_
      have hset : c.Settled := by
        rw [Cursor.Settled, hnil]
        exact Text.avoids_nil _
      rw [hset.skipBlank, hnil] at hrest
      cases hrest
    have hpeek : c'.skipBlank.peek? = c.skipBlank.peek? := by
      rw [Cursor.peek?, Cursor.peek?, (hskip.exact (by simp [hrest])).2, hrest]
      rfl
    have htake : c'.rest.takeWhile isBlank = c.rest.takeWhile isBlank := by
      rw [hexact.2, List.takeWhile_append, if_neg]
      intro hlen
      have hsum := congrArg List.length (c.reads_skipBlank).1
      rw [List.length_append, hlen, hrest] at hsum
      simp at hsum
    rw [hpeek, htake]

/-! ## A text further on -/

/-- The second text is the first one, `k` characters further on. -/
def further (k : Nat) : Alignment where
  shift := k
  gap := []
  rest := []
  blanks_gap := Text.blanks_nil
  beginsIn_rest := Text.beginsIn_nil _
  avoids_colon := fun _ => Text.avoids_nil _

/-- With nothing after the end of the first text, both readings are at the same place. -/
theorem near_further_iff {k : Nat} :
    (further k).Near c c' ↔ c'.pos = c.pos + k ∧ c'.rest = c.rest := by
  constructor
  · rintro (⟨hpos, hrest⟩ | ⟨hnil, hpos, hrest⟩)
    · exact ⟨hpos, by rw [hrest]; exact List.append_nil _⟩
    · exact ⟨hpos, by rw [hrest, hnil]; rfl⟩
  · rintro ⟨hpos, hrest⟩
    exact .inl ⟨hpos, by rw [hrest]; exact (List.append_nil _).symm⟩

/-- Nothing can stand where the first text has ended. -/
theorem ends_further (k : Nat) (p : Char → Bool) : (further k).Ends p :=
  ⟨Text.avoids_nil p, Text.avoids_nil p⟩

end Alignment

end Asm65816
