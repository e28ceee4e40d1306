import Asm65816.Cursor
import Asm65816.Failure

/-!
# Rules

A rule of the grammar reads from a cursor and answers with a value and the cursor after it, or with
a failure. Rules have no other effect, so a rule that failed leaves nothing behind and another can
be tried from the same cursor (`Rule.choice`).

Repetition ends because its step reads something each time. `Rule.Advances` says so of a rule, and
`Advancing` bundles a rule with the fact for the loops (`Advancing.iterate`).
-/

namespace Asm65816

/-- Reads a value from a cursor. -/
structure Rule (α : Type) where
  run : Cursor → Except Failure (α × Cursor)

namespace Rule

variable {α β : Type}

instance : Monad Rule where
  pure a := ⟨fun c => .ok (a, c)⟩
  bind r f := ⟨fun c =>
    match r.run c with
    | .ok (a, d) => (f a).run d
    | .error e => .error e⟩

theorem run_pure (a : α) (c : Cursor) : (pure a : Rule α).run c = .ok (a, c) := rfl

theorem run_bind (r : Rule α) (f : α → Rule β) (c : Cursor) :
    (r >>= f).run c =
      match r.run c with
      | .ok (a, d) => (f a).run d
      | .error e => .error e := rfl

/-- A sequence succeeds exactly when both its parts do, one after the other. -/
theorem run_bind_eq_ok {r : Rule α} {f : α → Rule β} {c e : Cursor} {b : β} :
    (r >>= f).run c = .ok (b, e) ↔ ∃ a d, r.run c = .ok (a, d) ∧ (f a).run d = .ok (b, e) := by
  rw [run_bind]
  constructor
  · intro h
    split at h
    · exact ⟨_, _, ‹_›, h⟩
    · cases h
  · rintro ⟨a, d, h, k⟩
    rw [h]
    exact k

/-- A sequence fails exactly when its first part does, or the second does after the first. -/
theorem run_bind_eq_error {r : Rule α} {f : α → Rule β} {c : Cursor} {e : Failure} :
    (r >>= f).run c = .error e ↔
      r.run c = .error e ∨ ∃ a d, r.run c = .ok (a, d) ∧ (f a).run d = .error e := by
  rw [run_bind]
  constructor
  · intro h
    split at h
    · exact .inr ⟨_, _, ‹_›, h⟩
    · cases h
      exact .inl ‹_›
  · rintro (h | ⟨a, d, h, k⟩)
    · rw [h]
    · rw [h]
      exact k

/-! ## Small rules -/

/-- The cursor itself. -/
def cursor : Rule Cursor := ⟨fun c => .ok (c, c)⟩

/-- Fails. -/
def fail (f : Failure) : Rule α := ⟨fun _ => .error f⟩

/-- Skips blanks. -/
def skipBlank : Rule Unit := ⟨fun c => .ok ((), c.skipBlank)⟩

/-- A rule, then blanks. -/
def lexeme (r : Rule α) : Rule α := do
  let a ← r
  skipBlank
  pure a

/-- A rule as a part of another: its failure is told in the other rule's words. -/
def within (reason : Reason) (committed : Bool) (r : Rule α) : Rule α := ⟨fun c =>
  match r.run c with
  | .ok x => .ok x
  | .error f => .error (f.within reason committed)⟩

/-- A character out of `accepted`; `report` makes the failure. -/
def char (accepted : List Char) (what : String) (report : Reason → Int → Failure) : Rule Char :=
  ⟨fun c =>
    match c.rest with
    | [] => .error (report (.missing what none) c.pos)
    | ch :: _ =>
      if accepted.contains ch then .ok (ch, c.advance 1)
      else .error (report (.missing what (some ch)) c.pos)⟩

/-- A character out of `accepted`, with blanks around it. -/
def token (accepted : List Char) (what : String) (report : Reason → Int → Failure) : Rule Char := do
  skipBlank
  lexeme (char accepted what report)

/-! ## Ordered choice -/

/-- What came of trying alternatives in order. -/
inductive Attempt (α : Type) where
  /-- One of them matched or failed fatally, and gives the outcome. -/
  | decided (outcome : Except Failure (α × Cursor))
  /-- Each failed, and none fatally. -/
  | failed (failures : List Failure)

/-- Tries alternatives in order from the same cursor. -/
def tryEach : List (Rule α) → Cursor → Attempt α
  | [], _ => .failed []
  | r :: rs, c =>
    match r.run c with
    | .ok x => .decided (.ok x)
    | .error f =>
      if f.fatal then .decided (.error f)
      else match tryEach rs c with
        | .decided outcome => .decided outcome
        | .failed fs => .failed (f :: fs)

/-- The first alternative that matches. -/
def choice (what : String) (alternatives : List (Rule α)) : Rule α := ⟨fun c =>
  match tryEach alternatives c with
  | .decided outcome => outcome
  | .failed fs => .error (.ofAlternatives (.expected what) c.pos none fs)⟩

/-- A match among alternatives is the match of one of them. -/
theorem tryEach_ok {rs : List (Rule α)} {c d : Cursor} {a : α}
    (h : tryEach rs c = .decided (.ok (a, d))) : ∃ r ∈ rs, r.run c = .ok (a, d) := by
  induction rs with
  | nil => simp [tryEach] at h
  | cons r rs ih =>
    rw [tryEach] at h
    split at h
    · next x hr =>
      obtain rfl : x = (a, d) := by simpa using h
      exact ⟨r, List.mem_cons_self, hr⟩
    · split at h
      · simp at h
      · split at h
        · next hrs =>
          obtain ⟨r', hr', h'⟩ := ih (by rw [hrs, h])
          exact ⟨r', List.mem_cons_of_mem _ hr', h'⟩
        · simp at h

/-- A choice matches only as one of its alternatives. -/
theorem run_choice_ok {what : String} {rs : List (Rule α)} {c d : Cursor} {a : α}
    (h : (choice what rs).run c = .ok (a, d)) : ∃ r ∈ rs, r.run c = .ok (a, d) := by
  simp only [choice] at h
  split at h
  · next h' => exact tryEach_ok (by rw [h', h])
  · simp at h

/-! ## Rules that move forward -/

/-- A match leads forward, or stays. -/
def Forward (r : Rule α) : Prop :=
  ∀ ⦃c d : Cursor⦄ ⦃a : α⦄, r.run c = .ok (a, d) → ∃ used, c.Reads used d

/-- A match reads one character at least. -/
def Advances (r : Rule α) : Prop :=
  ∀ ⦃c d : Cursor⦄ ⦃a : α⦄, r.run c = .ok (a, d) → ∃ used, used ≠ [] ∧ c.Reads used d

theorem Advances.forward {r : Rule α} (h : r.Advances) : r.Forward := fun _ _ _ k =>
  let ⟨used, _, hr⟩ := h k
  ⟨used, hr⟩

theorem forward_pure (a : α) : (pure a : Rule α).Forward := fun c d b h => by
  cases h
  exact ⟨[], c.reads_nil⟩

theorem forward_cursor : cursor.Forward := fun c d b h => by
  cases h
  exact ⟨[], c.reads_nil⟩

theorem forward_skipBlank : skipBlank.Forward := fun c d b h => by
  cases h
  exact ⟨_, c.reads_skipBlank⟩

theorem advances_fail (f : Failure) : (fail f : Rule α).Advances := fun _ _ _ h => by cases h

theorem Forward.bind {r : Rule α} {f : α → Rule β} (hr : r.Forward) (hf : ∀ a, (f a).Forward) :
    (r >>= f).Forward := fun c e b h => by
  obtain ⟨a, d, h1, h2⟩ := run_bind_eq_ok.1 h
  obtain ⟨us, hu⟩ := hr h1
  obtain ⟨vs, hv⟩ := hf a h2
  exact ⟨us ++ vs, hu.append hv⟩

theorem Advances.bind {r : Rule α} {f : α → Rule β} (hr : r.Advances) (hf : ∀ a, (f a).Forward) :
    (r >>= f).Advances := fun c e b h => by
  obtain ⟨a, d, h1, h2⟩ := run_bind_eq_ok.1 h
  obtain ⟨us, hne, hu⟩ := hr h1
  obtain ⟨vs, hv⟩ := hf a h2
  exact ⟨us ++ vs, by simp [hne], hu.append hv⟩

theorem Forward.bind_advances {r : Rule α} {f : α → Rule β} (hr : r.Forward)
    (hf : ∀ a, (f a).Advances) : (r >>= f).Advances := fun c e b h => by
  obtain ⟨a, d, h1, h2⟩ := run_bind_eq_ok.1 h
  obtain ⟨us, hu⟩ := hr h1
  obtain ⟨vs, hne, hv⟩ := hf a h2
  exact ⟨us ++ vs, by simp [hne], hu.append hv⟩

theorem Advances.lexeme {r : Rule α} (h : r.Advances) : (lexeme r).Advances :=
  h.bind fun a => forward_skipBlank.bind fun _ => forward_pure a

theorem run_within_eq_ok {reason : Reason} {committed : Bool} {r : Rule α} {c : Cursor}
    {x : α × Cursor} : (r.within reason committed).run c = .ok x ↔ r.run c = .ok x := by
  simp only [within]
  split <;> simp_all

theorem Advances.within {r : Rule α} (h : r.Advances) (reason : Reason) (committed : Bool) :
    (r.within reason committed).Advances := fun _ _ _ k => h (run_within_eq_ok.1 k)

theorem advances_char (accepted : List Char) (what : String) (report : Reason → Int → Failure) :
    (char accepted what report).Advances := fun c d a h => by
  simp only [char] at h
  split at h
  · cases h
  · next hc =>
    split at h
    · cases h
      exact ⟨[a], by simp, Cursor.reads_advance_one (by rw [Cursor.peek?, hc]; rfl)⟩
    · cases h

theorem advances_token (accepted : List Char) (what : String) (report : Reason → Int → Failure) :
    (token accepted what report).Advances :=
  forward_skipBlank.bind_advances fun _ => (advances_char accepted what report).lexeme

theorem advances_choice (what : String) {rs : List (Rule α)} (h : ∀ r ∈ rs, r.Advances) :
    (choice what rs).Advances := fun c d a k => by
  obtain ⟨r, hr, hc⟩ := run_choice_ok k
  exact h r hr hc

theorem forward_choice (what : String) {rs : List (Rule α)} (h : ∀ r ∈ rs, r.Forward) :
    (choice what rs).Forward := fun c d a k => by
  obtain ⟨r, hr, hc⟩ := run_choice_ok k
  exact h r hr hc

end Rule

/-- A rule whose matches read one character at least. -/
structure Advancing (α : Type) extends Rule α where
  advances : toRule.Advances

namespace Advancing

variable {α : Type}

/-- Each match leaves less to read. -/
theorem length_lt (r : Advancing α) {c d : Cursor} {a : α} (h : r.run c = .ok (a, d)) :
    d.rest.length < c.rest.length :=
  let ⟨_, hne, hu⟩ := r.advances h
  hu.length_lt hne

/-- Repeats a rule for as long as its answer asks for more. -/
def iterate (step : Advancing (α × Bool)) (c : Cursor) : Except Failure (List α × Cursor) :=
  match _h : step.run c with
  | .error f => .error f
  | .ok ((a, false), d) => .ok ([a], d)
  | .ok ((a, true), d) =>
    match iterate step d with
    | .error f => .error f
    | .ok (as, e) => .ok (a :: as, e)
termination_by c.rest.length
decreasing_by exact step.length_lt _h

/-- A repetition reads something, since its first step does. -/
theorem advances_iterate (step : Advancing (α × Bool)) : Rule.Advances ⟨step.iterate⟩ := by
  intro c d as h
  dsimp only at h
  fun_induction iterate step c generalizing as d with
  | case1 => cases h
  | case2 c a e he => cases h; exact step.advances he
  | case3 => cases h
  | case4 c a e he as' d' hd ih =>
    cases h
    obtain ⟨us, hne, hu⟩ := step.advances he
    obtain ⟨vs, _, hv⟩ := ih hd
    exact ⟨us ++ vs, by simp [hne], hu.append hv⟩

end Advancing

end Asm65816
