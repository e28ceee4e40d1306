import Asm65816.Proofs.FailureTree
import Asm65816.Proofs.Reading
import Asm65816.Token
import Mathlib.Data.List.Forall2

/-!
# Proper failures

A failure is proper (`Failure.Proper`) if it stands between the place where its rule began and the
end of the text, and if a failed choice holds the failures of its alternatives, none of them fatal
and none before the choice, with the words of the deepest one as its hint. So a caret never leaves
the line, and a hint always comes from a token or a rule that did not match.

`Rule.Fails` says of a rule that its failures are proper. There is a lemma for each way to build a
rule and one for each token. A rule that looks back to a cursor may fail there, so the place from
which on it fails is a parameter. So is whether the rule fails plainly, with one cause; only a
choice does not, and a rule that tells the failures of its parts in its own words does.
-/

namespace Asm65816

/-! ## The end of the text -/

namespace Cursor

variable {c d : Cursor} {t : List Char}

/-- The position after the last character of the text. -/
def textEnd (c : Cursor) : Nat := c.pos + c.rest.length

theorem pos_le_textEnd (c : Cursor) : c.pos ≤ c.textEnd := Nat.le_add_right ..

theorem textEnd_ofText {text : List Char} {pos : Nat} (h : pos ≤ text.length) :
    (ofText text pos).textEnd = text.length := by
  show pos + (text.drop pos).length = text.length
  rw [List.length_drop]
  omega

theorem Reads.pos_le (h : c.Reads t d) : c.pos ≤ d.pos := by
  rw [h.2]
  omega

theorem Reads.textEnd_eq (h : c.Reads t d) : d.textEnd = c.textEnd := by
  rw [textEnd, textEnd, h.1, h.2, List.length_append]
  omega

end Cursor

/-! ## Proper failures -/

/-- The cause says what kind of failure it is, as every rule of the grammar does. -/
def Cause.Specific : Cause → Prop
  | general _ => False
  | lexical _ | mismatch .. | overflow _ | tooDeep _ => True

namespace Failure

/-- The failure has one cause and no alternatives. -/
def Plain (f : Failure) : Prop := f.kind ≠ .exhausted

theorem plain_leaf (cause : Cause) (offset : Int) (hint : Option String) :
    (leaf cause offset hint).Plain := by
  cases cause <;> nofun

/-- A choice is never fatal, so a part's failure is told in the rule's own words or has one
cause. -/
theorem plain_within (reason : Reason) (committed : Bool) (f : Failure) :
    (f.within reason committed).Plain := by
  cases f with
  | leaf cause offset hint =>
    rw [within]
    split
    · exact plain_leaf _ _ _
    · exact plain_leaf _ _ _
  | exhausted => exact plain_leaf _ _ _

/-- The reports of a token that is missing. -/
def Reports (report : Reason → Int → Failure) : Prop :=
  ∀ reason offset, ∃ cause, report reason offset = leaf cause offset none ∧ cause.Specific

theorem reports_lexical : Reports lexical := fun reason _ => ⟨.lexical reason, rfl, trivial⟩

theorem reports_mismatch : Reports mismatch :=
  fun reason _ => ⟨.mismatch reason false, rfl, trivial⟩

/-- The failure stands between `first` and `last`, and it has a cause that a rule of the grammar
gives; or it is that of a choice, whose alternatives did not fail before it, and none of them
fatally. -/
inductive Proper (last : Int) : Int → Failure → Prop
  | leaf {first offset : Int} {cause : Cause} {hint : Option String} : first ≤ offset →
      offset ≤ last → cause.Specific → Proper last first (.leaf cause offset hint)
  | exhausted {first offset furthest : Int} {reason : Reason} {fs : List Failure}
      {deepest : Failure} : first ≤ offset → offset ≤ last →
      deepestOf fs = some (furthest, deepest) → (∀ f ∈ fs, f.fatal = false) →
      (∀ f ∈ fs, Proper last offset f) →
      Proper last first (.exhausted reason offset (some deepest.message) fs)

variable {f g : Failure} {fs : List Failure} {first first' last : Int}

theorem mem_nodes_self (f : Failure) : f ∈ f.nodes := by
  cases f with
  | leaf => exact List.mem_singleton_self _
  | exhausted => exact List.mem_cons_self

theorem furthest?_mem (h : furthest? fs = some g) : g ∈ fs := by
  induction fs generalizing g with
  | nil => cases h
  | cons f rest ih =>
    rw [furthest?] at h
    split at h
    · cases h
      exact List.mem_cons_self
    · next later hlater =>
      split at h
      · cases h
        exact List.mem_cons_of_mem _ (ih hlater)
      · cases h
        exact List.mem_cons_self

/-- Among failures there is always a furthest one. -/
theorem exists_furthest? (h : fs ≠ []) : ∃ g, furthest? fs = some g := by
  cases fs with
  | nil => exact absurd rfl h
  | cons f rest =>
    rw [furthest?]
    split
    · exact ⟨_, rfl⟩
    · split
      · exact ⟨_, rfl⟩
      · exact ⟨_, rfl⟩

/-- The deepest failure below a choice is that below the furthest of its alternatives. -/
theorem deepest_exhausted (h : furthest? fs = some g) (reason : Reason) (offset : Int)
    (hint : Option String) : (exhausted reason offset hint fs).deepest = g.deepest := by
  rw [deepest, deepestOf_eq, h]
  rfl

namespace Proper

theorem first_le (h : f.Proper last first) : first ≤ f.offset := by
  cases h with
  | leaf hfirst | exhausted hfirst => exact hfirst

theorem le_last (h : f.Proper last first) : f.offset ≤ last := by
  cases h with
  | leaf _ hlast | exhausted _ hlast => exact hlast

theorem mono (h : f.Proper last first) (hle : first' ≤ first) : f.Proper last first' := by
  cases h with
  | leaf hfirst hlast hcause => exact .leaf (Int.le_trans hle hfirst) hlast hcause
  | exhausted hfirst hlast hdeepest hfatal hfs =>
    exact .exhausted (Int.le_trans hle hfirst) hlast hdeepest hfatal hfs

/-- A failure of alternatives that are proper and not fatal is proper. -/
theorem ofAlternatives {reason : Reason} {offset : Int} (hfirst : first ≤ offset)
    (hlast : offset ≤ last) (hne : fs ≠ []) (hfatal : ∀ f ∈ fs, f.fatal = false)
    (hfs : ∀ f ∈ fs, f.Proper last offset) :
    (Failure.ofAlternatives reason offset none fs).Proper last first := by
  obtain ⟨g, hg⟩ := exists_furthest? hne
  have hdeepest : deepestOf fs = some (g.offset, g.deepest) := by
    rw [deepestOf_eq, hg]
    rfl
  rw [Failure.ofAlternatives, hdeepest]
  exact .exhausted hfirst hlast hdeepest hfatal hfs

theorem within (h : f.Proper last first) (reason : Reason) (committed : Bool) :
    (f.within reason committed).Proper last first := by
  rw [Failure.within]
  split
  · exact h
  · exact .leaf h.first_le h.le_last trivial

/-- All failures below a proper one are proper. -/
theorem of_mem_nodes (h : f.Proper last first) : ∀ g ∈ f.nodes, g.Proper last first := by
  induction h with
  | leaf hfirst hlast hcause =>
    intro g hg
    obtain rfl : g = .leaf .. := List.mem_singleton.1 hg
    exact .leaf hfirst hlast hcause
  | exhausted hfirst hlast hdeepest hfatal hfs ih =>
    intro g hg
    rw [nodes] at hg
    rcases List.mem_cons.1 hg with rfl | hg
    · exact .exhausted hfirst hlast hdeepest hfatal hfs
    · obtain ⟨f, hf, hg⟩ := mem_nodesOf.1 hg
      exact (ih f hf g hg).mono hfirst

/-- Below a failure that is not fatal the way always leads to a missing token or a rule that did not
go on. -/
theorem kind_deepest (h : f.Proper last first) (hfatal : f.fatal = false) :
    f.deepest.kind = .lexical ∨ f.deepest.kind = .mismatch := by
  induction h with
  | @leaf _ _ cause _ _ _ hcause =>
    cases cause with
    | general reason => exact hcause.elim
    | lexical reason => exact .inl rfl
    | mismatch reason committed => exact .inr rfl
    | overflow | tooDeep => cases hfatal
  | @exhausted _ _ _ _ fs _ _ _ hdeepest hfs _ ih =>
    have hne : fs ≠ [] := by
      rintro rfl
      cases hdeepest
    obtain ⟨g, hg⟩ := exists_furthest? hne
    rw [deepest_exhausted hg]
    exact ih g (furthest?_mem hg) (hfs g (furthest?_mem hg))

/-- What a proper failure of a choice says of its alternatives and of its hint. -/
theorem of_exhausted (h : f.Proper last first) (hkind : f.kind = .exhausted) :
    f.failures ≠ [] ∧ (∀ g ∈ f.failures, g.fatal = false ∧ f.offset ≤ g.offset) ∧
      (f.deepest.kind = .lexical ∨ f.deepest.kind = .mismatch) ∧
      f.hint = some f.deepest.message := by
  have hdeepest := h.kind_deepest
  cases h with
  | leaf => exact absurd hkind (plain_leaf _ _ _)
  | exhausted _ _ hdeep hfatal hfs =>
    refine ⟨?_, fun g hg => ⟨hfatal g hg, (hfs g hg).first_le⟩, hdeepest rfl, ?_⟩
    · rintro rfl
      cases hdeep
    · rw [deepest, hdeep]
      rfl

end Proper

end Failure

/-! ## How rules fail -/

namespace Rule

variable {α β : Type} {r : Rule α} {first : Nat} {plain : Bool} {c : Cursor} {f : Failure}

/-- Run from `first` on, the rule fails properly, and plainly if asked for. -/
def Fails (r : Rule α) (plain : Bool) (first : Nat) : Prop :=
  ∀ ⦃c : Cursor⦄ ⦃f : Failure⦄, first ≤ c.pos → r.run c = .error f →
    f.Proper c.textEnd first ∧ (plain = true → f.Plain)

theorem fails_pure (a : α) : (pure a : Rule α).Fails plain first := fun _ _ _ hf => by
  cases hf

theorem fails_skipBlank : skipBlank.Fails plain first := fun _ _ _ hf => by
  cases hf

/-- What fails later in a text fails in it. -/
theorem Fails.bind {k : α → Rule β} (hr : r.Fails plain first) (hforward : r.Forward)
    (hk : ∀ a, (k a).Fails plain first) : (r >>= k).Fails plain first := fun c f hc hf => by
  rcases run_bind_eq_error.1 hf with hf | ⟨a, d, hok, hf⟩
  · exact hr hc hf
  · obtain ⟨t, hread⟩ := hforward hok
    have hd := hk a (Nat.le_trans hc hread.pos_le) hf
    rw [hread.textEnd_eq] at hd
    exact hd

/-- A rule that looks at its cursor fails from there on. -/
theorem fails_cursor_bind {k : Cursor → Rule α} (hk : ∀ c, (k c).Fails plain c.pos) :
    (cursor >>= k).Fails plain first := fun c f hc hf => by
  obtain ⟨hproper, hplain⟩ := hk c (Nat.le_refl _) hf
  exact ⟨hproper.mono (Int.ofNat_le.2 hc), hplain⟩

/-- A cause at a place that has been passed, or reached, is proper and plain. -/
theorem proper_leaf {cause : Cause} {offset : Nat} {hint : Option String} (hfirst : first ≤ offset)
    (hpos : offset ≤ c.pos) (hcause : cause.Specific) :
    (Failure.leaf cause offset hint).Proper c.textEnd first ∧
      (plain = true → (Failure.leaf cause offset hint).Plain) := by
  have hlast := c.pos_le_textEnd
  exact ⟨.leaf (by omega) (by omega) hcause, fun _ => Failure.plain_leaf _ _ _⟩

/-- A rule that gives up fails where it began to look. -/
theorem fails_fail {cause : Cause} {hint : Option String} (hcause : cause.Specific) :
    (fail (.leaf cause first hint) : Rule α).Fails plain first := fun c f hc hf => by
  cases hf
  exact proper_leaf (Nat.le_refl _) hc hcause

theorem Fails.lexeme (hr : r.Fails plain first) (hforward : r.Forward) :
    (lexeme r).Fails plain first :=
  hr.bind hforward fun a => fails_skipBlank.bind forward_skipBlank fun _ => fails_pure a

/-- The failures of a part, told in a rule's own words, have one cause. -/
theorem Fails.within (hr : r.Fails false first) (reason : Reason) (committed : Bool) :
    (r.within reason committed).Fails plain first := fun c f hc hf => by
  simp only [Rule.within] at hf
  split at hf
  · cases hf
  · next g hg =>
    cases hf
    exact ⟨(hr hc hg).1.within reason committed, fun _ => g.plain_within reason committed⟩

theorem fails_char {accepted : List Char} {what : String} {report : Reason → Int → Failure}
    (hreport : Failure.Reports report) : (char accepted what report).Fails plain first :=
  fun c f hc hf => by
    have hleaf : ∃ reason, f = report reason c.pos := by
      simp only [char] at hf
      split at hf
      · cases hf
        exact ⟨_, rfl⟩
      · split at hf
        · cases hf
        · cases hf
          exact ⟨_, rfl⟩
    obtain ⟨reason, rfl⟩ := hleaf
    obtain ⟨cause, hreport, hcause⟩ := hreport reason c.pos
    rw [hreport]
    exact proper_leaf hc (Nat.le_refl _) hcause

theorem fails_token {accepted : List Char} {what : String} {report : Reason → Int → Failure}
    (hreport : Failure.Reports report) : (token accepted what report).Fails plain first :=
  fails_skipBlank.bind forward_skipBlank fun _ =>
    (fails_char hreport).lexeme (advances_char ..).forward

theorem fails_token_bind {accepted : List Char} {what : String} {report : Reason → Int → Failure}
    {k : Char → Rule α} (hreport : Failure.Reports report) (hk : ∀ ch, (k ch).Fails plain first) :
    (token accepted what report >>= k).Fails plain first :=
  (fails_token hreport).bind (advances_token ..).forward hk

/-! ## Choices -/

/-- Alternatives that give no match failed each for itself, or one of them failed fatally. -/
inductive Tried (rs : List (Rule α)) (c : Cursor) : Attempt α → Prop
  | ok (x : α × Cursor) : Tried rs c (.decided (.ok x))
  | fatal {f : Failure} {r : Rule α} : r ∈ rs → r.run c = .error f → f.fatal = true →
      Tried rs c (.decided (.error f))
  | failed {fs : List Failure} :
      List.Forall₂ (fun r f => r.run c = .error f ∧ f.fatal = false) rs fs →
      Tried rs c (.failed fs)

theorem tried_tryEach (rs : List (Rule α)) (c : Cursor) : Tried rs c (tryEach rs c) := by
  induction rs with
  | nil => exact .failed .nil
  | cons r rs ih =>
    rw [tryEach]
    split
    · exact .ok _
    · next f hf =>
      split
      · next hfatal => exact .fatal List.mem_cons_self hf hfatal
      · next hfatal =>
        generalize tryEach rs c = attempt at ih
        cases ih with
        | ok x => exact .ok x
        | fatal hr hrun hg => exact .fatal (List.mem_cons_of_mem _ hr) hrun hg
        | failed hfs => exact .failed (.cons ⟨hf, Bool.eq_false_iff.2 hfatal⟩ hfs)

/-- A choice fails as one of its alternatives does, fatally, or with the failures of all of them. -/
theorem run_choice_error {what : String} {rs : List (Rule α)}
    (h : (choice what rs).run c = .error f) :
    (f.fatal = true ∧ ∃ r ∈ rs, r.run c = .error f) ∨
    ∃ fs, f = .ofAlternatives (.expected what) c.pos none fs ∧
      List.Forall₂ (fun r g => r.run c = .error g ∧ g.fatal = false) rs fs := by
  have htried := tried_tryEach rs c
  simp only [choice] at h
  generalize tryEach rs c = attempt at h htried
  cases htried with
  | ok x => cases h
  | fatal hr hrun hfatal =>
    cases h
    exact .inl ⟨hfatal, _, hr, hrun⟩
  | failed hfs =>
    cases h
    exact .inr ⟨_, rfl, hfs⟩

/-- Each failure of a choice is that of one of its alternatives. -/
theorem exists_of_failed {rs : List (Rule α)} {fs : List Failure}
    (h : List.Forall₂ (fun r g => r.run c = .error g ∧ g.fatal = false) rs fs) :
    ∀ g ∈ fs, ∃ r ∈ rs, r.run c = .error g ∧ g.fatal = false := by
  induction h with
  | nil => nofun
  | cons hr _ ih =>
    intro g hg
    rcases List.mem_cons.1 hg with rfl | hg
    · exact ⟨_, List.mem_cons_self, hr⟩
    · obtain ⟨r, hr, hrun⟩ := ih g hg
      exact ⟨r, List.mem_cons_of_mem _ hr, hrun⟩

theorem fails_choice {what : String} {rs : List (Rule α)} (hne : rs ≠ [])
    (h : ∀ r ∈ rs, ∀ first, r.Fails false first) : (choice what rs).Fails false first :=
  fun c f hc hf => by
    refine ⟨?_, nofun⟩
    rcases run_choice_error hf with ⟨-, r, hr, hrun⟩ | ⟨fs, rfl, hfs⟩
    · exact (h r hr first hc hrun).1
    · have hmem := exists_of_failed hfs
      have hlast := c.pos_le_textEnd
      refine .ofAlternatives (Int.ofNat_le.2 hc) (Int.ofNat_le.2 hlast) ?_ ?_ ?_
      · rintro rfl
        cases hfs
        exact hne rfl
      · intro g hg
        obtain ⟨r, -, -, hfatal⟩ := hmem g hg
        exact hfatal
      · -- The alternatives all begin where the choice does.
        intro g hg
        obtain ⟨r, hr, hrun, -⟩ := hmem g hg
        exact (h r hr c.pos (Nat.le_refl _) hrun).1

end Rule

/-! ## Repetitions -/

/-- A repetition fails as one of its steps does. -/
theorem Advancing.fails_iterate {α : Type} {step : Advancing (α × Bool)} {plain : Bool}
    {first : Nat} (h : step.Fails plain first) :
    (⟨step.iterate⟩ : Rule (List α)).Fails plain first := by
  intro c f hc hf
  dsimp only at hf
  fun_induction step.iterate c with
  | case1 c g hg =>
    cases hf
    exact h hc hg
  | case2 => cases hf
  | case3 c a d hstep g hg ih =>
    cases hf
    obtain ⟨t, -, hread⟩ := step.advances hstep
    have hd := ih (Nat.le_trans hc hread.pos_le) hg
    rw [hread.textEnd_eq] at hd
    exact hd
  | case4 => cases hf

namespace Token

open Rule

variable {plain : Bool} {first : Nat}

theorem fails_identifier : identifier.Fails plain first := fun c f hc hf => by
  simp only [identifier] at hf
  split at hf
  · cases hf
    exact proper_leaf hc (Nat.le_refl _) trivial
  · split at hf
    · cases hf
    · cases hf
      exact proper_leaf hc (Nat.le_refl _) trivial

/-- A number that is too large is reported where its literal begins. -/
theorem number_eq_error {radix : Text.Radix} {digits literal : List Char} {width : Width}
    {offset : Nat} {f : Failure} (h : number radix digits width literal offset = .error f) :
    f = .overflow (String.ofList literal) offset none := by
  unfold number at h
  split at h
  · cases h
    rfl
  · split at h
    · cases h
    · cases h
      rfl

theorem fails_decimal : decimal.Fails plain first := fun c f hc hf => by
  simp only [decimal] at hf
  split at hf
  · cases hf
    exact proper_leaf hc (Nat.le_refl _) trivial
  · split at hf
    · cases hf
    · next hnumber =>
      cases hf
      rw [number_eq_error hnumber]
      exact proper_leaf hc (Nat.le_refl _) trivial

theorem fails_hexadecimalDigits : (hexadecimalDigits first).Fails plain first := fun c f hc hf => by
  simp only [hexadecimalDigits] at hf
  split at hf
  · cases hf
    exact proper_leaf hc (Nat.le_refl _) trivial
  · split at hf
    · cases hf
    · next hnumber =>
      cases hf
      rw [number_eq_error hnumber]
      exact proper_leaf (Nat.le_refl _) hc trivial

theorem fails_hexadecimal : hexadecimal.Fails plain first :=
  fails_cursor_bind fun _ => (fails_char Failure.reports_lexical).bind (advances_char ..).forward
    fun _ => fails_skipBlank.bind forward_skipBlank fun _ => fails_hexadecimalDigits

theorem fails_relativeLabel : relativeLabel.Fails plain first := fun c f hc hf => by
  simp only [relativeLabel] at hf
  split at hf
  · cases hf
  · cases hf
  · cases hf
    exact proper_leaf hc (Nat.le_refl _) trivial

end Token

end Asm65816
