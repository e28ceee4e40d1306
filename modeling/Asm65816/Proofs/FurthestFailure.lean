import Asm65816.Proofs.FailureReach

/-!
# Where the hint of a statement comes from

The hint of a statement is in the words of its deepest failure, which is not always the furthest. An
operand counts as far as the mnemonic or its suffix ended, so blanks before it let the missing
equals sign of an assignment get further, and digits missing after a dollar sign are hidden by any
shape of operand that does not begin there. `Grammar.shadowed` tells these instructions by their
first characters, and the hint of a statement names the furthest failure exactly for the others
(`Grammar.namesFurthest_statement_iff`).
-/

namespace Asm65816

namespace Grammar

open Rule

variable {limit : Nat} {c : Cursor} {f : Failure}

/-! ## Operands -/

theorem opens_opened {bracket : Char} : Opens bracket (opened limit bracket) := by
  refine opens_cursor_bind fun start => (opens_token Failure.reports_lexical).bind (fun _ => ?_)
    fun _ c f hf hfatal => ?_
  · exact (forward_enter ..).bind fun i => (i.advances.within ..).forward
  · rcases run_bind_eq_error.1 hf with hf | ⟨i, d, henter, hf⟩
    · rw [fatal_of_enter_error hf] at hfatal
      cases hfatal
    · obtain ⟨hi, rfl⟩ := run_enter_eq_ok.1 henter
      exact ahead_of_fails (fun first => (fails_inside i hi first).within ..) hf hfatal

theorem opens_enclosed {opening closing : Char} :
    Opens opening (enclosed limit opening closing) := by
  refine opens_opened.bind (fun _ => ?_) fun _ => ahead_of_fails fun _ => ?_
  · exact (advances_needed closing).forward.bind fun _ => forward_pure _
  · exact fails_token_bind Failure.reports_mismatch fun _ => fails_pure _

theorem opens_enclosedIndexed {letter : Char} : Opens '(' (enclosedIndexed limit letter) := by
  refine opens_opened.bind (fun _ => ?_) fun _ => ahead_of_fails fun _ => ?_
  · exact (advances_indexedBy letter).forward.bind fun _ =>
      (advances_needed ')').forward.bind fun _ => forward_pure _
  · exact fails_indexedBy.bind (advances_indexedBy letter).forward fun _ =>
      fails_token_bind Failure.reports_mismatch fun _ => fails_pure _

section
variable {r : Rule Expr} {ch letter : Char} {shape : Shape}

theorem opens_shape (h : Opens ch r) :
    Opens ch (do let e ← r; pure (Operand.valued shape e) : Rule Operand) :=
  h.bind (fun _ => forward_pure _) fun _ => ahead_of_fails fun _ => fails_pure _

theorem opens_shape_indexed (h : Opens ch r) :
    Opens ch (do let e ← r; indexedBy letter; pure (Operand.valued shape e) : Rule Operand) := by
  refine h.bind (fun _ => ?_) fun _ => ahead_of_fails fun _ => ?_
  · exact (advances_indexedBy letter).forward.bind fun _ => forward_pure _
  · exact fails_indexedBy.bind (advances_indexedBy letter).forward fun _ => fails_pure _

end

theorem opens_indirect : Opens '(' (indirect limit) := by
  refine opens_enclosed.bind (fun _ => ?_) fun _ => ahead_of_fails fun _ => ?_
  · refine forward_cursor.bind fun c => ?_
    split
    · exact (advances_fail _).forward
    · exact forward_pure _
  · refine fails_cursor_bind fun c => ?_
    split
    · exact fails_fail trivial
    · exact fails_pure _

theorem opens_immediate : Opens '#' (immediate limit) := by
  refine (opens_token Failure.reports_lexical).bind (fun _ => ?_) fun _ =>
    ahead_of_fails fun _ => ?_
  · exact ((value limit).advances.within ..).forward.bind fun _ => forward_pure _
  · exact ((fails_value limit _).within ..).bind ((value limit).advances.within ..).forward
      fun _ => fails_pure _

/-- The failure of a shape that begins with a character: where the character is missing, or after
it. -/
structure Begun (ch : Char) (c : Cursor) (f : Failure) : Prop where
  plain : f.Plain
  missing : c.skipBlank.peek? ≠ some ch → f.offset = c.skipBlank.pos
  past : c.skipBlank.peek? = some ch → c.skipBlank.pos < f.offset

theorem begun_of_opens {α : Type} {r : Rule α} {ch : Char} (hopens : Opens ch r)
    (hfails : r.Fails true c.pos) (h : r.run c = .error f ∧ f.fatal = false) : Begun ch c f where
  plain := (hfails (Nat.le_refl _) h.1).2 rfl
  missing := hopens.missing h.1 h.2
  past := hopens.past h.1 h.2

theorem Begun.le {ch : Char} (h : Begun ch c f) : c.skipBlank.pos ≤ f.offset := by
  by_cases hpeek : c.skipBlank.peek? = some ch
  · exact Int.le_of_lt (h.past hpeek)
  · exact Int.le_of_eq (h.missing hpeek).symm

/-- The failures of an operand's ten shapes. The first eight, `fs`, begin with a character or with
the value, the ninth is in parentheses, and the last wants the statement to end. -/
structure ShapeFailures (limit : Nat) (c : Cursor) (fs : List Failure) (ninth last : Failure) :
    Prop where
  begun_or_value : ∀ g ∈ fs, (∃ ch ∈ ['(', '[', '#'], Begun ch c g) ∨
    (value limit).run c = .error g ∧ g.fatal = false
  exists_begun : ∀ ch ∈ ['(', '[', '#'], ∃ g ∈ fs, Begun ch c g
  exists_value : ∃ g ∈ fs, (value limit).run c = .error g ∧ g.fatal = false
  exists_indirectY : ∃ g ∈ fs, (indirectY limit).run c = .error g ∧ g.fatal = false
  begun_ninth : Begun '(' c ninth
  plain_last : last.Plain
  offset_last : last.offset = c.pos

theorem run_operand_error (h : (operand limit).run c = .error f) (hfatal : f.fatal = false) :
    ∃ fs ninth last, f = .ofAlternatives (.expected "operand") c.pos none (fs ++ [ninth, last]) ∧
      ShapeFailures limit c fs ninth last := by
  rcases run_choice_error h with ⟨hfatal', -⟩ | ⟨fs, rfl, hfs⟩
  · rw [hfatal] at hfatal'
    cases hfatal'
  · rcases hfs with _ | ⟨h₁, _ | ⟨h₂, _ | ⟨h₃, _ | ⟨h₄, _ | ⟨h₅, _ | ⟨h₆, _ | ⟨h₇, _ | ⟨h₈,
      _ | ⟨h₉, _ | ⟨h₁₀, _ | _⟩⟩⟩⟩⟩⟩⟩⟩⟩⟩
    rename_i f₁ f₂ f₃ f₄ f₅ f₆ f₇ f₈ f₉ f₁₀
    have hb₁ : Begun '(' c f₁ := begun_of_opens (opens_shape_indexed opens_enclosed)
      (fails_shape_indexed fails_enclosed (advances_enclosed ..)) h₁
    have hb₂ : Begun '(' c f₂ := begun_of_opens opens_indirect fails_indirect h₂
    have hb₃ : Begun '(' c f₃ := begun_of_opens (opens_shape opens_enclosedIndexed)
      (fails_shape fails_enclosedIndexed (advances_enclosedIndexed ..)) h₃
    -- A move fails in its first value, as an address does, since the value is the same.
    have h₅ : (value limit).run c = .error f₅ ∧ f₅.fatal = false := ⟨run_map_error h₅.1, h₅.2⟩
    have h₄ : (value limit).run c = .error f₄ ∧ f₄.fatal = false := by
      refine ⟨?_, h₄.2⟩
      rcases run_bind_eq_error.1 h₄.1 with hv | ⟨_, _, hv, -⟩
      · exact hv
      · rw [h₅.1] at hv
        cases hv
    have hb₆ : Begun '#' c f₆ := begun_of_opens opens_immediate fails_immediate h₆
    have hb₇ : Begun '[' c f₇ := begun_of_opens (opens_shape_indexed opens_enclosed)
      (fails_shape_indexed fails_enclosed (advances_enclosed ..)) h₇
    have hb₈ : Begun '[' c f₈ := begun_of_opens (opens_shape opens_enclosed)
      (fails_shape fails_enclosed (advances_enclosed ..)) h₈
    refine ⟨[f₁, f₂, f₃, f₄, f₅, f₆, f₇, f₈], f₉, f₁₀, rfl, ?_⟩
    constructor
    case begun_or_value =>
      simp only [List.mem_cons, List.not_mem_nil, or_false, forall_eq_or_imp, forall_eq]
      exact ⟨.inl ⟨_, .inl rfl, hb₁⟩, .inl ⟨_, .inl rfl, hb₂⟩, .inl ⟨_, .inl rfl, hb₃⟩, .inr h₄,
        .inr h₅, .inl ⟨_, .inr (.inr rfl), hb₆⟩, .inl ⟨_, .inr (.inl rfl), hb₇⟩,
        .inl ⟨_, .inr (.inl rfl), hb₈⟩⟩
    case exists_begun =>
      simp only [List.mem_cons, List.not_mem_nil, or_false, forall_eq_or_imp, forall_eq]
      exact ⟨⟨f₁, by simp, hb₁⟩, ⟨f₇, by simp, hb₇⟩, ⟨f₆, by simp, hb₆⟩⟩
    case exists_value => exact ⟨f₅, by simp, h₅⟩
    case exists_indirectY => exact ⟨f₁, by simp, h₁⟩
    case begun_ninth =>
      exact begun_of_opens (opens_shape_indexed opens_enclosedIndexed)
        (fails_shape_indexed fails_enclosedIndexed (advances_enclosedIndexed ..)) h₉
    case plain_last => exact (fails_implied (Nat.le_refl c.pos) h₁₀.1).2 rfl
    case offset_last =>
      have himplied := h₁₀.1
      rw [implied, run_cursor_bind] at himplied
      split at himplied
      · cases himplied
      · cases himplied
        rfl

/-- Where no shape begins, all of them but the last fail there. -/
theorem ShapeFailures.offset_eq {fs : List Failure} {ninth last : Failure}
    (h : ShapeFailures limit c fs ninth last)
    (hpeek : ∀ ch ∈ ['(', '[', '#'], c.skipBlank.peek? ≠ some ch) :
    (∀ g ∈ fs, g.offset = c.skipBlank.pos) ∧ ninth.offset = c.skipBlank.pos := by
  refine ⟨fun g hg => ?_, h.begun_ninth.missing (hpeek '(' (by simp))⟩
  rcases h.begun_or_value g hg with ⟨ch, hch, hbegun⟩ | ⟨hrun, hfatal⟩
  · exact hbegun.missing (hpeek ch hch)
  · exact offset_of_expression_error hrun hfatal

section
variable (h : (operand limit).run c = .error f) (hfatal : f.fatal = false)
include h hfatal

/-- An operand counts as far as it began, blanks not included. -/
theorem offset_of_operand_error : f.offset = c.pos := by
  obtain ⟨_, _, _, rfl, -⟩ := run_operand_error h hfatal
  rfl

/-- Unless digits are missing after a dollar sign, no failure is beyond those of the shapes. -/
theorem noneBeyond_operand (hpeek : c.skipBlank.peek? ≠ some '$') {p : Int}
    (hp : ∀ g ∈ f.failures, g.offset ≤ p) : f.NoneBeyond p := by
  obtain ⟨fs, ninth, last, rfl, hshapes⟩ := run_operand_error h hfatal
  rw [Failure.failures_ofAlternatives] at hp
  rw [Failure.noneBeyond_ofAlternatives_iff]
  intro g hg
  have hle := hp g hg
  rcases List.mem_append.1 hg with hg | hg
  · rcases hshapes.begun_or_value g hg with ⟨ch, -, hbegun⟩ | ⟨hrun, hgf⟩
    · exact hbegun.plain.noneBeyond_iff.2 hle
    · obtain ⟨y, hy, hyrun, hyf⟩ := hshapes.exists_indirectY
      have hpos := Int.le_trans hshapes.begun_ninth.le (hp ninth (by simp))
      exact noneBeyond_of_value hrun hgf hyrun hyf hpeek hpos (hp y (List.mem_append_left _ hy))
  · simp only [List.mem_cons, List.not_mem_nil, or_false] at hg
    rcases hg with rfl | rfl
    · exact hshapes.begun_ninth.plain.noneBeyond_iff.2 hle
    · exact hshapes.plain_last.noneBeyond_iff.2 hle

/-- Where digits are missing after a dollar sign the hint is about a shape that does not begin
there: the last but one, or the last if no blanks come first. -/
theorem deepest_operand_of_dollar (hpeek : c.skipBlank.peek? = some '$') :
    f.deepest.offset = c.skipBlank.pos ∧ ¬ f.NoneBeyond c.skipBlank.pos := by
  obtain ⟨fs, ninth, last, rfl, hshapes⟩ := run_operand_error h hfatal
  obtain ⟨hbefore, hninth⟩ := hshapes.offset_eq (by simp [hpeek])
  have hlast := hshapes.offset_last
  have hskip := c.reads_skipBlank.pos_le
  refine ⟨?_, fun hnone => ?_⟩
  · by_cases hblank : c.pos < c.skipBlank.pos
    · have hfurthest : Failure.furthest? (fs ++ [ninth, last]) = some ninth := by
        refine Failure.furthest?_append_cons (fun g hg => ?_) fun g hg => ?_
        · exact Int.le_of_eq ((hbefore g hg).trans hninth.symm)
        · obtain rfl := List.mem_singleton.1 hg
          omega
      rw [Failure.deepest_ofAlternatives hfurthest, hshapes.begun_ninth.plain.deepest_eq, hninth]
    · have hfurthest : Failure.furthest? ((fs ++ [ninth]) ++ [last]) = some last := by
        refine Failure.furthest?_append_cons (fun g hg => ?_) fun g hg => absurd hg List.not_mem_nil
        rcases List.mem_append.1 hg with hg | hg
        · have := hbefore g hg
          omega
        · obtain rfl := List.mem_singleton.1 hg
          omega
      rw [List.append_assoc, List.singleton_append] at hfurthest
      rw [Failure.deepest_ofAlternatives hfurthest, hshapes.plain_last.deepest_eq]
      omega
  · obtain ⟨v, hv, hrun, hvf⟩ := hshapes.exists_value
    have hmembers := Failure.noneBeyond_ofAlternatives_iff.1 hnone
    exact not_noneBeyond_of_dollar hrun hvf hpeek (hmembers v (List.mem_append_left _ hv))

theorem namesFurthest_operand_iff : f.NamesFurthest ↔ c.skipBlank.peek? ≠ some '$' := by
  constructor
  · intro hnames hpeek
    obtain ⟨hdeepest, hnot⟩ := deepest_operand_of_dollar h hfatal hpeek
    rw [Failure.NamesFurthest, hdeepest] at hnames
    exact hnot hnames
  · intro hpeek
    have hproper := (fails_operand (Nat.le_refl c.pos) h).1
    exact noneBeyond_operand h hfatal hpeek fun g hg => hproper.le_deepest_of_mem hg

/-- A failure is beyond the first character of the operand exactly if a shape or a number begins
with the character. -/
theorem noneBeyond_operand_iff : f.NoneBeyond c.skipBlank.pos ↔
    c.skipBlank.peek? ≠ some '$' ∧ ∀ ch ∈ ['(', '[', '#'], c.skipBlank.peek? ≠ some ch := by
  constructor
  · intro hnone
    refine ⟨fun hpeek => (deepest_operand_of_dollar h hfatal hpeek).2 hnone, fun ch hch hpeek => ?_⟩
    obtain ⟨fs, ninth, last, rfl, hshapes⟩ := run_operand_error h hfatal
    obtain ⟨g, hg, hbegun⟩ := hshapes.exists_begun ch hch
    have hmembers := Failure.noneBeyond_ofAlternatives_iff.1 hnone
    have hle := hbegun.plain.noneBeyond_iff.1 (hmembers g (List.mem_append_left _ hg))
    have hlt := hbegun.past hpeek
    omega
  · rintro ⟨hdollar, hpeek⟩
    refine noneBeyond_operand h hfatal hdollar fun g hg => ?_
    obtain ⟨fs, ninth, last, rfl, hshapes⟩ := run_operand_error h hfatal
    obtain ⟨hbefore, hninth⟩ := hshapes.offset_eq hpeek
    have hlast := hshapes.offset_last
    have hskip := c.reads_skipBlank.pos_le
    rw [Failure.failures_ofAlternatives, List.mem_append] at hg
    rcases hg with hg | hg
    · exact Int.le_of_eq (hbefore g hg)
    · simp only [List.mem_cons, List.not_mem_nil, or_false] at hg
      rcases hg with rfl | rfl
      all_goals omega

end

/-! ## Statements -/

section
variable {m : Cursor} {name : String} (hname : Token.identifier.run c = .ok (name, m))
  (hfatal : f.fatal = false)
include hname

theorem reads_of_identifier : c.pos ≤ m.pos ∧ m.pos ≤ m.skipBlank.pos := by
  obtain ⟨-, hread, -⟩ := Token.run_identifier_eq_ok.1 hname
  exact ⟨hread.pos_le, m.reads_skipBlank.pos_le⟩

include hfatal in
/-- The keyword fails at its name, or where its address should begin. -/
theorem offset_of_keyword_error (h : (keyword limit).run c = .error f) :
    f.offset ≤ m.skipBlank.pos := by
  obtain ⟨hpos, hskip⟩ := reads_of_identifier hname
  rw [keyword, run_cursor_bind, run_bind, hname] at h
  dsimp only at h
  split at h
  · obtain ⟨v, hv, rfl⟩ := run_within_error (run_map_error h)
    rw [Failure.offset_within]
    exact Int.le_of_eq (offset_of_expression_error hv (Failure.fatal_of_within hfatal))
  · cases h
    show (c.pos : Int) ≤ m.skipBlank.pos
    omega

/-- A label fails where its colon should stand. -/
theorem offset_of_label_error (h : labelDeclaration.run c = .error f) : f.offset = m.pos := by
  rw [labelDeclaration, run_cursor_bind, if_neg (Token.not_marker_of_identifier hname), run_bind,
    hname] at h
  exact (run_char_error Failure.reports_lexical (run_lexeme_error (run_map_error h))).1

include hfatal in
/-- An assignment fails where its equals sign should stand, or after it. -/
theorem begun_of_assignment (h : (assignmentStatement limit).run c = .error f) : Begun '=' m f := by
  have hplain := (fails_assignmentStatement (Nat.le_refl c.pos) h).2 rfl
  have hopens : ∀ what, Opens '=' (do
      let _ ← token ['='] "'='" Failure.lexical
      let e ← (value limit).within what false
      pure (name, e) : Rule (String × Expr)) := by
    intro what
    refine (opens_token Failure.reports_lexical).bind (fun _ => ?_) fun _ =>
      ahead_of_fails fun _ => ?_
    · exact ((value limit).advances.within ..).forward.bind fun _ => forward_pure _
    · exact ((fails_value limit _).within ..).bind ((value limit).advances.within ..).forward
        fun _ => fails_pure _
  rcases run_bind_eq_error.1 h with h | ⟨_, _, -, h⟩
  · rw [assignment, run_bind, hname] at h
    exact ⟨hplain, (hopens _).missing h hfatal, (hopens _).past h hfatal⟩
  · cases h

end

/-- Whether a statement that fails at `c` is an instruction whose hint is about another failure than
the furthest one: its operand begins with a dollar sign; or it has no size suffix, and its operand
begins after blanks with a bracket or with the mark of an immediate value. -/
def shadowed (c : Cursor) : Bool :=
  match Token.identifier.run c with
  | .error _ => false
  | .ok (_, m) =>
    match sizeSuffix.run m with
    | .error _ => false
    | .ok (size, o) =>
      o.skipBlank.peek? = some '$' ||
        size.isNone && o.pos < o.skipBlank.pos && o.skipBlank.peek?.any ['(', '[', '#'].contains

/-- An instruction without a name or with a broken size suffix hides nothing; the others fail as
their operands do. -/
theorem run_instruction_error (h : (instruction limit).run c = .error f) :
    (f.Plain ∧ shadowed c = false) ∨
    ∃ name m size o, Token.identifier.run c = .ok (name, m) ∧ sizeSuffix.run m = .ok (size, o) ∧
      (operand limit).run o = .error f := by
  rcases run_bind_eq_error.1 h with h | ⟨name, m, hname, h⟩
  · refine .inl ⟨(Token.fails_identifier (Nat.le_refl c.pos) h).2 rfl, ?_⟩
    simp only [shadowed, h]
  · rcases run_bind_eq_error.1 h with h | ⟨size, o, hsize, h⟩
    · refine .inl ⟨(fails_sizeSuffix (Nat.le_refl m.pos) h).2 rfl, ?_⟩
      simp only [shadowed, hname, h]
    · rcases run_bind_eq_error.1 h with h | ⟨_, _, -, h⟩
      · exact .inr ⟨name, m, size, o, hname, hsize, h⟩
      · cases h

section
variable {m o : Cursor} {fk fl fa fi : Failure} {reason : Reason} {offset : Int}
  {hint : Option String} (hk : fk.Plain) (hl : fl.Plain) (ha : Begun '=' m fa)
  (hko : fk.offset ≤ m.skipBlank.pos) (hlo : fl.offset = m.pos)
  (ho : (operand limit).run o = .error fi) (hfi : fi.fatal = false)
include hk hl ha hko hlo ho hfi

/-- An operand that counts as far as an assignment gives the statement its hint. -/
theorem namesFurthest_of_operand (hle : fa.offset ≤ o.pos) :
    (Failure.ofAlternatives reason offset hint [fk, fl, fa, fi]).NamesFurthest ↔
      o.skipBlank.peek? ≠ some '$' := by
  have hskip := m.reads_skipBlank.pos_le
  have hassignment := ha.le
  have hdeepest := (fails_operand (Nat.le_refl o.pos) ho).1.offset_le_deepest
  have hoffset := offset_of_operand_error ho hfi
  rw [← namesFurthest_operand_iff ho hfi]
  show (Failure.ofAlternatives reason offset hint ([fk, fl, fa] ++ [fi])).NamesFurthest ↔ _
  refine Failure.namesFurthest_last_iff (fun g hg => ?_) (fun g hg => ?_) hdeepest
  all_goals
    simp only [List.mem_cons, List.not_mem_nil, or_false] at hg
    rcases hg with rfl | rfl | rfl
  · exact hk
  · exact hl
  · exact ha.plain
  · omega
  · omega
  · omega

/-- An operand that does not count as far as an assignment loses its hint to it. -/
theorem namesFurthest_of_assignment (hlt : o.pos < fa.offset) :
    (Failure.ofAlternatives reason offset hint [fk, fl, fa, fi]).NamesFurthest ↔
      fi.NoneBeyond fa.offset := by
  have hskip := m.reads_skipBlank.pos_le
  have hassignment := ha.le
  rw [← offset_of_operand_error ho hfi] at hlt
  show (Failure.ofAlternatives reason offset hint ([fk, fl] ++ [fa, fi])).NamesFurthest ↔ _
  refine Failure.namesFurthest_last_but_one_iff (fun g hg => ?_) ha.plain (fun g hg => ?_) hlt
  all_goals
    simp only [List.mem_cons, List.not_mem_nil, or_false] at hg
    rcases hg with rfl | rfl
  · exact hk
  · exact hl
  · omega
  · omega

end

section
variable {m : Cursor} {fk fl fa fi : Failure} {reason : Reason} {offset : Int}
  {hint : Option String} (hk : fk.Plain) (hl : fl.Plain) (ha : Begun '=' m fa)
  (hko : fk.offset ≤ m.skipBlank.pos) (hlo : fl.offset = m.pos)
  (ho : (operand limit).run m = .error fi) (hfi : fi.fatal = false)
include hk hl ha hko hlo ho hfi

/-- Without a suffix the operand begins where the assignment does, so it counts as far only if no
blanks come first. -/
theorem namesFurthest_unsized_iff :
    (Failure.ofAlternatives reason offset hint [fk, fl, fa, fi]).NamesFurthest ↔
      m.skipBlank.peek? ≠ some '$' ∧
        (m.pos < m.skipBlank.pos → ∀ ch ∈ ['(', '[', '#'], m.skipBlank.peek? ≠ some ch) := by
  have hassignment := ha.le
  have hskip := m.reads_skipBlank.pos_le
  by_cases hle : fa.offset ≤ m.pos
  · -- The equals sign is missing right after the name, so no blanks stand there.
    have hsettled : ¬ m.pos < m.skipBlank.pos := by omega
    rw [namesFurthest_of_operand hk hl ha hko hlo ho hfi hle, and_iff_left]
    exact fun hlt => absurd hlt hsettled
  · have hlt : m.pos < fa.offset := by omega
    rw [namesFurthest_of_assignment hk hl ha hko hlo ho hfi hlt]
    by_cases hequals : m.skipBlank.peek? = some '='
    · -- What follows the equals sign is beyond the operand.
      have hdollar : m.skipBlank.peek? ≠ some '$' := by simp [hequals]
      have hother : ∀ ch ∈ ['(', '[', '#'], m.skipBlank.peek? ≠ some ch := by simp [hequals]
      have hnone := (noneBeyond_operand_iff ho hfi).2 ⟨hdollar, hother⟩
      have hpast := ha.past hequals
      refine iff_of_true (fun g hg hplain => ?_) ⟨hdollar, fun _ => hother⟩
      have := hnone g hg hplain
      omega
    · have hblank : m.pos < m.skipBlank.pos := by
        have := ha.missing hequals
        omega
      rw [ha.missing hequals, noneBeyond_operand_iff ho hfi, forall_prop_of_true hblank]

end

/-- The hint of a statement names the furthest failure exactly if the statement is not shadowed. -/
theorem namesFurthest_statement_iff (h : (statement limit).run c = .error f)
    (hfatal : f.fatal = false) : f.NamesFurthest ↔ shadowed c = false := by
  have hproper := (fails_statement limit c.pos (Nat.le_refl _) h).1
  rcases run_statement_error h with hf | ⟨fk, fl, fa, fi, rfl, hk, hl, ha, hi⟩
  · rw [hfatal] at hf
    cases hf
  · have hmembers := (hproper.of_exhausted rfl).2.1
    rw [Failure.failures_ofAlternatives] at hmembers
    have hkp : fk.Plain := (fails_keyword (Nat.le_refl c.pos) hk).2 rfl
    have hlp : fl.Plain := (fails_labelDeclaration (Nat.le_refl c.pos) hl).2 rfl
    rcases run_instruction_error hi with ⟨hip, hshadowed⟩ | ⟨name, m, size, o, hname, hsize, ho⟩
    · have hap : fa.Plain := (fails_assignmentStatement (Nat.le_refl c.pos) ha).2 rfl
      refine iff_of_true (Failure.namesFurthest_of_plain (by simp) ?_) hshadowed
      simp only [List.mem_cons, List.not_mem_nil, or_false, forall_eq_or_imp, forall_eq]
      exact ⟨hkp, hlp, hap, hip⟩
    · have hko := offset_of_keyword_error hname (hmembers fk (by simp)).1 hk
      have hlo := offset_of_label_error hname hl
      have hab := begun_of_assignment hname (hmembers fa (by simp)).1 ha
      have hfi := (hmembers fi (by simp)).1
      simp only [shadowed, hname, hsize]
      rcases run_sizeSuffix_eq_ok.1 hsize with ⟨rfl, rfl, -⟩ | ⟨z, d, ch, rfl, hdot, hread, -⟩
      · rw [namesFurthest_unsized_iff hkp hlp hab hko hlo ho hfi]
        cases m.skipBlank.peek? with
        | none => simp
        | some ch => by_cases hblank : m.pos < m.skipBlank.pos <;> simp [hblank]
      · -- The suffix has been read where the other kinds fail.
        have hle : fa.offset ≤ o.pos := by
          have hmissing : fa.offset = m.skipBlank.pos := hab.missing (by rw [hdot.peek?]; decide)
          obtain ⟨-, b, -, hdot⟩ := hdot
          have := hdot.pos_le
          have := hread.pos_le
          omega
        rw [namesFurthest_of_operand hkp hlp hab hko hlo ho hfi hle]
        simp

end Grammar

/-! ## Whole texts -/

theorem Rule.parse_eq_error {α : Type} {r : Rule α} {text : String} {d : Diagnostic}
    (h : Rule.parse (do skipBlank; r) text = .error d) :
    r.run (Cursor.ofText text.toList 0).skipBlank = .error d.failure := by
  obtain ⟨f, hrun, rfl⟩ := Rule.parse_error_iff.1 h
  exact hrun

theorem Failure.fatal_of_exhausted {f : Failure} (h : f.kind = .exhausted) : f.fatal = false := by
  cases f with
  | leaf => exact absurd h (plain_leaf _ _ _)
  | exhausted => rfl

/-- Where the hint of a failed choice comes from. It is always in the words of the deepest failure.
For an expression this is one that got furthest. For a statement it is, unless the statement is an
instruction of those that are told by their first characters (`Grammar.shadowed`), and for these it
never is. -/
theorem namesFurthest_of_parse {d : Diagnostic} (hkind : d.failure.kind = .exhausted)
    (depth : Depth) (text : String) :
    (Expr.parse depth text = .error d →
      d.failure.hint = some d.failure.deepest.message ∧ d.failure.NamesFurthest) ∧
    (Statement.parse depth text = .error d →
      d.failure.hint = some d.failure.deepest.message ∧
        (d.failure.NamesFurthest ↔
          Grammar.shadowed (Cursor.ofText text.toList 0).skipBlank = false)) := by
  have hfatal := Failure.fatal_of_exhausted hkind
  refine ⟨fun h => ?_, fun h => ?_⟩
  · have hrun := Rule.parse_eq_error h
    have hproper := (Grammar.fails_value depth.levels _ (Nat.le_refl _) hrun).1
    exact ⟨(hproper.of_exhausted hkind).2.2.2, Grammar.namesFurthest_expression hrun hfatal⟩
  · have hrun := Rule.parse_eq_error h
    have hproper := (Grammar.fails_statement depth.levels _ (Nat.le_refl _) hrun).1
    exact ⟨(hproper.of_exhausted hkind).2.2.2, Grammar.namesFurthest_statement_iff hrun hfatal⟩

/-- An open parenthesis in an expression, in the operand of an instruction with a suffix, and in the
operand of one without. -/
theorem namesFurthest_of_parse_open :
    (∃ d, Expr.parse .default "(1" = .error d ∧ d.failure.kind = .exhausted ∧
      d.failure.NamesFurthest) ∧
    (∃ d, Statement.parse .default "LDA.w (1" = .error d ∧ d.failure.kind = .exhausted ∧
      d.failure.NamesFurthest) ∧
    ∃ d, Statement.parse .default "LDA (1" = .error d ∧ d.failure.kind = .exhausted ∧
      ¬ d.failure.NamesFurthest := by
  have hexpr : (Expr.parse .default "(1").mapError (·.failure.kind) = .error .exhausted := by
    decide +kernel
  have hsized : (Statement.parse .default "LDA.w (1").mapError (·.failure.kind) =
      .error .exhausted := by decide +kernel
  have hplain : (Statement.parse .default "LDA (1").mapError (·.failure.kind) =
      .error .exhausted := by decide +kernel
  obtain ⟨d₁, h₁, hkind₁⟩ := exists_of_mapError hexpr
  obtain ⟨d₂, h₂, hkind₂⟩ := exists_of_mapError hsized
  obtain ⟨d₃, h₃, hkind₃⟩ := exists_of_mapError hplain
  refine ⟨⟨d₁, h₁, hkind₁, ((namesFurthest_of_parse hkind₁ ..).1 h₁).2⟩, ⟨d₂, h₂, hkind₂, ?_⟩,
    d₃, h₃, hkind₃, ?_⟩
  · rw [((namesFurthest_of_parse hkind₂ ..).2 h₂).2]
    decide +kernel
  · rw [((namesFurthest_of_parse hkind₃ ..).2 h₃).2]
    decide +kernel

/-- The missing equals sign of an assignment gives the hint, though another failure is five
characters further on. -/
theorem statement_hint_of_register :
    ∃ d, Statement.parse .default "LDA ($10,q)" = .error d ∧ d.failure.kind = .exhausted ∧
      d.failure.deepest = .lexical (.missing "'='" (some '(')) 4 ∧
      Failure.mismatch (.expected "register 's'") 9 ∈ d.failure.nodes ∧
      ¬ d.failure.NamesFurthest := by
  have hrun : (Statement.parse .default "LDA ($10,q)").mapError (fun d =>
      (d.failure.kind, d.failure.deepest,
        decide (Failure.mismatch (.expected "register 's'") 9 ∈ d.failure.nodes))) =
      .error (.exhausted, .lexical (.missing "'='" (some '(')) 4, true) := by decide +kernel
  obtain ⟨d, hd, hd'⟩ := exists_of_mapError hrun
  rw [Prod.mk.injEq, Prod.mk.injEq, decide_eq_true_eq] at hd'
  obtain ⟨hkind, hdeepest, hmem⟩ := hd'
  refine ⟨d, hd, hkind, hdeepest, hmem, fun hnames => ?_⟩
  have hle := hnames _ hmem (Failure.plain_leaf _ _ _)
  rw [hdeepest] at hle
  exact absurd hle (by decide)

end Asm65816
