import Asm65816.Line
import Asm65816.Proofs.Soundness

/-!
# Nothing of a line is lost

A statement is read from the start of what is left of a line, and it may leave text behind: an
operator without an operand, a comma, a bracket. Reading a line never drops such a text. The code of
a line that is read is cut into the spans of its statements, and between them stand blanks and
colons only (`Line.Cut`); and where a line fails, all that is before the place is cut so
(`Line.Stuck`).

The proof goes along the recursion over the line. A step puts a colon or a statement with the blanks
after it in front of what is cut already.
-/

namespace Asm65816

open Text (Blanks isBlank)

/-! ## Places of a text -/

namespace Cursor

variable {text t : List Char} {c d : Cursor} {i : Nat}

/-- The cursor stands at a place of the text. -/
def StandsIn (c : Cursor) (text : List Char) : Prop := ∃ before, (ofText text 0).Reads before c

theorem standsIn_ofText_zero (text : List Char) : (ofText text 0).StandsIn text :=
  ⟨[], reads_nil _⟩

namespace StandsIn

variable (h : c.StandsIn text)
include h

theorem of_reads (hr : c.Reads t d) : d.StandsIn text := by
  obtain ⟨before, hbefore⟩ := h
  exact ⟨before ++ t, hbefore.append hr⟩

theorem skipBlank : c.skipBlank.StandsIn text := h.of_reads c.reads_skipBlank

theorem eq_ofText : c = ofText text c.pos := by
  obtain ⟨before, hrest, hpos⟩ := h
  obtain ⟨pos, rest⟩ := c
  have htext : text = before ++ rest := hrest
  have hlength : pos = before.length := by simpa [ofText] using hpos
  rw [ofText, htext, hlength, List.drop_left]

theorem pos_le : c.pos ≤ text.length := by
  obtain ⟨before, hrest, hpos⟩ := h
  have htext : text = before ++ c.rest := hrest
  have hlength : c.pos = before.length := by simpa [ofText] using hpos
  rw [htext, hlength, List.length_append]
  omega

theorem pos_eq_of_nil (hrest : c.rest = []) : c.pos = text.length := by
  obtain ⟨before, htext, hpos⟩ := h
  have htext : text = before ++ c.rest := htext
  have hlength : c.pos = before.length := by simpa [ofText] using hpos
  rw [htext, hrest, hlength, List.append_nil]

theorem peek?_eq : c.peek? = text[c.pos]? := by
  rw [h.eq_ofText, peek?, ofText, List.head?_drop]

/-- A character between two places is one of those read there. -/
theorem getElem?_of_reads (hr : c.Reads t d) (hi : c.pos ≤ i) (hlt : i < d.pos) :
    ∃ ch ∈ t, text[i]? = some ch := by
  have hdrop : text.drop c.pos = t ++ d.rest := by
    rw [← hr.1, h.eq_ofText]
    rfl
  have hindex : i - c.pos < t.length := by
    have := hr.2
    omega
  have hsplit : text[c.pos + (i - c.pos)]? = t[i - c.pos]? := by
    rw [← List.getElem?_drop, hdrop, List.getElem?_append_left hindex]
  rw [Nat.add_sub_cancel' hi] at hsplit
  exact ⟨t[i - c.pos], List.getElem_mem hindex, hsplit.trans (List.getElem?_eq_getElem hindex)⟩

end StandsIn

end Cursor

/-! ## Cuts -/

namespace Line

variable {limit first mid last pos start : Nat} {text : List Char} {c d : Cursor} {s : Statement}
  {x : Span} {spans : List Span} {f : Failure} {ch : Char}

/-- What stands between the statements of a line. -/
def isGap (ch : Char) : Bool := isBlank ch || ch = ':'

/-- A statement and the part of the code that it was read from. -/
structure Span where
  start : Nat
  stop : Nat
  statement : Statement
  deriving DecidableEq

/-- The statement of a span at its place in a file. -/
def Span.located (file : String) (number : Int) (x : Span) : Located :=
  ⟨x.statement, ⟨file, number, x.start + 1⟩⟩

/-- A statement can begin here: no blank and no colon stands at the position. -/
def Begins (text : List Char) (pos : Nat) : Prop := ∃ ch, text[pos]? = some ch ∧ isGap ch = false

/-- A colon stands between a span and a position, unless the span declares a label. -/
def Separated (text : List Char) (x : Span) (pos : Nat) : Prop :=
  x.statement.isLabel = false → ∃ i, x.stop ≤ i ∧ i < pos ∧ text[i]? = some ':'

/-- The code from one position to another is cut into the spans of statements. -/
structure Cut (limit : Nat) (text : List Char) (first last : Nat) (spans : List Span) : Prop where
  le : first ≤ last
  /-- Each statement is what the grammar reads at its start, and the span ends where the grammar
  stops. -/
  read : ∀ x ∈ spans, (Grammar.statement limit).run (.ofText text x.start) =
    .ok (x.statement, .ofText text x.stop)
  within : ∀ x ∈ spans, first ≤ x.start ∧ x.start < x.stop ∧ x.stop ≤ last
  ordered : spans.Pairwise fun x y => x.stop ≤ y.start
  begins : ∀ x ∈ spans, Begins text x.start
  /-- What is in no span is a blank or a colon. -/
  gaps : ∀ i, first ≤ i → i < last → (∀ x ∈ spans, i < x.start ∨ x.stop ≤ i) →
    ∃ ch, text[i]? = some ch ∧ isGap ch = true
  separated : ∀ before x y after, spans = before ++ x :: y :: after → Separated text x y.start

/-- Why nothing can be read from a position on, after some spans. -/
inductive Stuck (limit : Nat) (text : List Char) (spans : List Span) (pos : Nat) : Failure → Prop
  /-- The statement that begins here fails. -/
  | statement {f : Failure} : Begins text pos →
      (∀ x, spans.getLast? = some x → Separated text x pos) →
      (Grammar.statement limit).run (.ofText text pos) = .error f → Stuck limit text spans pos f
  /-- Something else than a colon follows a statement that declares no label. -/
  | leftover {x : Span} : spans.getLast? = some x → x.statement.isLabel = false →
      (∀ i, x.stop ≤ i → i < pos → ∃ ch, text[i]? = some ch ∧ isBlank ch = true) →
      Begins text pos → Stuck limit text spans pos (Line.leftover (.ofText text pos))

theorem Stuck.begins (h : Stuck limit text spans pos f) : Begins text pos := by
  cases h with
  | statement hbegins _ _ => exact hbegins
  | leftover _ _ _ hbegins => exact hbegins

/-- Where nothing can be read after some spans, nothing can after more of them before. -/
theorem Stuck.cons (h : Stuck limit text spans pos f) (hsep : Separated text x pos) :
    Stuck limit text (x :: spans) pos f := by
  cases h with
  | statement hbegins hlast hrun =>
    refine .statement hbegins (fun y hy => ?_) hrun
    cases hspans : spans.getLast? with
    | none =>
      rw [List.getLast?_cons, hspans] at hy
      cases hy
      exact hsep
    | some z =>
      rw [List.getLast?_cons, hspans] at hy
      cases hy
      exact hlast _ hspans
  | leftover hlast hlabel hblanks hbegins =>
    refine .leftover ?_ hlabel hblanks hbegins
    rw [List.getLast?_cons, hlast]
    rfl

/-! ## One step -/

theorem Cut.nil (limit : Nat) (text : List Char) (pos : Nat) : Cut limit text pos pos [] where
  le := Nat.le_refl pos
  read := nofun
  within := nofun
  ordered := .nil
  begins := nofun
  gaps _ hfirst hlast _ := absurd hlast (Nat.not_lt.2 hfirst)
  separated before _ _ _ heq := absurd heq.symm
    (List.append_ne_nil_of_right_ne_nil before (List.cons_ne_nil _ _))

/-- Blanks and colons before a cut belong to it. -/
theorem Cut.gap (h : Cut limit text mid last spans) (hle : first ≤ mid)
    (hgap : ∀ i, first ≤ i → i < mid → ∃ ch, text[i]? = some ch ∧ isGap ch = true) :
    Cut limit text first last spans where
  le := Nat.le_trans hle h.le
  read := h.read
  within x hx := by
    obtain ⟨hstart, hlt, hstop⟩ := h.within x hx
    exact ⟨Nat.le_trans hle hstart, hlt, hstop⟩
  ordered := h.ordered
  begins := h.begins
  gaps i hfirst hlast hout := by
    by_cases hmid : i < mid
    · exact hgap i hfirst hmid
    · exact h.gaps i (Nat.not_lt.1 hmid) hlast hout
  separated := h.separated

/-- A span in front of a cut. -/
theorem Cut.cons (h : Cut limit text x.stop last spans) (hlt : x.start < x.stop)
    (hread : (Grammar.statement limit).run (.ofText text x.start) =
      .ok (x.statement, .ofText text x.stop)) (hbegins : Begins text x.start)
    (hsep : ∀ y ∈ spans, Separated text x y.start) :
    Cut limit text x.start last (x :: spans) where
  le := Nat.le_trans (Nat.le_of_lt hlt) h.le
  read := by
    intro y hy
    rcases List.mem_cons.1 hy with rfl | hy
    · exact hread
    · exact h.read y hy
  within := by
    intro y hy
    rcases List.mem_cons.1 hy with rfl | hy
    · exact ⟨Nat.le_refl _, hlt, h.le⟩
    · obtain ⟨hstart, hlt', hstop⟩ := h.within y hy
      exact ⟨Nat.le_trans (Nat.le_of_lt hlt) hstart, hlt', hstop⟩
  ordered := .cons (fun y hy => (h.within y hy).1) h.ordered
  begins := by
    intro y hy
    rcases List.mem_cons.1 hy with rfl | hy
    · exact hbegins
    · exact h.begins y hy
  gaps i hfirst hlast hout := by
    rcases hout x List.mem_cons_self with hbefore | hafter
    · omega
    · exact h.gaps i hafter hlast fun y hy => hout y (List.mem_cons_of_mem x hy)
  separated before y z after heq := by
    cases before with
    | nil =>
      rw [List.nil_append, List.cons.injEq] at heq
      obtain ⟨rfl, rfl⟩ := heq
      exact hsep z List.mem_cons_self
    | cons w before =>
      rw [List.cons_append, List.cons.injEq] at heq
      exact h.separated before y z after heq.2

/-- Blanks are read over. -/
theorem gap_skipBlank (hin : c.StandsIn text) {i : Nat} (hi : c.pos ≤ i)
    (hlt : i < c.skipBlank.pos) : ∃ ch, text[i]? = some ch ∧ isBlank ch = true := by
  obtain ⟨b, hb, hr⟩ := c.exists_blanks
  obtain ⟨ch, hch, hcode⟩ := hin.getElem?_of_reads hr hi hlt
  exact ⟨ch, hcode, hb ch hch⟩

theorem Cut.skipBlank (hin : c.StandsIn text) (h : Cut limit text c.skipBlank.pos last spans) :
    Cut limit text c.pos last spans := by
  refine h.gap ?_ fun i hi hlt => ?_
  · rw [c.reads_skipBlank.2]
    omega
  · obtain ⟨ch, hcode, hblank⟩ := gap_skipBlank hin hi hlt
    exact ⟨ch, hcode, by simp [isGap, hblank]⟩

/-- A colon and the blanks after it. -/
theorem Cut.colon (hin : c.StandsIn text) (hpk : c.peek? = some ':')
    (h : Cut limit text (c.advance 1).skipBlank.pos last spans) :
    Cut limit text c.pos last spans := by
  have hread := Cursor.reads_advance_one hpk
  have hpos : (c.advance 1).pos = c.pos + 1 := rfl
  refine (h.skipBlank (hin.of_reads hread)).gap (by omega) fun i hi hlt => ?_
  obtain ⟨ch, hch, hcode⟩ := hin.getElem?_of_reads hread hi hlt
  rw [List.mem_singleton.1 hch] at hcode
  exact ⟨':', hcode, rfl⟩

/-- Where a line goes on after a statement that declares no label, it goes on at a colon. -/
theorem separated_of_mayFollow (hin : d.StandsIn text) (hfollow : mayFollow s d.skipBlank = true)
    (hbegins : Begins text pos) (hle : d.skipBlank.pos ≤ pos) :
    Separated text ⟨start, d.pos, s⟩ pos := by
  intro hlabel
  have hcolon : d.skipBlank.peek?.all (· = ':') = true := by
    have hfollow := hfollow
    rw [mayFollow, Bool.or_eq_true] at hfollow
    refine hfollow.resolve_right fun htrue => ?_
    rw [show s.isLabel = false from hlabel] at htrue
    cases htrue
  obtain ⟨ch, hch, hgap⟩ := hbegins
  have hlength : pos < text.length := (List.getElem?_eq_some_iff.1 hch).1
  have hpk : d.skipBlank.peek? = some text[d.skipBlank.pos] :=
    hin.skipBlank.peek?_eq.trans (List.getElem?_eq_getElem (by omega))
  have hchar : text[d.skipBlank.pos]? = some ':' := by
    rw [hpk, Option.all_some, decide_eq_true_eq] at hcolon
    rw [← hin.skipBlank.peek?_eq, hpk, hcolon]
  have hskip : d.pos ≤ d.skipBlank.pos := by
    rw [d.reads_skipBlank.2]
    omega
  refine ⟨d.skipBlank.pos, hskip, ?_, hchar⟩
  rcases Nat.lt_or_eq_of_le hle with hlt | heq
  · exact hlt
  · rw [← heq, hchar] at hch
    cases hch
    cases hgap

/-- A statement and the blanks after it. -/
theorem Cut.statement (hin : c.StandsIn text) (hbegins : Begins text c.pos)
    (hrun : (Grammar.statement limit).run c = .ok (s, d))
    (hsep : ∀ y ∈ spans, Separated text ⟨c.pos, d.pos, s⟩ y.start)
    (h : Cut limit text d.skipBlank.pos last spans) :
    Cut limit text c.pos last (⟨c.pos, d.pos, s⟩ :: spans) := by
  obtain ⟨used, hne, hread⟩ := (Grammar.statement limit).advances hrun
  have hd := hin.of_reads hread
  have hlt : c.pos < d.pos := by
    have := List.length_pos_iff.2 hne
    have := hread.2
    omega
  refine Cut.cons (x := ⟨c.pos, d.pos, s⟩) (h.skipBlank hd) hlt ?_ hbegins hsep
  rw [← hin.eq_ofText, ← hd.eq_ofText]
  exact hrun

/-! ## Whole lines -/

/-- Where no blank and no colon stands, a statement can begin. -/
theorem begins_of_settled (hin : c.StandsIn text) (hset : c.Settled) (hpk : c.peek? = some ch)
    (hne : ch ≠ ':') : Begins text c.pos := by
  refine ⟨ch, hin.peek?_eq ▸ hpk, ?_⟩
  simp [isGap, hset ch hpk, hne]

theorem cut_of_statementsFrom (hin : c.StandsIn text) (hset : c.Settled)
    {found : List (Nat × Statement)} (h : statementsFrom limit c = .ok found) :
    ∃ spans, found = spans.map (fun x => (x.start, x.statement)) ∧
      Cut limit text c.pos text.length spans := by
  fun_induction statementsFrom limit c generalizing found with
  | case1 c hrest =>
    cases h
    refine ⟨[], rfl, ?_⟩
    rw [hin.pos_eq_of_nil hrest]
    exact .nil limit text _
  | case2 c rest hrest ih =>
    have hpk : c.peek? = some ':' := Cursor.peek?_eq_some.2 ⟨rest, hrest⟩
    have hread := (Cursor.reads_advance_one hpk).append (c.advance 1).reads_skipBlank
    obtain ⟨spans, rfl, hcut⟩ := ih (hin.of_reads hread) (c.advance 1).settled_skipBlank h
    exact ⟨spans, rfl, hcut.colon hin hpk⟩
  | case3 => cases h
  | case4 => cases h
  | case5 c ch rest hrest hne s d hrun hfollow later hlater ih =>
    cases h
    have hpk : c.peek? = some ch := Cursor.peek?_eq_some.2 ⟨rest, hrest⟩
    obtain ⟨used, -, hread⟩ := (Grammar.statement limit).advances hrun
    have hd := hin.of_reads hread
    obtain ⟨spans, rfl, hcut⟩ := ih hd.skipBlank d.settled_skipBlank hlater
    refine ⟨⟨c.pos, d.pos, s⟩ :: spans, rfl,
      hcut.statement hin (begins_of_settled hin hset hpk hne) hrun fun y hy => ?_⟩
    exact separated_of_mayFollow hd hfollow (hcut.begins y hy) (hcut.within y hy).1
  | case6 => cases h

theorem stuck_of_statementsFrom (hin : c.StandsIn text) (hset : c.Settled)
    (h : statementsFrom limit c = .error f) :
    ∃ spans pos, Cut limit text c.pos pos spans ∧ Stuck limit text spans pos f := by
  fun_induction statementsFrom limit c with
  | case1 => cases h
  | case2 c rest hrest ih =>
    have hpk : c.peek? = some ':' := Cursor.peek?_eq_some.2 ⟨rest, hrest⟩
    have hread := (Cursor.reads_advance_one hpk).append (c.advance 1).reads_skipBlank
    obtain ⟨spans, pos, hcut, hstuck⟩ :=
      ih (hin.of_reads hread) (c.advance 1).settled_skipBlank h
    exact ⟨spans, pos, hcut.colon hin hpk, hstuck⟩
  | case3 c ch rest hrest hne g hrun =>
    cases h
    have hpk : c.peek? = some ch := Cursor.peek?_eq_some.2 ⟨rest, hrest⟩
    refine ⟨[], c.pos, .nil limit text _, .statement (begins_of_settled hin hset hpk hne) nofun ?_⟩
    rw [← hin.eq_ofText]
    exact hrun
  | case4 c ch rest hrest hne s d hrun hfollow g hlater ih =>
    cases h
    have hpk : c.peek? = some ch := Cursor.peek?_eq_some.2 ⟨rest, hrest⟩
    obtain ⟨used, -, hread⟩ := (Grammar.statement limit).advances hrun
    have hd := hin.of_reads hread
    obtain ⟨spans, pos, hcut, hstuck⟩ := ih hd.skipBlank d.settled_skipBlank hlater
    refine ⟨⟨c.pos, d.pos, s⟩ :: spans, pos,
      hcut.statement hin (begins_of_settled hin hset hpk hne) hrun fun y hy => ?_,
      hstuck.cons (separated_of_mayFollow hd hfollow hstuck.begins hcut.le)⟩
    exact separated_of_mayFollow hd hfollow (hcut.begins y hy) (hcut.within y hy).1
  | case5 => cases h
  | case6 c ch rest hrest hne s d hrun hfollow =>
    cases h
    have hpk : c.peek? = some ch := Cursor.peek?_eq_some.2 ⟨rest, hrest⟩
    obtain ⟨used, -, hread⟩ := (Grammar.statement limit).advances hrun
    have hd := hin.of_reads hread
    obtain ⟨x, hx, hcolon⟩ : ∃ x, d.skipBlank.peek? = some x ∧ x ≠ ':' := by
      rw [mayFollow, Bool.or_eq_true, not_or] at hfollow
      simpa [Option.all_eq_true] using hfollow.1
    have hlabel : s.isLabel = false := by
      rw [mayFollow, Bool.or_eq_true, not_or] at hfollow
      exact Bool.eq_false_iff.2 hfollow.2
    refine ⟨[⟨c.pos, d.pos, s⟩], d.skipBlank.pos,
      (Cut.nil limit text _).statement hin (begins_of_settled hin hset hpk hne) hrun nofun, ?_⟩
    have hplace : leftover d.skipBlank = leftover (.ofText text d.skipBlank.pos) :=
      congrArg leftover hd.skipBlank.eq_ofText
    rw [hplace]
    exact .leftover (x := ⟨c.pos, d.pos, s⟩) rfl hlabel (fun i hi hlt => gap_skipBlank hd hi hlt)
      (begins_of_settled hd.skipBlank d.settled_skipBlank hx hcolon)

end Line

end Asm65816
