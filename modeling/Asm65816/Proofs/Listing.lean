import Asm65816.Command.Run
import Asm65816.Proofs.ProgramLines
import Asm65816.Proofs.TextLines
import Asm65816.Proofs.UnambiguousStatements

/-!
# Listings

A program is listed with one line for each statement. The normal form of a statement that was read
holds no line end and no escape (`Statement.WellFormed.visible`): it is made of names, digits and a
few marks. So taking terminal sequences out of a line leaves it as it is, and the lines of a listing
are found again where it is cut at line feeds (`Command.splitOn_listing`).
-/

namespace Asm65816

open Text (Visible)

/-- Without an escape there is no terminal sequence to take out. -/
theorem Text.stripEscapes_of_not_mem {cs : List Char} (h : '\x1b' ∉ cs) :
    stripEscapes cs = cs := by
  induction cs with
  | nil => rw [stripEscapes]; rfl
  | cons c cs ih =>
    have hc : c ≠ '\x1b' := by
      rintro rfl
      exact h List.mem_cons_self
    have hnone : afterSequence? (c :: cs) = none := by
      simp [afterSequence?, hc]
    rw [stripEscapes]
    split
    · next hsome =>
      rw [hnone] at hsome
      cases hsome
    · exact congrArg (c :: ·) (ih fun hmem => h (List.mem_cons_of_mem _ hmem))

/-! ## Normal forms are visible -/

theorem Number.visible {n : Number} (h : n.value ≤ n.width.largest) : Visible n.chars := by
  rcases n.spelled h with ⟨-, ⟨-, hds⟩, -⟩ | ⟨ds, hcons, ⟨-, hds⟩, -⟩
  · exact Text.visible_of_isDigit hds
  · rw [hcons, Text.visible_cons]
    exact ⟨by decide, Text.visible_of_isDigit hds⟩

theorem Label.visible {l : Label} (h : l.WellFormed) : Visible l.chars := by
  cases l with
  | named name => exact Text.visible_of_isIdentifier h
  | relative k hk =>
    intro c hc
    obtain rfl : c = marker k := List.eq_of_mem_replicate hc
    rcases marker_eq k with hm | hm <;> rw [hm] <;> decide

theorem Operator.visible (op : Operator) : Visible op.symbol := by
  cases op <;> decide

namespace Expr

mutual
theorem Legible.visible : ∀ {e : Expr}, e.Legible → Visible e.chars
  | .number _, h => Number.visible h
  | .label _, h => Label.visible h
  | .binary op left right, ⟨hl, hr⟩ => by
    have hleft := hl.visible
    have hright := hr.visible
    have hmarks : Visible ['(', ' ', ')'] := by decide
    simp only [Text.visible_cons] at hmarks
    simp [chars, hleft, hright, op.visible, hmarks]
  | .call name args, ⟨hn, ha⟩ => by
    have hargs := visible_args ha
    have hmarks : Visible ['(', ')'] := by decide
    simp only [Text.visible_cons] at hmarks
    simp [chars, Text.visible_of_isIdentifier hn, hargs, hmarks]

theorem visible_args : ∀ {es : List Expr}, LegibleArgs es → Visible (charsOfArgs es)
  | [], _ => Text.visible_nil
  | [_], ⟨he, _⟩ => he.visible
  | e :: f :: rest, ⟨he, hes⟩ => by
    have hmore : Visible (charsOfArgs (f :: rest)) := visible_args hes
    have hmarks : Visible [',', ' '] := by decide
    simp only [Text.visible_cons] at hmarks
    simp [charsOfArgs, he.visible, hmore, hmarks]
end

end Expr

theorem Operand.Legible.visible {o : Operand} (h : o.Legible) : Visible o.chars := by
  cases o with
  | implied => exact Text.visible_nil
  | valued shape e =>
    rw [Operand.chars, Shape.around_eq h.shape, Text.visible_append, Text.visible_append]
    refine ⟨?_, h.value.visible, ?_⟩
    · cases shape with
      | move second => exact Text.visible_nil
      | _ => decide
    · cases shape with
      | move second =>
        rw [Shape.closing, Text.visible_cons]
        exact ⟨by decide, (h.second second rfl).visible⟩
      | accumulator => exact Text.visible_nil
      | _ => decide

theorem Instruction.Legible.visible {i : Instruction} (h : i.Legible) : Visible i.chars := by
  rw [Instruction.chars_eq, Instruction.tail, Text.visible_append, Text.visible_append]
  refine ⟨Text.visible_of_isIdentifier h.mnemonic, ?_, ?_⟩
  · rcases i.size with _ | _ | _ | _ <;> decide
  · unfold Grammar.operandChars
    split
    · exact Text.visible_nil
    · exact Text.visible_cons.2 ⟨by decide, h.operand.visible⟩

/-- The normal form of a statement that was read has no line end in it, and no escape. -/
theorem Statement.WellFormed.visible {levels : Nat} {s : Statement} (h : s.WellFormed levels) :
    Visible s.chars := by
  cases hi : s.instruction? with
  | some i =>
    obtain ⟨hlegible, hchars⟩ := h.legible_instruction hi
    rw [← hchars]
    exact hlegible.visible
  | none =>
    obtain ⟨name, rfl, hn⟩ | ⟨k, hk, rfl⟩ | ⟨name, e, rfl, hn, he⟩ := h.label_or_assignment hi
    · rw [chars, Text.visible_append]
      exact ⟨Text.visible_of_isIdentifier hn, by decide⟩
    · exact Label.visible (l := .relative k hk) h
    · rw [chars, Text.visible_append, Text.visible_cons, Text.visible_cons, Text.visible_cons]
      exact ⟨Text.visible_of_isIdentifier hn, by decide, by decide, by decide, he.visible⟩

/-- What a program holds was read from one of its lines. -/
theorem Program.wellFormed_of_mem {limits : Limits} {file source : String} {program : Program}
    (h : parse limits file source = .ok program) :
    ∀ x ∈ program.statements, x.statement.WellFormed limits.depth.levels := by
  intro x hx
  rw [(of_parse_ok h).2] at hx
  obtain ⟨⟨line, number⟩, -, hx⟩ := List.mem_flatMap.1 hx
  dsimp only at hx
  split at hx
  · next found hfound => exact Line.wellFormed_of_mem hfound x hx
  · cases hx

/-! ## Lines of a listing -/

namespace Command

/-- A line without an escape is given out as it is. -/
theorem line_of_not_mem {text : String} (h : '\x1b' ∉ text.toList) : line text = text ++ "\n" := by
  rw [line, Text.stripEscapes_of_not_mem h, String.ofList_toList]

/-- What a listing says of a statement. -/
def listingText (x : Located) : String :=
  Text.decimalInt x.location.line ++ ":" ++ Text.decimalInt x.location.column ++ "  "
    ++ x.statement.kind ++ "  " ++ x.statement.render

theorem visible_listingText {levels : Nat} {x : Located} (h : x.statement.WellFormed levels) :
    Visible (listingText x).toList := by
  have hkind : Visible x.statement.kind.toList := by
    unfold Statement.kind
    split <;> decide
  have hcolon : Visible ":".toList := by decide
  have hgap : Visible "  ".toList := by decide
  have hrender : Visible x.statement.render.toList := by
    rw [Statement.render, String.toList_ofList]
    exact h.visible
  simp only [listingText, String.toList_append, Text.visible_append]
  exact ⟨⟨⟨⟨⟨⟨Text.visible_decimalInt _, hcolon⟩, Text.visible_decimalInt _⟩, hgap⟩, hkind⟩, hgap⟩,
    hrender⟩

theorem listing_eq {levels : Nat} {x : Located} (h : x.statement.WellFormed levels) :
    listing x = listingText x ++ "\n" :=
  line_of_not_mem fun hmem => absurd (visible_listingText h _ hmem) (by decide)

/-- A listing has one line for each statement. -/
theorem splitOn_listing {levels : Nat} {found : List Located}
    (h : ∀ x ∈ found, x.statement.WellFormed levels) :
    (String.join (found.map listing)).toList.splitOn '\n' =
      found.map (fun x => (listingText x).toList) ++ [[]] := by
  have hlines : found.map listing = (found.map listingText).map (· ++ "\n") := by
    rw [List.map_map]
    exact List.map_congr_left fun x hx => listing_eq (h x hx)
  have hone : ∀ s ∈ found.map listingText, Text.OneLine s := by
    intro s hs
    obtain ⟨x, hx, rfl⟩ := List.mem_map.1 hs
    exact (visible_listingText (h x hx)).newline_not_mem
  rw [hlines, Text.splitOn_join hone, List.map_map]
  rfl

end Command

end Asm65816
