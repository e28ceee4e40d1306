import Asm65816.Proofs.LockstepGrammar

/-!
# Loops, turn by turn

Reading goes round in three places: an expression takes one operator after the other, a call one
argument, a line one statement. Each of them is a recursion on what is left to read. Here they are
seen as loops that carry a state from turn to turn (`Turn`), and the turns are counted (`Turns`).

A turn that goes on has read something. So a loop ends, in whatever text, and the text bounds its
turns (`Ends`).
-/

namespace Asm65816

/-! ## Loops -/

/-- What a loop does at its head: it is over and makes no further turn, or it makes one and leaves
in it, or it makes one and goes on. -/
inductive Turn (σ ρ : Type) where
  | stop (result : ρ)
  | leave (result : ρ)
  | next (state : σ)

variable {σ ρ : Type} {turn : σ → Turn σ ρ} {s s' : σ} {r r' : ρ} {n n' : Nat}

/-- From a state the loop ends with a result after so many turns. -/
inductive Turns (turn : σ → Turn σ ρ) : σ → Nat → ρ → Prop
  | stop {s : σ} {r : ρ} : turn s = .stop r → Turns turn s 0 r
  | leave {s : σ} {r : ρ} : turn s = .leave r → Turns turn s 1 r
  | next {s s' : σ} {n : Nat} {r : ρ} : turn s = .next s' → Turns turn s' n r →
      Turns turn s (n + 1) r

/-- A loop has no choice. -/
theorem Turns.unique (h : Turns turn s n r) (k : Turns turn s n' r') : n' = n ∧ r' = r := by
  induction h generalizing n' with
  | stop hturn =>
    cases k with
    | stop hturn' => cases hturn.symm.trans hturn'; exact ⟨rfl, rfl⟩
    | leave hturn' => cases hturn.symm.trans hturn'
    | next hturn' _ => cases hturn.symm.trans hturn'
  | leave hturn =>
    cases k with
    | stop hturn' => cases hturn.symm.trans hturn'
    | leave hturn' => cases hturn.symm.trans hturn'; exact ⟨rfl, rfl⟩
    | next hturn' _ => cases hturn.symm.trans hturn'
  | next hturn _ ih =>
    cases k with
    | stop hturn' => cases hturn.symm.trans hturn'
    | leave hturn' => cases hturn.symm.trans hturn'
    | next hturn' k =>
      cases hturn.symm.trans hturn'
      obtain ⟨rfl, rfl⟩ := ih k
      exact ⟨rfl, rfl⟩

/-- From a state the loop ends with the result, in `bound` turns at most. -/
def Ends (turn : σ → Turn σ ρ) (s : σ) (bound : Nat) (r : ρ) : Prop :=
  ∃ n ≤ bound, ∀ k r', Turns turn s k r' ↔ k = n ∧ r' = r

namespace Ends

variable {bound bound' : Nat}

theorem of_turns (h : Turns turn s n r) (hn : n ≤ bound) : Ends turn s bound r := by
  refine ⟨n, hn, fun k r' => ⟨h.unique, ?_⟩⟩
  rintro ⟨rfl, rfl⟩
  exact h

theorem mono (h : Ends turn s bound r) (hle : bound ≤ bound') : Ends turn s bound' r := by
  obtain ⟨n, hn, hturns⟩ := h
  exact ⟨n, Nat.le_trans hn hle, hturns⟩

theorem stop (h : turn s = .stop r) : Ends turn s bound r := of_turns (.stop h) (Nat.zero_le _)

theorem leave (h : turn s = .leave r) (hbound : 0 < bound) : Ends turn s bound r :=
  of_turns (.leave h) hbound

/-- A turn leads on to where fewer are left. -/
theorem next (h : turn s = .next s') (hends : Ends turn s' bound' r) (hlt : bound' < bound) :
    Ends turn s bound r := by
  obtain ⟨n, hn, hturns⟩ := hends
  exact of_turns (.next h ((hturns n r).2 ⟨rfl, rfl⟩)) (by omega)

end Ends

theorem Cursor.length_pos_of_peek? {c : Cursor} {ch : Char} (h : c.peek? = some ch) :
    0 < c.rest.length := by
  obtain ⟨rest, hrest⟩ := Cursor.peek?_eq_some.1 h
  rw [hrest]
  exact Nat.succ_pos _

namespace Grammar

/-! ## Operators -/

/-- An operator and the operand that it joins to the expression so far. Without an operand the
operator is left unread. -/
def chainTurn (operand : Advancing Expr) (operator? : Char → Option Operator) :
    Expr × Cursor → Turn (Expr × Cursor) (Except Failure (Expr × Cursor))
  | (left, c) =>
    match c.peek?.bind operator? with
    | none => .stop (.ok (left, c))
    | some op =>
      match operand.run (c.advance 1).skipBlank with
      | .ok (right, d) => .next (.binary op left right, d)
      | .error f => .leave (if f.fatal then .error f else .ok (left, c))

theorem ends_chainFrom (operand : Advancing Expr) (operator? : Char → Option Operator)
    (left : Expr) (c : Cursor) :
    Ends (chainTurn operand operator?) (left, c) c.rest.length
      (chainFrom operand operator? left c) := by
  fun_induction chainFrom operand operator? left c with
  | case1 left c hnone => exact .stop (by rw [chainTurn, hnone])
  | case2 left c op hop right d hrun ih =>
    obtain ⟨ch, hch, -⟩ := Option.bind_eq_some_iff.1 hop
    have hlt := operand.length_lt hrun
    have hle := (c.advance 1).reads_skipBlank.length_le
    have hadvance := (Cursor.reads_advance_one hch).length_le
    exact .next (by simp only [chainTurn, hop, hrun]) ih (by omega)
  | case3 left c op hop f hrun hfatal =>
    obtain ⟨ch, hch, -⟩ := Option.bind_eq_some_iff.1 hop
    exact .leave (by simp only [chainTurn, hop, hrun, if_pos hfatal]) (c.length_pos_of_peek? hch)
  | case4 left c op hop f hrun hfatal =>
    obtain ⟨ch, hch, -⟩ := Option.bind_eq_some_iff.1 hop
    exact .leave (by simp only [chainTurn, hop, hrun, if_neg hfatal]) (c.length_pos_of_peek? hch)

/-! ## Arguments -/

/-- An argument and the comma or the parenthesis after it. -/
def argumentTurn (callee : String) (inner : Advancing Expr) :
    List Expr × Cursor → Turn (List Expr × Cursor) (Except Failure (List Expr × Cursor))
  | (done, c) =>
    match (argument callee inner).run c with
    | .error f => .leave (.error f)
    | .ok ((e, false), d) => .leave (.ok (done ++ [e], d))
    | .ok ((e, true), d) => .next (done ++ [e], d)

/-- What is read from some arguments on comes after them. -/
theorem ends_arguments_append (callee : String) (inner : Advancing Expr) (done : List Expr)
    (c : Cursor) :
    Ends (argumentTurn callee inner) (done, c) (c.rest.length + 1)
      (((arguments callee inner).run c).map fun (es, d) => (done ++ es, d)) := by
  simp only [arguments]
  -- The loop appends what the recursion puts in front, so the arguments so far are generalized.
  fun_induction Advancing.iterate (argument callee inner) c generalizing done with
  | case1 c f hrun => exact .leave (by simp only [argumentTurn, hrun]; rfl) (Nat.succ_pos _)
  | case2 c e d hrun => exact .leave (by simp only [argumentTurn, hrun]; rfl) (Nat.succ_pos _)
  | case3 c e d hrun f hmore ih =>
    have hlt := (argument callee inner).length_lt hrun
    have hends := ih (done ++ [e])
    rw [hmore] at hends
    exact .next (by simp only [argumentTurn, hrun]) hends (by omega)
  | case4 c e d hrun es d' hmore ih =>
    have hlt := (argument callee inner).length_lt hrun
    have hends := ih (done ++ [e])
    rw [hmore] at hends
    have hturn : argumentTurn callee inner (done, c) = .next (done ++ [e], d) := by
      simp only [argumentTurn, hrun]
    refine .next hturn ?_ (Nat.succ_lt_succ hlt)
    simpa [Except.map] using hends

/-- A call has no more turns than characters are left, and one for the end of the text. -/
theorem ends_arguments (callee : String) (inner : Advancing Expr) (c : Cursor) :
    Ends (argumentTurn callee inner) ([], c) (c.rest.length + 1)
      ((arguments callee inner).run c) := by
  have hends := ends_arguments_append callee inner [] c
  have hall : ((arguments callee inner).run c).map (fun (es, d) => ([] ++ es, d)) =
      (arguments callee inner).run c := by
    cases (arguments callee inner).run c <;> rfl
  rwa [hall] at hends

end Grammar

namespace Line

/-! ## Statements of a line -/

/-- A colon, or a statement if the line may go on after it. -/
def lineTurn (limit : Nat) : List (Nat × Statement) × Cursor →
    Turn (List (Nat × Statement) × Cursor) (Except Failure (List (Nat × Statement)))
  | (found, c) =>
    match c.rest with
    | [] => .stop (.ok found)
    | ch :: _ =>
      if ch = ':' then .next (found, (c.advance 1).skipBlank)
      else
        match (Grammar.statement limit).run c with
        | .error f => .leave (.error f)
        | .ok (s, d) =>
          if mayFollow s d.skipBlank then .next (found ++ [(c.pos, s)], d.skipBlank)
          else .leave (.error (leftover d.skipBlank))

/-- What is found from some statements on comes after them. -/
theorem ends_statementsFrom (limit : Nat) (found : List (Nat × Statement)) (c : Cursor) :
    Ends (lineTurn limit) (found, c) c.rest.length
      ((statementsFrom limit c).map (found ++ ·)) := by
  fun_induction statementsFrom limit c generalizing found with
  | case1 c hrest => exact .stop (by simp only [lineTurn, hrest, Except.map, List.append_nil])
  | case2 c rest hrest ih =>
    have hpk : c.peek? = some ':' := Cursor.peek?_eq_some.2 ⟨rest, hrest⟩
    have hread := (Cursor.reads_advance_one hpk).append (c.advance 1).reads_skipBlank
    exact .next (by simp only [lineTurn, hrest, if_true]) (ih found) (hread.length_lt (by simp))
  | case3 c ch rest hrest hne f hrun =>
    exact .leave (by simp only [lineTurn, hrest, if_neg hne, hrun]; rfl)
      (c.length_pos_of_peek? (Cursor.peek?_eq_some.2 ⟨rest, hrest⟩))
  | case4 c ch rest hrest hne s d hrun hfollow f hlater ih =>
    have hlt := (Grammar.statement limit).length_lt hrun
    have hle := d.reads_skipBlank.length_le
    have hends := ih (found ++ [(c.pos, s)])
    rw [hlater] at hends
    exact .next (by simp only [lineTurn, hrest, if_neg hne, hrun, if_pos hfollow]) hends (by omega)
  | case5 c ch rest hrest hne s d hrun hfollow later hlater ih =>
    have hlt := (Grammar.statement limit).length_lt hrun
    have hle := d.reads_skipBlank.length_le
    have hends := ih (found ++ [(c.pos, s)])
    rw [hlater] at hends
    have hturn : lineTurn limit (found, c) = .next (found ++ [(c.pos, s)], d.skipBlank) := by
      simp only [lineTurn, hrest, if_neg hne, hrun, if_pos hfollow]
    refine .next hturn ?_ (Nat.lt_of_le_of_lt hle hlt)
    simpa [Except.map] using hends
  | case6 c ch rest hrest hne s d hrun hfollow =>
    exact .leave (by simp only [lineTurn, hrest, if_neg hne, hrun, if_neg hfollow]; rfl)
      (c.length_pos_of_peek? (Cursor.peek?_eq_some.2 ⟨rest, hrest⟩))

/-- A line has no more turns than its code has characters. -/
theorem ends_statements (limit : Nat) (line : List Char) :
    Ends (lineTurn limit) ([], (Cursor.ofText (code line) 0).skipBlank) (code line).length
      (statements limit line) := by
  have hends := ends_statementsFrom limit [] (Cursor.ofText (code line) 0).skipBlank
  have hall : (statements limit line).map ([] ++ ·) = statements limit line := by
    cases statements limit line <;> rfl
  rw [← hall]
  exact hends.mono (Cursor.reads_skipBlank _).length_le

/-- A line of colons has all the turns that its length allows. -/
example : Turns (lineTurn 1) ([], .ofText ":::".toList 0) ":::".toList.length (.ok []) :=
  .next rfl (.next rfl (.next rfl (.stop rfl)))

end Line

end Asm65816
