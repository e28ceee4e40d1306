import Asm65816.Proofs.Tokens
import Asm65816.Text.Lines

/-!
# Lines of a text

A text is cut at a line feed: the lines of what stands before it, the line feed with it, and those
of what follows (`lines_append_newline`). It may be one half of a line end, if a carriage return
stands before it, and then it adds no line (`lines_newline`). A line holds no line end
(`isLineEnd_of_mem_lines`), and the lines are the same when carriage returns are written as line
feeds (`lines_normalizeReturns`).

Names and numerals are visible (`visible_of_isIdentifier`, `visible_decimalInt`): they hold no line
end and no escape. Texts without a line feed are found again where line feeds join them
(`splitOn_intercalate`).
-/

namespace Asm65816.Text

/-- The first line takes a character, whatever lines follow. -/
theorem consFirst_append (c : Char) {first : List (List Char)} (h : first ≠ [])
    (later : List (List Char)) : consFirst c (first ++ later) = consFirst c first ++ later := by
  cases first with
  | nil => exact absurd rfl h
  | cons line first => rfl

theorem lines_ne_nil {cs : List Char} (h : cs ≠ []) : lines cs ≠ [] := by
  fun_cases lines cs with
  | case1 => exact absurd rfl h
  | case2 => exact List.cons_ne_nil _ _
  | case3 => exact List.cons_ne_nil _ _
  | case4 c rest =>
    cases lines rest with
    | nil => exact List.cons_ne_nil _ _
    | cons line lines => exact List.cons_ne_nil _ _

/-- A character is taken alone unless it makes a line end with what follows, and what follows it is
the same in a longer text, unless it is a carriage return at the end. -/
theorem lines_cons_append {c : Char} {rest : List Char}
    (h : ∀ more, c = '\r' → rest = '\n' :: more → False) (hlast : ¬ (c = '\r' ∧ rest = []))
    (t : List Char) : lines (c :: (rest ++ t)) =
      if isLineEnd c then [] :: lines (rest ++ t) else consFirst c (lines (rest ++ t)) := by
  refine lines.eq_3 c (rest ++ t) fun more hc hrest => ?_
  cases rest with
  | nil => exact hlast ⟨hc, rfl⟩
  | cons d rest =>
    obtain rfl : d = '\n' := List.head_eq_of_cons_eq hrest
    exact h rest hc rfl

/-- A text is cut at a line feed. -/
theorem lines_append_newline (a b : List Char) :
    lines (a ++ '\n' :: b) = lines (a ++ ['\n']) ++ lines b := by
  fun_induction lines a with
  | case1 => rfl
  | case2 rest ih => exact congrArg ([] :: ·) ih
  | case3 c rest hreturn hend ih =>
    by_cases hlast : c = '\r' ∧ rest = []
    · obtain ⟨rfl, rfl⟩ := hlast
      rfl
    · rw [List.cons_append, List.cons_append, lines_cons_append hreturn hlast,
        lines_cons_append hreturn hlast, if_pos hend, if_pos hend, ih, List.cons_append]
  | case4 c rest hreturn hend ih =>
    have hlast : ¬ (c = '\r' ∧ rest = []) := by
      rintro ⟨rfl, -⟩
      exact hend rfl
    rw [List.cons_append, List.cons_append, lines_cons_append hreturn hlast,
      lines_cons_append hreturn hlast, if_neg hend, if_neg hend, ih,
      consFirst_append c (lines_ne_nil (by simp))]

/-- A line feed at the end ends the last line, or it adds an empty one where a line end stands
before it already, unless that is a carriage return. -/
theorem lines_newline (a : List Char) :
    lines (a ++ ['\n']) = lines a ∨ lines (a ++ ['\n']) = lines a ++ [[]] := by
  fun_induction lines a with
  | case1 => exact .inr rfl
  | case2 rest ih => exact ih.imp (congrArg ([] :: ·)) (congrArg ([] :: ·))
  | case3 c rest hreturn hend ih =>
    by_cases hlast : c = '\r' ∧ rest = []
    · obtain ⟨rfl, rfl⟩ := hlast
      exact .inl rfl
    · rw [List.cons_append, lines_cons_append hreturn hlast, if_pos hend]
      exact ih.imp (congrArg ([] :: ·)) (congrArg ([] :: ·))
  | case4 c rest hreturn hend ih =>
    have hlast : ¬ (c = '\r' ∧ rest = []) := by
      rintro ⟨rfl, -⟩
      exact hend rfl
    rw [List.cons_append, lines_cons_append hreturn hlast, if_neg hend]
    by_cases hrest : rest = []
    · subst hrest
      exact .inl rfl
    · rcases ih with ih | ih
      · exact .inl (by rw [ih])
      · exact .inr (by rw [ih, consFirst_append c (lines_ne_nil hrest)])

/-- No line holds a line end. -/
theorem isLineEnd_of_mem_lines {cs line : List Char} (h : line ∈ lines cs) :
    ∀ c ∈ line, isLineEnd c = false := by
  fun_induction lines cs generalizing line with
  | case1 => cases h
  | case2 rest ih | case3 c rest _ _ ih =>
    rcases List.mem_cons.1 h with rfl | h
    · nofun
    · exact ih h
  | case4 c rest _ hend ih =>
    have hc : isLineEnd c = false := Bool.eq_false_iff.2 hend
    cases hlines : lines rest with
    | nil =>
      rw [hlines] at h
      obtain rfl := List.mem_singleton.1 h
      intro d hd
      rwa [List.mem_singleton.1 hd]
    | cons first later =>
      rw [hlines] at h ih
      rcases List.mem_cons.1 h with rfl | h
      · intro d hd
        rcases List.mem_cons.1 hd with rfl | hd
        · exact hc
        · exact ih List.mem_cons_self d hd
      · exact ih (List.mem_cons_of_mem _ h)

/-- Writing carriage returns as line feeds keeps the lines. -/
theorem lines_normalizeReturns (cs : List Char) : lines (normalizeReturns cs) = lines cs := by
  fun_induction normalizeReturns cs with
  | case1 => rfl
  | case2 rest ih => exact congrArg ([] :: ·) ih
  | case3 c rest hreturn ih =>
    rw [lines.eq_3 c rest hreturn]
    by_cases hc : c = '\r'
    · subst hc
      exact congrArg ([] :: ·) ih
    · rw [if_neg hc, lines.eq_3 c _ fun _ h => absurd h hc, ih]

/-! ## Visible texts -/

/-- The characters that are not shown on a line: the escape that begins terminal sequences, and
those that end a line. -/
def controls : List Char := '\x1b' :: lineEnds

/-- Whether a character is shown on a line. -/
def isVisible (c : Char) : Bool := !controls.contains c

/-- All of the text is shown on a line. -/
def Visible (cs : List Char) : Prop := ∀ c ∈ cs, isVisible c = true

instance (cs : List Char) : Decidable (Visible cs) :=
  decidable_of_iff (cs.all isVisible = true) List.all_eq_true

@[simp] theorem visible_append {cs ds : List Char} :
    Visible (cs ++ ds) ↔ Visible cs ∧ Visible ds := List.forall_mem_append

@[simp] theorem visible_cons {c : Char} {cs : List Char} :
    Visible (c :: cs) ↔ isVisible c = true ∧ Visible cs := List.forall_mem_cons

theorem visible_nil : Visible [] := nofun

theorem visible_of_isIdentifier {cs : List Char} (h : isIdentifier cs = true) : Visible cs :=
  not_contains_of_isIdentifier (by decide +kernel) (by decide +kernel) h

theorem visible_of_isDigit {r : Radix} {ds : List Char} (h : ∀ d ∈ ds, r.isDigit d = true) :
    Visible ds := by
  intro c hc
  have hcontrols : controls.any r.isDigit = false := by cases r <;> decide
  exact not_contains_of_any hcontrols (h c hc)

theorem visible_decimal (n : Nat) : Visible (decimal n).toList := by
  rw [decimal, String.toList_ofList]
  exact visible_of_isDigit (Radix.decimal.isDigit_numeral n)

theorem visible_decimalInt (n : Int) : Visible (decimalInt n).toList := by
  cases n with
  | ofNat n => exact visible_decimal n
  | negSucc n =>
    rw [decimalInt, String.toList_append, visible_append]
    exact ⟨by decide, visible_decimal _⟩

/-- A visible text has no line end. -/
theorem Visible.isLineEnd {cs : List Char} (h : Visible cs) : ∀ c ∈ cs, isLineEnd c = false := by
  intro c hc
  have hvisible := h c hc
  rw [isVisible, Bool.not_eq_true', controls, List.contains_cons, Bool.or_eq_false_iff] at hvisible
  exact hvisible.2

theorem Visible.newline_not_mem {cs : List Char} (h : Visible cs) : '\n' ∉ cs := fun hmem =>
  absurd (h _ hmem) (by decide)

/-! ## Texts on one line -/

/-- The text has no line feed in it. -/
def OneLine (s : String) : Prop := '\n' ∉ s.toList

instance (s : String) : Decidable (OneLine s) := inferInstanceAs (Decidable (¬ _))

@[simp] theorem oneLine_append {s t : String} : OneLine (s ++ t) ↔ OneLine s ∧ OneLine t := by
  simp [OneLine, not_or]

@[simp] theorem oneLine_ofList {cs : List Char} : OneLine (String.ofList cs) ↔ '\n' ∉ cs := by
  rw [OneLine, String.toList_ofList]

theorem oneLine_singleton {c : Char} (h : c ≠ '\n') : OneLine (String.singleton c) := by
  simpa [OneLine] using h.symm

/-- Texts on one line each are found again where they are joined by line feeds. -/
theorem splitOn_intercalate {ls : List String} (hne : ls ≠ []) (h : ∀ s ∈ ls, OneLine s) :
    ("\n".intercalate ls).toList.splitOn '\n' = ls.map String.toList := by
  have hfeed : "\n".toList = ['\n'] := by decide
  rw [String.toList_intercalate, hfeed]
  refine List.splitOn_intercalate '\n' (fun l hl => ?_) (by simpa using hne)
  obtain ⟨s, hs, rfl⟩ := List.mem_map.1 hl
  exact h s hs

/-- Texts on one line each are found again where each is followed by a line feed, and nothing stands
behind the last one. -/
theorem splitOn_join {ls : List String} (h : ∀ s ∈ ls, OneLine s) :
    (String.join (ls.map (· ++ "\n"))).toList.splitOn '\n' = ls.map String.toList ++ [[]] := by
  have hjoin : String.join (ls.map (· ++ "\n")) = "\n".intercalate (ls ++ [""]) := by
    clear h
    induction ls with
    | nil => simp
    | cons s ls ih =>
      rw [List.cons_append, String.intercalate_cons_of_ne_nil (by simp), ← ih]
      simp
  have hall : ∀ s ∈ ls ++ [""], OneLine s := by
    intro s hs
    rcases List.mem_append.1 hs with hs | hs
    · exact h s hs
    · rw [List.mem_singleton.1 hs]
      decide
  rw [hjoin, splitOn_intercalate (by simp) hall, List.map_append]
  rfl

end Asm65816.Text
