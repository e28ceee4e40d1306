import Asm65816.Proofs.LineSpans
import Asm65816.Proofs.ProperFailures
import Asm65816.Proofs.UnambiguousExpressions

/-!
# Numeric literals are exact

A literal is the longest run of digits at its place, and its value alone decides whether it is a
number. Long runs are refused before their value is taken, but a run that is too long has a value
that is too large, however many zeros it begins with (`Token.number_eq`). So the outcome of a rule
is told by the run and its value (`Token.literalOutcome`), and what a number is written as is read
as the number again.
-/

namespace Asm65816

open Text (Avoids Blanks Radix isBlank)

theorem Width.ofDigitCount_eq_oneByte {count : Nat} :
    ofDigitCount count = .oneByte ↔ count = 2 := by
  unfold ofDigitCount
  split
  · next h => exact ⟨fun _ => by omega, fun _ => rfl⟩
  · next h => split <;> exact ⟨nofun, fun _ => absurd (by omega) h⟩

theorem Width.ofDigitCount_eq_twoBytes {count : Nat} :
    ofDigitCount count = .twoBytes ↔ count = 4 := by
  unfold ofDigitCount
  split
  · next h => exact ⟨nofun, fun _ => by omega⟩
  · split
    · next h => exact ⟨fun _ => by omega, fun _ => rfl⟩
    · next h => exact ⟨nofun, fun _ => absurd (by omega) h⟩

/-! ## Places of a text -/

namespace Cursor

theorem advance_ofText (text : List Char) (pos : Nat) :
    (ofText text pos).advance 1 = ofText text (pos + 1) := by
  rw [ofText, advance, List.drop_drop, ofText]

theorem skipWhile_ofText (p : Char → Bool) (text : List Char) (pos : Nat) :
    (ofText text pos).skipWhile p =
      ofText text (pos + ((text.drop pos).takeWhile p).length) := by
  have hdrop (cs : List Char) : cs.drop (cs.takeWhile p).length = cs.dropWhile p :=
    calc cs.drop (cs.takeWhile p).length
      _ = (cs.takeWhile p ++ cs.dropWhile p).drop (cs.takeWhile p).length := by
        rw [List.takeWhile_append_dropWhile]
      _ = cs.dropWhile p := List.drop_left
  rw [ofText, skipWhile, ofText, ← List.drop_drop, hdrop]

theorem peek?_ofText (text : List Char) (pos : Nat) : (ofText text pos).peek? = text[pos]? := by
  rw [ofText, peek?, List.head?_drop]

theorem rest_ofText (before s rest : List Char) :
    (ofText (before ++ s ++ rest) (before.length + s.length)).rest = rest := by
  rw [ofText, ← List.length_append, List.drop_left]

/-- A part of a text is read from its start to its end. -/
theorem reads_ofText (before s rest : List Char) :
    (ofText (before ++ s ++ rest) before.length).Reads s
      (ofText (before ++ s ++ rest) (before.length + s.length)) := by
  refine ⟨?_, rfl⟩
  rw [rest_ofText, ofText, List.append_assoc, List.drop_left]

end Cursor

theorem Rule.run_char_eq (ch : Char) (what : String) (report : Reason → Int → Failure)
    (c : Cursor) : (char [ch] what report).run c =
      if c.peek? = some ch then .ok (ch, c.advance 1)
      else .error (report (.missing what c.peek?) c.pos) := by
  rw [Cursor.peek?]
  simp only [char]
  cases hrest : c.rest with
  | nil => rfl
  | cons d rest =>
    by_cases hd : d = ch
    · simp [hd]
    · simp [hd]

namespace Token

variable {r : Radix} {ds : List Char} {c : Cursor}

/-! ## The value decides -/

/-- A run of digits that is too long has a value that is too large. -/
theorem largest_lt_value (hds : ∀ d ∈ ds, r.isDigit d = true)
    (h : longestNumeral r < (ds.dropWhile (· = '0')).length) : Number.largest < r.value ds := by
  by_contra hle
  exact absurd (length_le_longestNumeral hds (Nat.not_lt.1 hle)) (Nat.not_le.2 h)

/-- What a rule gives for a run of digits: the number that has its value, if there is one. -/
def literalOutcome (r : Radix) (ds : List Char) (width : Width) (literal : List Char)
    (offset : Nat) (missing : Failure) (stop : Cursor) : Except Failure (Number × Cursor) :=
  if ds = [] then .error missing
  else if h : r.value ds ≤ Number.largest then .ok (⟨r.value ds, width, h⟩, stop)
  else .error (.overflow (String.ofList literal) offset none)

/-- Refusing long runs before their value is taken refuses nothing else. -/
theorem number_eq (hds : ∀ d ∈ ds, r.isDigit d = true) (width : Width) (literal : List Char)
    (offset : Nat) : number r ds width literal offset =
      if h : r.value ds ≤ Number.largest then .ok ⟨r.value ds, width, h⟩
      else .error (.overflow (String.ofList literal) offset none) := by
  unfold number
  split
  · next hlong => rw [dif_neg (Nat.not_le.2 (largest_lt_value hds hlong))]
  · rfl

theorem run_digits_eq (w : List Char → Width) (literal : List Char → List Char) {offset : Nat}
    {missing : Failure} :
    (match c.rest.takeWhile r.isDigit with
      | [] => .error missing
      | digits =>
        match number r digits (w digits) (literal digits) offset with
        | .ok n => .ok (n, c.skipWhile r.isDigit)
        | .error f => .error f) =
      literalOutcome r (c.rest.takeWhile r.isDigit) (w (c.rest.takeWhile r.isDigit))
        (literal (c.rest.takeWhile r.isDigit)) offset missing (c.skipWhile r.isDigit) := by
  have hall : ∀ d ∈ c.rest.takeWhile r.isDigit, r.isDigit d = true :=
    List.all_eq_true.1 List.all_takeWhile
  unfold literalOutcome
  split
  · next hnil => rw [if_pos hnil]
  · next hne =>
    rw [if_neg hne, number_eq hall]
    by_cases hle : r.value (c.rest.takeWhile r.isDigit) ≤ Number.largest
    · rw [dif_pos hle, dif_pos hle]
    · rw [dif_neg hle, dif_neg hle]

theorem run_decimal_eq (c : Cursor) :
    decimal.run c =
      literalOutcome .decimal (c.rest.takeWhile Radix.decimal.isDigit) .unsized
        (c.rest.takeWhile Radix.decimal.isDigit) c.pos
        (.lexical (.expected "decimal number") c.pos) (c.skipWhile Radix.decimal.isDigit) :=
  run_digits_eq (fun _ => .unsized) (fun ds => ds)

theorem run_hexadecimalDigits_eq (start : Nat) (c : Cursor) :
    (hexadecimalDigits start).run c =
      literalOutcome .hexadecimal (c.rest.takeWhile Radix.hexadecimal.isDigit)
        (.ofDigitCount (c.rest.takeWhile Radix.hexadecimal.isDigit).length)
        ('$' :: c.rest.takeWhile Radix.hexadecimal.isDigit) start
        (.mismatch (.expected "hex digits after '$'") c.pos)
        (c.skipWhile Radix.hexadecimal.isDigit) :=
  run_digits_eq (fun ds => .ofDigitCount ds.length) (fun ds => '$' :: ds)

theorem run_hexadecimal_eq (c : Cursor) :
    hexadecimal.run c =
      if c.peek? = some '$' then (hexadecimalDigits c.pos).run (c.advance 1).skipBlank
      else .error (.lexical (.missing "'$'" c.peek?) c.pos) := by
  rw [hexadecimal, Rule.run_cursor_bind, Rule.run_bind, Rule.run_char_eq]
  by_cases h : c.peek? = some '$'
  · rw [if_pos h, if_pos h]
    rfl
  · rw [if_neg h, if_neg h]

/-! ## Written numbers -/

/-- A number that fits its width is read again from where it is written. -/
theorem run_decimal_of_chars {n : Number} (hwidth : n.width = .unsized) (before : List Char)
    {rest : List Char} (hrest : Avoids Radix.decimal.isDigit rest) :
    decimal.run (.ofText (before ++ n.chars ++ rest) before.length) =
      .ok (n, .ofText (before ++ n.chars ++ rest) (before.length + n.chars.length)) := by
  have hchars : n.chars = Radix.decimal.numeral n.value := by rw [Number.chars, hwidth]
  have hread := Cursor.reads_ofText before n.chars rest
  have hdigits : Radix.decimal.Digits n.chars := by
    rw [hchars]
    exact ⟨Radix.numeral_ne_nil _ _, Radix.isDigit_numeral _ _⟩
  have hvalue : n.value = Radix.decimal.value n.chars := by rw [hchars, Radix.value_numeral]
  exact run_decimal_eq_ok.2 ⟨n.chars, hdigits, hvalue, hwidth, hread,
    (Cursor.rest_ofText before n.chars rest).symm ▸ hrest⟩

theorem run_hexadecimal_of_chars {n : Number} (hwidth : n.width ≠ .unsized)
    (hfits : n.value ≤ n.width.largest) (before : List Char) {rest : List Char}
    (hrest : Avoids Radix.hexadecimal.isDigit rest) :
    hexadecimal.run (.ofText (before ++ n.chars ++ rest) before.length) =
      .ok (n, .ofText (before ++ n.chars ++ rest) (before.length + n.chars.length)) := by
  rcases Number.spelled hfits with ⟨hunsized, -⟩ | ⟨ds, hchars, hds, hv, hw⟩
  · exact absurd hunsized hwidth
  · have hread := Cursor.reads_ofText before n.chars rest
    have hspelled : '$' :: [] ++ ds = n.chars := hchars.symm
    rw [← hspelled] at hread ⊢
    exact run_hexadecimal_eq_ok.2 ⟨[], ds, Text.blanks_nil, hds, hv.symm, hw, hread,
      (Cursor.rest_ofText before _ rest).symm ▸ hrest⟩

/-! ## Literals -/

end Token

end Asm65816
