import Asm65816.Label
import Asm65816.Number
import Asm65816.Rule

/-!
# Tokens

The rules for the words of the assembler: identifiers, numbers and relative labels. Each takes the
longest token at the cursor and skips no blanks, but for those between `$` and its digits.
-/

namespace Asm65816.Token

open Text (Radix isIdentifierPart isIdentifierStart)

/-- An identifier. -/
def identifier : Rule String := ⟨fun c =>
  match c.rest with
  | [] => .error (.lexical (.missing "identifier" none) c.pos)
  | ch :: rest =>
    if isIdentifierStart ch then
      .ok (String.ofList (ch :: rest.takeWhile isIdentifierPart),
        (c.advance 1).skipWhile isIdentifierPart)
    else .error (.lexical (.missing "identifier" (some ch)) c.pos)⟩

/-! ## Numbers -/

/-- The digits of the largest number. A longer run without leading zeros is refused before its
value is taken. -/
def longestNumeral : Radix → Nat
  | .decimal => 10
  | .hexadecimal => 8

/-- The number that a run of digits spells, or the overflow of its `literal`. -/
def number (radix : Radix) (digits : List Char) (width : Width) (literal : List Char)
    (offset : Nat) : Except Failure Number :=
  if longestNumeral radix < (digits.dropWhile (· = '0')).length then
    .error (.overflow (String.ofList literal) offset none)
  else if h : radix.value digits ≤ Number.largest then .ok ⟨radix.value digits, width, h⟩
  else .error (.overflow (String.ofList literal) offset none)

/-- A decimal number: a run of ASCII digits. -/
def decimal : Rule Number := ⟨fun c =>
  match c.rest.takeWhile Radix.decimal.isDigit with
  | [] => .error (.lexical (.expected "decimal number") c.pos)
  | digits =>
    match number .decimal digits .unsized digits c.pos with
    | .ok n => .ok (n, c.skipWhile Radix.decimal.isDigit)
    | .error f => .error f⟩

/-- The digits of a hexadecimal number that began at `start`. Their count gives the width. -/
def hexadecimalDigits (start : Nat) : Rule Number := ⟨fun c =>
  match c.rest.takeWhile Radix.hexadecimal.isDigit with
  | [] => .error (.mismatch (.expected "hex digits after '$'") c.pos)
  | digits =>
    match number .hexadecimal digits (.ofDigitCount digits.length) ('$' :: digits) start with
    | .ok n => .ok (n, c.skipWhile Radix.hexadecimal.isDigit)
    | .error f => .error f⟩

/-- A hexadecimal number: `$`, blanks, digits. -/
def hexadecimal : Rule Number := do
  let start ← Rule.cursor
  let _ ← Rule.char ['$'] "'$'" Failure.lexical
  Rule.skipBlank
  hexadecimalDigits start.pos

/-! ## Relative labels -/

/-- A run of markers is never empty. -/
theorem forward_ne_zero (more : Nat) : (more : Int) + 1 ≠ 0 := by omega

theorem back_ne_zero (more : Nat) : -((more : Int) + 1) ≠ 0 := by omega

/-- A relative label: a run of `+` or of `-`. -/
def relativeLabel : Rule Label := ⟨fun c =>
  match c.rest with
  | '+' :: rest =>
    let more := (rest.takeWhile (· = '+')).length
    .ok (.relative (more + 1) (forward_ne_zero more), (c.advance 1).skipWhile (· = '+'))
  | '-' :: rest =>
    let more := (rest.takeWhile (· = '-')).length
    .ok (.relative (-(more + 1)) (back_ne_zero more), (c.advance 1).skipWhile (· = '-'))
  | _ => .error (.lexical (.expected "relative label") c.pos)⟩

/-! ## Every token reads something -/

/-- A cursor that takes its first character and then a run reads something. -/
theorem reads_advance_skipWhile {c : Cursor} {ch : Char} {rest : List Char}
    (h : c.rest = ch :: rest) (p : Char → Bool) :
    ∃ used, used ≠ [] ∧ c.Reads used ((c.advance 1).skipWhile p) :=
  ⟨_, by simp, (Cursor.reads_advance_one (by rw [Cursor.peek?, h]; rfl)).append
    (Cursor.reads_skipWhile p _)⟩

theorem advances_identifier : identifier.Advances := fun c d a h => by
  simp only [identifier] at h
  split at h
  · cases h
  · next hc =>
    split at h
    · cases h
      exact reads_advance_skipWhile hc _
    · cases h

theorem advances_decimal : decimal.Advances := fun c d a h => by
  simp only [decimal] at h
  split at h
  · cases h
  · next hne =>
    split at h
    · cases h
      exact ⟨_, hne, c.reads_skipWhile _⟩
    · cases h

theorem advances_hexadecimalDigits (start : Nat) : (hexadecimalDigits start).Advances :=
  fun c d a h => by
    simp only [hexadecimalDigits] at h
    split at h
    · cases h
    · next hne =>
      split at h
      · cases h
        exact ⟨_, hne, c.reads_skipWhile _⟩
      · cases h

theorem advances_hexadecimal : hexadecimal.Advances :=
  Rule.forward_cursor.bind_advances fun start =>
    (Rule.advances_char ..).bind fun _ =>
      Rule.forward_skipBlank.bind fun _ => (advances_hexadecimalDigits start.pos).forward

theorem advances_relativeLabel : relativeLabel.Advances := fun c d a h => by
  simp only [relativeLabel] at h
  split at h
  · next hc => cases h; exact reads_advance_skipWhile hc _
  · next hc => cases h; exact reads_advance_skipWhile hc _
  · cases h

end Asm65816.Token
