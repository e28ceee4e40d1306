import Asm65816.Text.Blank
import Asm65816.Text.Identifier

/-!
# Cursors

A cursor is a place in a text: how many characters stand before it, and those that follow. Rules of
the grammar move cursors forward only (`Cursor.Reads`).
-/

namespace Asm65816

open Text (isBlank isIdentifierPart)

/-- A place in a text. -/
structure Cursor where
  pos : Nat
  rest : List Char
  deriving DecidableEq, Repr

namespace Cursor

/-- The cursor at a position of a text, which may lie beyond its end. -/
def ofText (text : List Char) (pos : Nat) : Cursor := ⟨pos, text.drop pos⟩

/-- The character at the cursor. -/
def peek? (c : Cursor) : Option Char := c.rest.head?

/-- The cursor `n` characters further on. -/
def advance (c : Cursor) (n : Nat) : Cursor := ⟨c.pos + n, c.rest.drop n⟩

/-- The cursor after the longest run of characters that satisfy `p`. -/
def skipWhile (p : Char → Bool) (c : Cursor) : Cursor :=
  ⟨c.pos + (c.rest.takeWhile p).length, c.rest.dropWhile p⟩

/-- The cursor after blanks. -/
def skipBlank (c : Cursor) : Cursor := c.skipWhile isBlank

/-- Whether no character that goes on an identifier follows. -/
def endsWord (c : Cursor) : Bool := !(c.peek?.any isIdentifierPart)

/-- Whether the statement ends at the cursor: after blanks, at the end of the text, at a line feed,
at the separator or at a comment. -/
def endsStatement (c : Cursor) : Bool :=
  (c.rest.takeWhile isBlank).contains '\n' ||
    c.skipBlank.peek?.all fun ch => ch = ':' || ch = ';'

/-! ## Moving forward -/

/-- Reading `used` leads from one cursor to the other. -/
def Reads (c : Cursor) (used : List Char) (d : Cursor) : Prop :=
  c.rest = used ++ d.rest ∧ d.pos = c.pos + used.length

theorem reads_nil (c : Cursor) : c.Reads [] c := ⟨rfl, rfl⟩

theorem Reads.append {c d e : Cursor} {us vs : List Char} (h : c.Reads us d) (k : d.Reads vs e) :
    c.Reads (us ++ vs) e :=
  ⟨by rw [h.1, k.1, List.append_assoc], by rw [k.2, h.2, List.length_append, Nat.add_assoc]⟩

theorem reads_skipWhile (p : Char → Bool) (c : Cursor) :
    c.Reads (c.rest.takeWhile p) (c.skipWhile p) :=
  ⟨List.takeWhile_append_dropWhile.symm, rfl⟩

theorem reads_skipBlank (c : Cursor) : c.Reads (c.rest.takeWhile isBlank) c.skipBlank :=
  c.reads_skipWhile isBlank

theorem reads_advance_one {c : Cursor} {ch : Char} (h : c.peek? = some ch) :
    c.Reads [ch] (c.advance 1) := by
  obtain ⟨pos, rest⟩ := c
  cases rest with
  | nil => simp [peek?] at h
  | cons d rest =>
    obtain rfl : d = ch := by simpa [peek?] using h
    exact ⟨by simp [advance], rfl⟩

/-- A cursor that read something has less to read. -/
theorem Reads.length_lt {c d : Cursor} {us : List Char} (h : c.Reads us d) (hne : us ≠ []) :
    d.rest.length < c.rest.length := by
  rw [h.1, List.length_append]
  have := List.length_pos_iff.2 hne
  omega

/-- A cursor never has more to read later. -/
theorem Reads.length_le {c d : Cursor} {us : List Char} (h : c.Reads us d) :
    d.rest.length ≤ c.rest.length := by
  rw [h.1, List.length_append]
  omega

end Cursor

end Asm65816
