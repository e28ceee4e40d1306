import Asm65816.Text.Blank
import Asm65816.Text.DecimalDigit

/-!
# Written integers

An integer as a person writes it in a setting: spaces around it, a sign, decimal digits of any
script, and single underscores between digits.
-/

namespace Asm65816.Text.Integer

/-- Spaces that may surround the integer: the blanks, and white space beyond ASCII. -/
def isMargin (c : Char) : Bool := isBlank c || (0x7F < c.toNat && isSpace c)

/-- Reads digits onto `acc`. An underscore must stand between two digits, so `needsDigit` holds at
the start and after an underscore. -/
def digits (acc : Nat) (needsDigit : Bool) : List Char → Option Nat
  | [] => if needsDigit then none else some acc
  | c :: rest =>
    if c = '_' then
      if needsDigit then none else digits acc true rest
    else
      match digitValue? c with
      | some d => digits (acc * 10 + d) false rest
      | none => none

/-- Reads a signed integer without margins. -/
def signed : List Char → Option Int
  | '+' :: rest => (digits 0 true rest).map Int.ofNat
  | '-' :: rest => (digits 0 true rest).map fun n => -Int.ofNat n
  | cs => (digits 0 true cs).map Int.ofNat

/-- The integer that a text writes. -/
def read? (s : String) : Option Int :=
  signed (((s.toList.dropWhile isMargin).reverse.dropWhile isMargin).reverse)

end Asm65816.Text.Integer
