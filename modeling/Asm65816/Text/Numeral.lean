/-!
# Numerals

Digits, numerals and their values in the two radices of the assembler. Writing
(`Radix.numeral`) gives the shortest numeral with upper-case digits; reading (`Radix.value`) takes
leading zeros and either case.
-/

namespace Asm65816.Text

/-- The radix of a number's spelling. -/
inductive Radix where
  | decimal
  | hexadecimal
  deriving DecidableEq, Repr

namespace Radix

/-- The number of digits of the radix. -/
def base : Radix → Nat
  | decimal => 10
  | hexadecimal => 16

theorem one_lt_base (r : Radix) : 1 < r.base := by cases r <;> decide

/-- The value of a digit, in either case. -/
def digitValue? (r : Radix) (c : Char) : Option Nat :=
  let n := c.toNat
  if '0'.toNat ≤ n ∧ n ≤ '9'.toNat then some (n - '0'.toNat)
  else match r with
    | decimal => none
    | hexadecimal =>
      if 'a'.toNat ≤ n ∧ n ≤ 'f'.toNat then some (n - 'a'.toNat + 10)
      else if 'A'.toNat ≤ n ∧ n ≤ 'F'.toNat then some (n - 'A'.toNat + 10)
      else none

/-- Whether `c` is a digit of the radix. -/
def isDigit (r : Radix) (c : Char) : Bool := (r.digitValue? c).isSome

/-- The value of a numeral; a character that is no digit counts as zero. -/
def value (r : Radix) (digits : List Char) : Nat :=
  digits.foldl (fun n c => n * r.base + (r.digitValue? c).getD 0) 0

/-- The upper-case digits, from zero. -/
def digits : List Char :=
  ['0', '1', '2', '3', '4', '5', '6', '7', '8', '9', 'A', 'B', 'C', 'D', 'E', 'F']

/-- The upper-case digit of a value below the base. -/
def digit (n : Nat) : Char := digits.getD n '0'

/-- The shortest numeral of a value. -/
def numeral (r : Radix) (n : Nat) : List Char :=
  if n < r.base then [digit n] else numeral r (n / r.base) ++ [digit (n % r.base)]
termination_by n
decreasing_by exact Nat.div_lt_self (by have := r.one_lt_base; omega) r.one_lt_base

end Radix

/-- Puts zeros in front of a numeral until it has `width` digits. -/
def zeroPadded (width : Nat) (numeral : List Char) : List Char :=
  List.replicate (width - numeral.length) '0' ++ numeral

/-- A natural number in decimal. -/
def decimal (n : Nat) : String := String.ofList (Radix.decimal.numeral n)

/-- An integer in decimal, a minus sign in front of a negative one. -/
def decimalInt : Int → String
  | .ofNat n => decimal n
  | .negSucc n => "-" ++ decimal (n + 1)

/-- A value as `width` lower-case hexadecimal digits or more. -/
def lowerHex (width n : Nat) : List Char :=
  (zeroPadded width (Radix.hexadecimal.numeral n)).map Char.toLower

end Asm65816.Text
