import Asm65816.Invalid

/-!
# Numbers

A number is an unsigned 32-bit value with the width that its spelling suggests. Only hexadecimal
spellings of exactly two or four digits suggest one; it is never taken from the value.
-/

namespace Asm65816

/-- The width that a number's spelling suggests. -/
inductive Width where
  | unsized
  | oneByte
  | twoBytes
  deriving DecidableEq, Repr

namespace Width

/-- Every width, in order. -/
def all : List Width := [unsized, oneByte, twoBytes]

/-- The name of a width in listings. -/
def name : Width → String
  | unsized => "NONE"
  | oneByte => "ONE_BYTE"
  | twoBytes => "TWO_BYTES"

/-- The width that a count of hexadecimal digits suggests. -/
def ofDigitCount (count : Int) : Width :=
  if count = 2 then oneByte else if count = 4 then twoBytes else unsized

end Width

/-- The largest number, `$FFFFFFFF`. -/
def Number.largest : Nat := 0xFFFFFFFF

/-- An unsigned 32-bit number and its suggested width. -/
structure Number where
  value : Nat
  width : Width
  value_le : value ≤ Number.largest
  deriving DecidableEq

namespace Number

/-- A number from a loose value. -/
def make (value : Int) (width : Width) : Except Invalid Number :=
  if h : 0 ≤ value ∧ value ≤ Number.largest then .ok ⟨value.toNat, width, by omega⟩
  else .error (.number value)

/-- A number as it is written: two or four hexadecimal digits at least when it has a width, else
decimal. -/
def chars (n : Number) : List Char :=
  match n.width with
  | .unsized => Text.Radix.decimal.numeral n.value
  | .oneByte => '$' :: Text.zeroPadded 2 (Text.Radix.hexadecimal.numeral n.value)
  | .twoBytes => '$' :: Text.zeroPadded 4 (Text.Radix.hexadecimal.numeral n.value)

/-- A number as it is written. -/
def render (n : Number) : String := String.ofList n.chars

end Number

end Asm65816
