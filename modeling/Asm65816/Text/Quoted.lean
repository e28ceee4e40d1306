import Asm65816.Text.Numeral
import Asm65816.Text.Printable

/-!
# Quoted text

Text and octets as shown inside messages. They stand between single quotes, or between double
quotes when that saves escapes: when there is a single quote and no double one. The delimiter and
the backslash are escaped, tab, line feed and carriage return have short escapes, and what cannot
be printed is written by its code in lower-case hexadecimal.
-/

namespace Asm65816.Text.Quoted

/-- The delimiter: double quotes when there is a single quote and no double one. -/
def delimiter (cs : List Char) : Char :=
  if cs.contains '\'' && !cs.contains '"' then '"' else '\''

/-- A code point by its number: two digits below `0x100`, four below `0x10000`, else eight. -/
def numbered (n : Nat) : List Char :=
  if n < 0x100 then '\\' :: 'x' :: lowerHex 2 n
  else if n < 0x10000 then '\\' :: 'u' :: lowerHex 4 n
  else '\\' :: 'U' :: lowerHex 8 n

/-- One character between delimiters. -/
def escaped (delimiter c : Char) : List Char :=
  if c = delimiter || c = '\\' then ['\\', c]
  else if c = '\t' then ['\\', 't']
  else if c = '\n' then ['\\', 'n']
  else if c = '\r' then ['\\', 'r']
  else if isPrintable c then [c]
  else numbered c.toNat

/-- A text between quotes. -/
def chars (cs : List Char) : List Char :=
  let quote := delimiter cs
  quote :: cs.flatMap (escaped quote) ++ [quote]

/-- A string between quotes. -/
def text (s : String) : String := String.ofList (chars s.toList)

/-- One octet between delimiters: as its ASCII character where that is printable. -/
def escapedOctet (delimiter : Char) (b : UInt8) : List Char :=
  let c := Char.ofNat b.toNat
  if c = delimiter || c = '\\' then ['\\', c]
  else if c = '\t' then ['\\', 't']
  else if c = '\n' then ['\\', 'n']
  else if c = '\r' then ['\\', 'r']
  else if 0x20 ≤ b && b < 0x7F then [c]
  else numbered b.toNat

/-- Octets between quotes, marked by a leading `b`. -/
def octets (bytes : List UInt8) : String :=
  let quote := delimiter (bytes.map fun b => Char.ofNat b.toNat)
  String.ofList ('b' :: quote :: bytes.flatMap (escapedOctet quote) ++ [quote])

end Asm65816.Text.Quoted
