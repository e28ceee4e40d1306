import Asm65816.Text.Numeral
import Asm65816.Text.Quoted

/-!
# Strict UTF-8

`decode` reads octets as UTF-8 and refuses the first octet sequence that is none, with the
`Fault` that names where it stands and why: the octets that began well, without the one that does
not fit.
-/

namespace Asm65816.Text.Utf8

/-- Why octets are not UTF-8. -/
inductive Defect where
  /-- No character begins with the octet. -/
  | start
  /-- A continuation octet was due. -/
  | continuation
  /-- The octets end inside a character. -/
  | truncated
  deriving DecidableEq, Repr

/-- The defect in words. -/
def Defect.message : Defect → String
  | start => "invalid start byte"
  | continuation => "invalid continuation byte"
  | truncated => "unexpected end of data"

/-- The first defect of some octets: those from `first` on, `count` in number. -/
structure Fault where
  defect : Defect
  first : Nat
  count : Nat
  deriving DecidableEq, Repr

/-- How many continuation octets follow a first octet, and the range of the next one; later
ones range over `0x80` to `0xBF`. -/
def continuations? (b : UInt8) : Option (Nat × UInt8 × UInt8) :=
  if b < 0x80 then some (0, 0x80, 0xBF)
  else if b < 0xC2 then none
  else if b < 0xE0 then some (1, 0x80, 0xBF)
  else if b = 0xE0 then some (2, 0xA0, 0xBF)
  else if b = 0xED then some (2, 0x80, 0x9F)
  else if b < 0xF0 then some (2, 0x80, 0xBF)
  else if b = 0xF0 then some (3, 0x90, 0xBF)
  else if b < 0xF4 then some (3, 0x80, 0xBF)
  else if b = 0xF4 then some (3, 0x80, 0x8F)
  else none

/-- The bits that a first octet contributes. -/
def firstBits (b : UInt8) : Nat :=
  if b < 0x80 then b.toNat
  else if b < 0xE0 then b.toNat % 0x20
  else if b < 0xF0 then b.toNat % 0x10
  else b.toNat % 0x08

/-- Where decoding stands: between characters, or inside one that began `read` octets ago, has the
bits `code` so far, owes `owed + 1` more octets and wants the next one in a range. -/
inductive State where
  | between
  | inside (code read owed : Nat) (low high : UInt8)

/-- Decodes the octets from position `pos` on. -/
def decodeFrom (pos : Nat) : State → List UInt8 → Except Fault (List Char)
  | .between, [] => .ok []
  | .inside _ read _ _ _, [] => .error ⟨.truncated, pos - read, read⟩
  | .between, b :: rest =>
    match continuations? b with
    | none => .error ⟨.start, pos, 1⟩
    | some (0, _, _) => (Char.ofNat b.toNat :: ·) <$> decodeFrom (pos + 1) .between rest
    | some (owed + 1, low, high) =>
      decodeFrom (pos + 1) (.inside (firstBits b) 1 owed low high) rest
  | .inside code read owed low high, b :: rest =>
    if low ≤ b && b ≤ high then
      let code := code * 0x40 + b.toNat % 0x40
      match owed with
      | 0 => (Char.ofNat code :: ·) <$> decodeFrom (pos + 1) .between rest
      | owed + 1 => decodeFrom (pos + 1) (.inside code (read + 1) owed 0x80 0xBF) rest
    else .error ⟨.continuation, pos - read, read⟩

/-- The characters that octets encode. -/
def decode (bytes : List UInt8) : Except Fault (List Char) := decodeFrom 0 .between bytes

/-- The fault in words: the octet itself when it is a single one, else their positions. -/
def Fault.message (bytes : List UInt8) (f : Fault) : String :=
  if f.count = 1 then
    let octet := String.ofList (lowerHex 2 (bytes.getD f.first 0).toNat)
    let first := decimal f.first
    let why := f.defect.message
    s!"'utf-8' codec can't decode byte 0x{octet} in position {first}: {why}"
  else
    let first := decimal f.first
    let last := decimal (f.first + f.count - 1)
    let why := f.defect.message
    s!"'utf-8' codec can't decode bytes in position {first}-{last}: {why}"

end Asm65816.Text.Utf8
