/-!
# Instruction encoding

The opcode byte of a mnemonic in an addressing mode, for the accumulator group: eight instructions
with one encoding pattern. Each has a base, each mode adds its offset, and all combinations exist
but the immediate store.

A mnemonic may be written in either case, and also with the letters beyond ASCII whose upper case is
made of ASCII letters (`upper?`).
-/

namespace Asm65816

/-! ## Addressing modes -/

/-- How the processor finds an operand. -/
inductive AddressingMode where
  | implied | directPage | absolute | absoluteLong | immediate | directPageX | absoluteX
  | absoluteY | absoluteLongX | directIndirect | directXIndirect | directIndirectY
  | directIndirectLong | directIndirectLongY | stackRelative | stackIndirectY
  deriving DecidableEq, Repr

namespace AddressingMode

/-- Every mode, in order. -/
def all : List AddressingMode :=
  [implied, directPage, absolute, absoluteLong, immediate, directPageX, absoluteX, absoluteY,
    absoluteLongX, directIndirect, directXIndirect, directIndirectY, directIndirectLong,
    directIndirectLongY, stackRelative, stackIndirectY]

/-- The name of a mode in listings. -/
def name : AddressingMode → String
  | implied => "IMPLIED"
  | directPage => "DIRECT_PAGE"
  | absolute => "ABSOLUTE"
  | absoluteLong => "ABSOLUTE_LONG"
  | immediate => "IMMEDIATE"
  | directPageX => "DP_INDEXED_X"
  | absoluteX => "ABSOLUTE_INDEXED_X"
  | absoluteY => "ABSOLUTE_INDEXED_Y"
  | absoluteLongX => "ABSOLUTE_LONG_INDEXED_X"
  | directIndirect => "DP_INDIRECT"
  | directXIndirect => "DP_INDEXED_INDIRECT_X"
  | directIndirectY => "DP_INDIRECT_INDEXED_Y"
  | directIndirectLong => "DP_INDIRECT_LONG"
  | directIndirectLongY => "DP_INDIRECT_LONG_INDEXED_Y"
  | stackRelative => "STACK_RELATIVE"
  | stackIndirectY => "SR_INDIRECT_INDEXED_Y"

/-- The operand of a mode as it is written. -/
def operandForm : AddressingMode → String
  | implied => "implied"
  | directPage => "dp"
  | absolute => "addr"
  | absoluteLong => "long"
  | immediate => "#const"
  | directPageX => "dp,x"
  | absoluteX => "addr,x"
  | absoluteY => "addr,y"
  | absoluteLongX => "long,x"
  | directIndirect => "(dp)"
  | directXIndirect => "(dp,x)"
  | directIndirectY => "(dp),y"
  | directIndirectLong => "[dp]"
  | directIndirectLongY => "[dp],y"
  | stackRelative => "sr,s"
  | stackIndirectY => "(sr,s),y"

/-- The modes of the accumulator group and what each adds to the base, in the order of the
opcodes. -/
def offsets : List (AddressingMode × Nat) :=
  [(directXIndirect, 0x01), (stackRelative, 0x03), (directPage, 0x05), (directIndirectLong, 0x07),
    (immediate, 0x09), (absolute, 0x0D), (absoluteLong, 0x0F), (directIndirectY, 0x11),
    (directIndirect, 0x12), (stackIndirectY, 0x13), (directPageX, 0x15),
    (directIndirectLongY, 0x17), (absoluteY, 0x19), (absoluteX, 0x1D), (absoluteLongX, 0x1F)]

end AddressingMode

/-! ## Mnemonics -/

/-- An instruction of the accumulator group. -/
inductive Mnemonic where
  | ora | and | eor | adc | sta | lda | cmp | sbc
  deriving DecidableEq, Repr

namespace Mnemonic

/-- Every mnemonic, in the order of the opcodes. -/
def all : List Mnemonic := [ora, and, eor, adc, sta, lda, cmp, sbc]

/-- The mnemonic as it is written. -/
def chars : Mnemonic → List Char
  | ora => ['O', 'R', 'A']
  | and => ['A', 'N', 'D']
  | eor => ['E', 'O', 'R']
  | adc => ['A', 'D', 'C']
  | sta => ['S', 'T', 'A']
  | lda => ['L', 'D', 'A']
  | cmp => ['C', 'M', 'P']
  | sbc => ['S', 'B', 'C']

/-- The mnemonic as it is written. -/
def render (m : Mnemonic) : String := String.ofList m.chars

/-- What the modes' offsets are added to. -/
def base : Mnemonic → Nat
  | ora => 0x00
  | and => 0x20
  | eor => 0x40
  | adc => 0x60
  | sta => 0x80
  | lda => 0xA0
  | cmp => 0xC0
  | sbc => 0xE0

/-- The upper case of a character in ASCII letters, where it has one. Beyond ASCII these are the
sharp and the long s, the dotless i and the ligatures of f and of s. -/
def upper? (c : Char) : Option (List Char) :=
  if c.toNat < 0x80 then some [c.toUpper]
  else match c with
    | '\u00df' => some ['S', 'S']
    | '\u0131' => some ['I']
    | '\u017f' => some ['S']
    | '\ufb00' => some ['F', 'F']
    | '\ufb01' => some ['F', 'I']
    | '\ufb02' => some ['F', 'L']
    | '\ufb03' => some ['F', 'F', 'I']
    | '\ufb04' => some ['F', 'F', 'L']
    | '\ufb05' => some ['S', 'T']
    | '\ufb06' => some ['S', 'T']
    | _ => none

/-- The mnemonic of a spelling. -/
def ofText? (text : String) : Option Mnemonic :=
  match text.toList.mapM upper? with
  | none => none
  | some parts => all.find? (·.chars = parts.flatten)

/-! ## Opcodes -/

/-- Whether the processor has the combination. -/
def supports (m : Mnemonic) (mode : AddressingMode) : Bool :=
  !(m = sta && mode = .immediate)

/-- The modes of a mnemonic with their opcodes, in the order of the opcodes. -/
def encodings (m : Mnemonic) : List (AddressingMode × Nat) :=
  (AddressingMode.offsets.filter fun (mode, _) => m.supports mode).map fun (mode, offset) =>
    (mode, m.base + offset)

end Mnemonic

namespace Encoding

/-- Every combination and its opcode. -/
def table : List (Mnemonic × AddressingMode × Nat) :=
  Mnemonic.all.flatMap fun m => m.encodings.map fun (mode, opcode) => (m, mode, opcode)

/-- The opcode of a mnemonic in a mode. -/
def opcode? (mnemonic : String) (mode : AddressingMode) : Option Nat :=
  (Mnemonic.ofText? mnemonic).bind fun m => m.encodings.lookup mode

/-- The modes of a mnemonic, none for an unknown one. -/
def modes (mnemonic : String) : List AddressingMode :=
  match Mnemonic.ofText? mnemonic with
  | none => []
  | some m => m.encodings.map (·.1)

/-- Whether the table has a mnemonic. -/
def knows (mnemonic : String) : Bool := (Mnemonic.ofText? mnemonic).isSome

/-- The mnemonics in alphabetical order. -/
def mnemonics : List String := (Mnemonic.all.map (·.render)).mergeSort (· ≤ ·)

end Encoding

end Asm65816
