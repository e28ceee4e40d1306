import Asm65816.Proofs.Layout

/-!
# Normal forms are layouts

The normal form of an expression puts parentheses round every binary node, so it opens one level for
each binary node and each call on the way down (`Expr.nesting`), however many levels the text had
that the expression was read from. Here the normal form is shown to be a layout of the expression at
just that many levels. Not every tree is written so that it can be read back: a number has to fit
its width, a name has to be an identifier and an operator has to be one of four. What the trees that
have a layout at all keep of this is collected in `Expr.Normal`.
-/

namespace Asm65816

open Text (Blanks Avoids Apart Radix isBlank isIdentifier isIdentifierPart isIdentifierStart)

/-! ## Nesting -/

namespace Expr

mutual
/-- How many levels the normal form of an expression opens. -/
def nesting : Expr → Nat
  | .number _ | .label _ => 0
  | .binary _ left right => 1 + max left.nesting right.nesting
  | .call _ args => 1 + nestingOfArgs args

/-- How many levels the normal forms of arguments open at most. -/
def nestingOfArgs : List Expr → Nat
  | [] => 0
  | e :: rest => max e.nesting (nestingOfArgs rest)
end

/-- The name that an expression begins with, if it is a name or a call. -/
def name? : Expr → Option String
  | .label (.named name) | .call name _ => some name
  | _ => none

end Expr

/-- How many levels an operand opens around a value that opens some itself. -/
def Shape.nesting (value : Nat) : Shape → Nat
  | .immediate | .address => value
  | .indirect | .xIndirect | .indirectY | .stackIndirectY | .longIndirect | .longIndirectY =>
    1 + value
  | .move second => max value second.nesting
  | .accumulator => 0

/-- How many levels the normal form of an operand opens. -/
def Operand.nesting : Operand → Nat
  | .implied => 0
  | .valued shape value => shape.nesting value.nesting

/-- How many levels the normal form of a statement opens. A conditional is no statement that the
grammar reads, and it is not looked into. -/
def Statement.nesting : Statement → Nat
  | .label _ | .conditional _ => 0
  | .instruction i => i.operand.nesting
  | .org e | .assignment _ e => e.nesting

/-! ## Numbers -/

/-- A written decimal number is read as the same number. -/
theorem layout_decimal {n : Number} (hw : n.width = .unsized) :
    Layout 0 (.atom (.number n)) (Radix.decimal.numeral n.value) := by
  have hdigits : Radix.decimal.Digits (Radix.decimal.numeral n.value) :=
    ⟨Radix.numeral_ne_nil _ _, Radix.isDigit_numeral _ _⟩
  have h : Layout 0 (.atom (.number n)) (Radix.decimal.numeral n.value ++ []) :=
    .decimal hdigits (Radix.value_numeral _ _).symm hw Text.blanks_nil
  rwa [List.append_nil] at h

/-- A hexadecimal number is written with as many digits as give its width, if it fits them. -/
theorem layout_hexadecimal {n : Number} {k : Nat} (hw : n.width = .ofDigitCount (k + 1))
    (hv : n.value < 16 ^ (k + 1)) : Layout 0 (.atom (.number n))
      ('$' :: Text.zeroPadded (k + 1) (Radix.hexadecimal.numeral n.value)) := by
  have hlen := Radix.length_zeroPadded .hexadecimal hv
  have hdigits : Radix.hexadecimal.Digits
      (Text.zeroPadded (k + 1) (Radix.hexadecimal.numeral n.value)) := by
    refine ⟨?_, Radix.isDigit_zeroPadded _ _ _⟩
    rw [← List.length_pos_iff, hlen]
    omega
  have h : Layout 0 (.atom (.number n))
      ('$' :: [] ++ Text.zeroPadded (k + 1) (Radix.hexadecimal.numeral n.value) ++ []) :=
    .hexadecimal Text.blanks_nil hdigits (Radix.value_zeroPadded _ _ _).symm
      (by rw [hw, hlen]; rfl) Text.blanks_nil
  rwa [List.append_nil] at h

/-- The width that digits give is one that their value fits. -/
theorem layout_number {n : Number} {ds : List Char} (hv : n.value = Radix.hexadecimal.value ds)
    (hw : n.width = .ofDigitCount ds.length) : Layout 0 (.atom (.number n)) n.chars := by
  have hlt : n.value < 16 ^ ds.length := by
    rw [hv]
    exact Radix.value_lt_pow _ ds
  unfold Number.chars
  unfold Width.ofDigitCount at hw
  split at hw
  · next h2 =>
    have h2 : ds.length = 2 := by omega
    rw [h2] at hlt
    rw [hw]
    exact layout_hexadecimal hw hlt
  · split at hw
    · next h4 =>
      have h4 : ds.length = 4 := by omega
      rw [h4] at hlt
      rw [hw]
      exact layout_hexadecimal hw hlt
    · rw [hw]
      exact layout_decimal hw

/-! ## Expressions -/

/-- The normal form of a binary node without the parentheses round it. -/
def Expr.joined (op : Operator) (left right : Expr) : List Char :=
  left.chars ++ ' ' :: op.symbol ++ ' ' :: right.chars

/-- An expression that its normal form spells. -/
structure Expr.Normal (e : Expr) : Prop where
  layout : Layout e.nesting (.atom e) e.chars
  /-- Without the parentheses a binary node opens one level less. -/
  joined : ∀ {op l r}, e = .binary op l r →
    Layout (max l.nesting r.nesting) (.sum e) (Expr.joined op l r)
  name : ∀ {name}, e.name? = some name → isIdentifier name.toList = true

theorem Expr.Normal.sum {e : Expr} (h : e.Normal) : Layout e.nesting (.sum e) e.chars :=
  .ofTerm (.ofAtom h.layout)

/-- What the trees that have a layout have in common. -/
def Phrase.Normal : Phrase → Prop
  | .atom e | .term e | .sum e => e.Normal
  | .arguments es => Layout (Expr.nestingOfArgs es) (.arguments es) (Expr.charsOfArgs es)

namespace Expr

variable {e l r : Expr} {es : List Expr}

theorem normal_number {n : Number} (h : Layout 0 (.atom (.number n)) n.chars) :
    (number n).Normal where
  layout := h
  joined := nofun
  name := nofun

theorem normal_named {name : String} (h : isIdentifier name.toList = true) :
    (label (.named name)).Normal where
  layout := by
    have hl : Layout 0 (.atom (.label (.named name))) (name.toList ++ []) :=
      .named h Text.blanks_nil
    rwa [List.append_nil] at hl
  joined := nofun
  name hname := by
    cases hname
    exact h

theorem normal_relative {k : Int} (hk : k ≠ 0) : (label (.relative k hk)).Normal where
  layout := by
    have hl : Layout 0 (.atom (.label (.relative k hk))) (Label.markers k ++ []) :=
      .relative Text.blanks_nil
    rwa [List.append_nil] at hl
  joined := nofun
  name := nofun

theorem normal_call {name : String} (hn : isIdentifier name.toList = true)
    (h : Layout (nestingOfArgs es) (.arguments es) (charsOfArgs es)) : (call name es).Normal where
  layout := by
    have hl : Layout (nestingOfArgs es + 1) (.atom (.call name es))
        (name.toList ++ [] ++ '(' :: [] ++ charsOfArgs es ++ ')' :: []) :=
      .call hn Text.blanks_nil Text.blanks_nil h Text.blanks_nil
    rw [nesting, Nat.add_comm, chars]
    simpa using hl
  joined := nofun
  name hname := by
    cases hname
    exact hn

/-- Between two normal forms an operator stands with blanks around it, so it may be any, and the
parentheses on both sides leave no question of precedence. -/
theorem layout_joined {op : Operator} (hop : op ∈ [.add, .sub] ∨ op ∈ [.mul, .div])
    (hl : l.Normal) (hr : r.Normal) :
    Layout (max l.nesting r.nesting) (.sum (.binary op l r)) (joined op l r) := by
  have hl := hl.layout.mono (Nat.le_max_left l.nesting r.nesting)
  have hr := hr.layout.mono (Nat.le_max_right l.nesting r.nesting)
  have blank : Blanks [' '] := by decide
  have hapart : Apart (l.chars ++ [' ']) op.symbol := Text.apart_append_blanks blank nofun
  have hl' := hl.append_blanks nofun blank
  have htext : joined op l r = l.chars ++ [' '] ++ op.symbol ++ [' '] ++ r.chars := by
    simp [joined]
  rw [htext]
  rcases hop with hop | hop
  · exact .addition hop (.ofTerm (.ofAtom hl')) hapart blank (.ofAtom hr)
  · exact .ofTerm (.product hop (.ofAtom hl') hapart blank hr)

theorem normal_binary {op : Operator} (hop : op ∈ [.add, .sub] ∨ op ∈ [.mul, .div])
    (hl : l.Normal) (hr : r.Normal) : (binary op l r).Normal where
  layout := by
    have h : Layout (max l.nesting r.nesting + 1) (.atom (.binary op l r))
        ('(' :: [] ++ joined op l r ++ ')' :: []) :=
      .group Text.blanks_nil (layout_joined hop hl hr) Text.blanks_nil
    rw [nesting, Nat.add_comm, chars]
    simpa [joined] using h
  joined h := by
    cases h
    exact layout_joined hop hl hr
  name := nofun

end Expr

/-- A tree that has a layout is spelled by its normal form, and so are its arguments. -/
theorem Layout.normal {levels : Nat} {p : Phrase} {t : List Char} (h : Layout levels p t) :
    p.Normal := by
  induction h with
  | @decimal _ n _ _ _ _ hw _ =>
    refine Expr.normal_number ?_
    rw [Number.chars, hw]
    exact layout_decimal hw
  | hexadecimal _ _ hv hw _ => exact Expr.normal_number (layout_number hv hw)
  | named hn _ => exact Expr.normal_named hn
  | relative _ => exact Expr.normal_relative _
  | group _ _ _ ih | ofAtom _ ih | ofTerm _ ih => exact ih
  | call hn _ _ _ _ ih => exact Expr.normal_call hn ih
  | noArguments => exact .noArguments
  | @oneArgument _ e _ _ ih =>
    show Layout (max e.nesting 0) (.arguments [e]) e.chars
    rw [Nat.max_zero]
    exact .oneArgument (.ofTerm (.ofAtom ih.layout))
  | @moreArguments _ e f es _ _ _ _ _ _ ihs iht =>
    have blank : Blanks [' '] := by decide
    have hs := ihs.layout.mono (Nat.le_max_left e.nesting (Expr.nestingOfArgs (f :: es)))
    have ht := iht.mono (Nat.le_max_right e.nesting (Expr.nestingOfArgs (f :: es)))
    have h := Layout.moreArguments (.ofTerm (.ofAtom hs)) blank ht
    show Layout _ _ (e.chars ++ ',' :: ' ' :: Expr.charsOfArgs (f :: es))
    rwa [List.append_assoc] at h
  | product hop _ _ _ _ ihl ihr => exact Expr.normal_binary (.inr hop) ihl ihr
  | addition hop _ _ _ _ ihl ihr => exact Expr.normal_binary (.inl hop) ihl ihr

/-! ## The first character of a normal form -/

namespace Expr

/-- Whether a normal form may begin with a character; every kind of tree has its own. -/
def opensWith : Expr → Char → Bool
  | .number _, ch => ch = '$' || Radix.decimal.isDigit ch
  | .label (.relative ..), ch => ch = '+' || ch = '-'
  | .label (.named _), ch | .call .., ch => isIdentifierStart ch
  | .binary .., ch => ch = '('

/-- A number begins with `$` or with a digit. -/
theorem opensWith_number (n : Number) :
    ∃ ch rest, (number n).chars = ch :: rest ∧ (number n).opensWith ch = true := by
  rw [chars, Number.chars]
  cases n.width with
  | unsized =>
    obtain ⟨ch, rest, hcons⟩ := List.exists_cons_of_ne_nil (Radix.numeral_ne_nil .decimal n.value)
    have hdigit := Radix.isDigit_numeral .decimal n.value ch (by rw [hcons]; simp)
    exact ⟨ch, rest, hcons, by simp [opensWith, hdigit]⟩
  | oneByte => exact ⟨'$', _, rfl, rfl⟩
  | twoBytes => exact ⟨'$', _, rfl, rfl⟩

theorem Normal.opensWith {e : Expr} (h : e.Normal) :
    ∃ ch rest, e.chars = ch :: rest ∧ e.opensWith ch = true := by
  cases e with
  | number n => exact opensWith_number n
  | label l =>
    cases l with
    | named name =>
      obtain ⟨ch, rest, hname, hch, -⟩ := Text.isIdentifier_iff.1 (h.name rfl)
      exact ⟨ch, rest, hname, hch⟩
    | relative k hk =>
      obtain ⟨rest, hcons⟩ := Label.markers_eq_cons hk
      refine ⟨Label.marker k, rest, hcons, ?_⟩
      rcases Label.marker_eq k with hm | hm <;> rw [hm] <;> rfl
  | binary op l r => exact ⟨'(', _, rfl, rfl⟩
  | call name args =>
    obtain ⟨ch, rest, hname, hch, -⟩ := Text.isIdentifier_iff.1 (h.name rfl)
    exact ⟨ch, rest ++ '(' :: charsOfArgs args ++ [')'], by rw [chars, hname]; rfl, hch⟩

/-- Only a binary node begins with a parenthesis. -/
theorem Normal.avoids_paren {e : Expr} (h : e.Normal) (hb : ∀ op l r, e ≠ .binary op l r)
    (t : List Char) : Avoids (['('].contains) (e.chars ++ t) := by
  obtain ⟨ch, rest, hcons, hch⟩ := h.opensWith
  rw [hcons, List.cons_append, Text.avoids_cons]
  refine Bool.eq_false_iff.2 fun hparen => ?_
  obtain rfl : ch = '(' := by simpa using hparen
  cases e with
  | number n => cases hch
  | label l => cases l <;> cases hch
  | binary op l r => exact absurd rfl (hb op l r)
  | call name args => cases hch

/-- Only a name or a call begins as an identifier does. -/
theorem Normal.avoids_identifier {e : Expr} (h : e.Normal) (hn : e.name? = none) (t : List Char) :
    Avoids isIdentifierStart (e.chars ++ t) := by
  obtain ⟨ch, rest, hcons, hch⟩ := h.opensWith
  rw [hcons, List.cons_append, Text.avoids_cons]
  refine Bool.eq_false_iff.2 fun hstart => ?_
  cases e with
  | number n =>
    rw [Expr.opensWith, Text.isDigit_of_isIdentifierStart hstart, Bool.or_false,
      decide_eq_true_eq] at hch
    subst hch
    cases hstart
  | label l =>
    cases l with
    | named name => cases hn
    | relative k hk =>
      rw [Expr.opensWith, Bool.or_eq_true, decide_eq_true_eq, decide_eq_true_eq] at hch
      rcases hch with rfl | rfl <;> cases hstart
  | binary op l r =>
    rw [Expr.opensWith, decide_eq_true_eq] at hch
    subst hch
    cases hstart
  | call name args => cases hn

end Expr

/-! ## Operands -/

/-- An operand whose expressions are spelled by their normal forms. The accumulator is no shape that
is read. -/
def Operand.Normal : Operand → Prop
  | .implied => True
  | .valued (.move second) e => e.Normal ∧ second.Normal
  | .valued .accumulator _ => False
  | .valued _ e => e.Normal

/-- The operand's normal form begins with the parentheses of its value, which then are taken for
those of a shape. -/
def Operand.WritesGroup : Operand → Prop
  | .valued .address (.binary ..) | .valued (.move _) (.binary ..) => True
  | _ => False

theorem Enclosed.normal {opening closing : Char} {levels : Nat} {e : Expr} {t : List Char}
    (h : Enclosed opening closing levels e t) : e.Normal := by
  obtain ⟨-, h, -⟩ := h
  exact h.normal

theorem EnclosedIndexed.normal {letter : Char} {levels : Nat} {e : Expr} {t : List Char}
    (h : EnclosedIndexed letter levels e t) : e.Normal := by
  obtain ⟨-, h, -, -⟩ := h
  exact h.normal

theorem OperandLayout.normal {levels : Nat} {o : Operand} {t : List Char}
    (h : OperandLayout levels o t) : o.Normal := by
  cases h with
  | implied => trivial
  | immediate _ h | address h => exact h.normal
  | indirect h | indirectY h _ | longIndirect h | longIndirectY h _ => exact h.normal
  | xIndirect h | stackIndirectY h _ => exact h.normal
  | move he _ hf => exact ⟨he.normal, hf.normal⟩

end Asm65816
