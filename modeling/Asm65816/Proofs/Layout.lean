import Asm65816.Proofs.Shapes

/-!
# Layouts

The texts of a tree, as the grammar is documented and without the rules that read it. A phrase is a
place in the grammar of expressions with the tree that stands there, and
`Layout levels phrase text` says that the text spells the phrase with brackets nested at most
`levels` deep. Two tiers of operators group to the left, and parentheses may stand round any
expression. The blanks of a text are counted to the token before them, so every token has any blanks
after it. `OperandLayout` and `StatementLayout` go on with the shapes of an operand and the kinds of
a statement.

Tokens may touch, but for two cases. A relative label is a whole run of its marker, so a blank has
to stand between it and an operator that is the same character (`Text.Apart`); and a word ends
before the operand that follows it (`Text.Avoids isIdentifierPart`).
-/

namespace Asm65816

open Text (Blanks Avoids Radix isBlank isIdentifier isIdentifierPart isIdentifierStart)

/-! ## Texts side by side -/

namespace Text

/-- No run of markers at the end of the first text goes on in the second. -/
def Apart (s t : List Char) : Prop :=
  ∀ ch, s.getLast? = some ch → t.head? = some ch → ch ≠ '+' ∧ ch ≠ '-'

/-- A text without markers stands apart from any other. -/
theorem apart_of_all {p : Char → Bool} {s : List Char} (hs : ∀ ch ∈ s, p ch = true)
    (hp : p '+' = false ∧ p '-' = false) (t : List Char) : Apart s t := by
  intro ch hch _
  have hpc := hs ch (List.mem_of_getLast? hch)
  refine ⟨?_, ?_⟩
  · rintro rfl
    rw [hp.1] at hpc
    cases hpc
  · rintro rfl
    rw [hp.2] at hpc
    cases hpc

/-- Only the end of a text matters. -/
theorem apart_append {s t u : List Char} (h : t ≠ []) : Apart (s ++ t) u ↔ Apart t u := by
  have hlast : (s ++ t).getLast? = t.getLast? := by
    rw [List.getLast?_append, List.getLast?_eq_some_getLast h, Option.some_or]
  rw [Apart, Apart, hlast]

/-- Only the beginning of what follows matters. -/
theorem apart_cons {s : List Char} {c : Char} {t u : List Char} :
    Apart s (c :: t) ↔ Apart s (c :: u) := Iff.rfl

/-- Blanks keep texts apart. -/
theorem apart_append_blanks {s b t : List Char} (hb : Blanks b) (h : b = [] → Apart s t) :
    Apart (s ++ b) t := by
  cases b with
  | nil =>
    rw [List.append_nil]
    exact h rfl
  | cons c b =>
    rw [apart_append (List.cons_ne_nil c b)]
    exact apart_of_all hb (by decide) t

theorem Radix.Digits.apart {r : Radix} {ds : List Char} (h : r.Digits ds) (t : List Char) :
    Apart ds t :=
  apart_of_all h.2 (by cases r <;> decide) t

theorem apart_of_isIdentifier {cs : List Char} (h : isIdentifier cs = true) (t : List Char) :
    Apart cs t := by
  obtain ⟨c, rest, rfl, hc, hrest⟩ := isIdentifier_iff.1 h
  refine apart_of_all (p := fun ch => isIdentifierStart ch || isIdentifierPart ch) ?_ (by decide) t
  rintro ch (_ | ⟨_, hch⟩)
  · simp [hc]
  · simp [hrest ch hch]

end Text

open Text (Apart)

/-! ## The relation -/

/-- A place in the grammar of expressions, with the tree that stands there. -/
inductive Phrase where
  /-- An operand of any operator. -/
  | atom (e : Expr)
  /-- Operands joined by `*` and `/`. -/
  | term (e : Expr)
  /-- Terms joined by `+` and `-`: any expression. -/
  | sum (e : Expr)
  /-- The arguments of a call. -/
  | arguments (es : List Expr)

/-- The texts that spell a phrase with brackets nested at most so many levels deep. -/
inductive Layout : Nat → Phrase → List Char → Prop
  /-- Decimal digits give a number without width. -/
  | decimal {levels : Nat} {n : Number} {ds b : List Char} : Radix.decimal.Digits ds →
      n.value = Radix.decimal.value ds → n.width = .unsized → Blanks b →
      Layout levels (.atom (.number n)) (ds ++ b)
  /-- Hexadecimal digits after `$` give a number, and their count its width. -/
  | hexadecimal {levels : Nat} {n : Number} {b ds b' : List Char} : Blanks b →
      Radix.hexadecimal.Digits ds → n.value = Radix.hexadecimal.value ds →
      n.width = .ofDigitCount ds.length → Blanks b' →
      Layout levels (.atom (.number n)) ('$' :: b ++ ds ++ b')
  /-- A name is a label. -/
  | named {levels : Nat} {name : String} {b : List Char} : isIdentifier name.toList = true →
      Blanks b → Layout levels (.atom (.label (.named name))) (name.toList ++ b)
  /-- A run of markers is a relative label, its length the size of the offset. -/
  | relative {levels : Nat} {k : Int} {hk : k ≠ 0} {b : List Char} : Blanks b →
      Layout levels (.atom (.label (.relative k hk))) (Label.markers k ++ b)
  /-- Parentheses round an expression open a level and change nothing. -/
  | group {levels : Nat} {e : Expr} {b t b' : List Char} : Blanks b →
      Layout levels (.sum e) t → Blanks b' →
      Layout (levels + 1) (.atom e) ('(' :: b ++ t ++ ')' :: b')
  /-- The arguments of a call open a level, also when there are none. -/
  | call {levels : Nat} {name : String} {es : List Expr} {b b' t b'' : List Char} :
      isIdentifier name.toList = true → Blanks b → Blanks b' →
      Layout levels (.arguments es) t → Blanks b'' →
      Layout (levels + 1) (.atom (.call name es))
        (name.toList ++ b ++ '(' :: b' ++ t ++ ')' :: b'')
  | noArguments {levels : Nat} : Layout levels (.arguments []) []
  | oneArgument {levels : Nat} {e : Expr} {t : List Char} : Layout levels (.sum e) t →
      Layout levels (.arguments [e]) t
  | moreArguments {levels : Nat} {e f : Expr} {es : List Expr} {s b t : List Char} :
      Layout levels (.sum e) s → Blanks b → Layout levels (.arguments (f :: es)) t →
      Layout levels (.arguments (e :: f :: es)) (s ++ ',' :: b ++ t)
  | ofAtom {levels : Nat} {e : Expr} {t : List Char} : Layout levels (.atom e) t →
      Layout levels (.term e) t
  /-- `*` and `/` join a term and an operand, so they group to the left. -/
  | product {levels : Nat} {op : Operator} {l r : Expr} {s b t : List Char} :
      op ∈ [.mul, .div] → Layout levels (.term l) s → Apart s op.symbol → Blanks b →
      Layout levels (.atom r) t →
      Layout levels (.term (.binary op l r)) (s ++ op.symbol ++ b ++ t)
  | ofTerm {levels : Nat} {e : Expr} {t : List Char} : Layout levels (.term e) t →
      Layout levels (.sum e) t
  /-- `+` and `-` join an expression and a term, so they bind less and group to the left. -/
  | addition {levels : Nat} {op : Operator} {l r : Expr} {s b t : List Char} :
      op ∈ [.add, .sub] → Layout levels (.sum l) s → Apart s op.symbol → Blanks b →
      Layout levels (.term r) t →
      Layout levels (.sum (.binary op l r)) (s ++ op.symbol ++ b ++ t)

namespace Layout

variable {levels : Nat} {p : Phrase} {e : Expr} {es : List Expr} {t : List Char}

/-- A layout that fits some levels fits more. -/
theorem mono {m n : Nat} (h : Layout m p t) (hmn : m ≤ n) : Layout n p t := by
  induction h generalizing n with
  | decimal hds hv hw hb => exact .decimal hds hv hw hb
  | hexadecimal hb hds hv hw hb' => exact .hexadecimal hb hds hv hw hb'
  | named hn hb => exact .named hn hb
  | relative hb => exact .relative hb
  | group hb _ hb' ih =>
    obtain ⟨n, rfl⟩ := Nat.exists_eq_add_of_lt hmn
    exact .group hb (ih (by omega)) hb'
  | call hn hb hb' _ hb'' ih =>
    obtain ⟨n, rfl⟩ := Nat.exists_eq_add_of_lt hmn
    exact .call hn hb hb' (ih (by omega)) hb''
  | noArguments => exact .noArguments
  | oneArgument _ ih => exact .oneArgument (ih hmn)
  | moreArguments _ hb _ ihs iht => exact .moreArguments (ihs hmn) hb (iht hmn)
  | ofAtom _ ih => exact .ofAtom (ih hmn)
  | product hop _ ha hb _ ihs iht => exact .product hop (ihs hmn) ha hb (iht hmn)
  | ofTerm _ ih => exact .ofTerm (ih hmn)
  | addition hop _ ha hb _ ihs iht => exact .addition hop (ihs hmn) ha hb (iht hmn)

/-- Blanks at the end of an expression belong to it. -/
theorem append_blanks {b : List Char} (h : Layout levels p t) (hp : p ≠ .arguments [])
    (hb : Blanks b) : Layout levels p (t ++ b) := by
  induction h with
  | decimal hds hv hw hb' =>
    rw [List.append_assoc]
    exact .decimal hds hv hw (hb'.append hb)
  | hexadecimal hb₁ hds hv hw hb' =>
    rw [List.append_assoc]
    exact .hexadecimal hb₁ hds hv hw (hb'.append hb)
  | named hn hb' =>
    rw [List.append_assoc]
    exact .named hn (hb'.append hb)
  | relative hb' =>
    rw [List.append_assoc]
    exact .relative (hb'.append hb)
  | group hb₁ h hb' _ =>
    rw [List.append_assoc, List.cons_append]
    exact .group hb₁ h (hb'.append hb)
  | call hn hb₁ hb₂ h hb' _ =>
    rw [List.append_assoc, List.cons_append]
    exact .call hn hb₁ hb₂ h (hb'.append hb)
  | noArguments => exact absurd rfl hp
  | oneArgument _ ih => exact .oneArgument (ih nofun)
  | moreArguments hs hb₁ _ _ iht =>
    rw [List.append_assoc]
    exact .moreArguments hs hb₁ (iht (by simp))
  | ofAtom _ ih => exact .ofAtom (ih nofun)
  | product hop hs ha hb₁ _ _ iht =>
    rw [List.append_assoc]
    exact .product hop hs ha hb₁ (iht nofun)
  | ofTerm _ ih => exact .ofTerm (ih nofun)
  | addition hop hs ha hb₁ _ _ iht =>
    rw [List.append_assoc]
    exact .addition hop hs ha hb₁ (iht nofun)

/-! ## The first character -/

/-- A phrase that is not an empty list of arguments begins with an opening character. -/
theorem opens_or (h : Layout levels p t) :
    p = .arguments [] ∨ ∃ ch rest, t = ch :: rest ∧ Grammar.opensExpression ch = true := by
  induction h with
  | @decimal _ _ ds b hds _ _ _ =>
    obtain ⟨ch, rest, rfl⟩ := List.exists_cons_of_ne_nil hds.1
    refine .inr ⟨ch, rest ++ b, rfl, ?_⟩
    simp [Grammar.opensExpression, hds.2 ch List.mem_cons_self]
  | hexadecimal => exact .inr ⟨'$', _, rfl, by decide⟩
  | @named _ name b hn _ =>
    obtain ⟨ch, rest, hname, hs, -⟩ := Text.isIdentifier_iff.1 hn
    refine .inr ⟨ch, rest ++ b, by rw [hname]; rfl, ?_⟩
    simp [Grammar.opensExpression, hs]
  | @relative _ k hk b _ =>
    obtain ⟨rest, hcons⟩ := Label.markers_eq_cons hk
    refine .inr ⟨Label.marker k, rest ++ b, by rw [hcons]; rfl, ?_⟩
    rcases Label.marker_eq k with h | h <;> rw [h] <;> decide
  | group => exact .inr ⟨'(', _, rfl, by decide⟩
  | @call _ name _ b b' t b'' hn _ _ _ _ _ =>
    obtain ⟨ch, rest, hname, hs, -⟩ := Text.isIdentifier_iff.1 hn
    refine .inr ⟨ch, rest ++ b ++ '(' :: b' ++ t ++ ')' :: b'', by rw [hname]; rfl, ?_⟩
    simp [Grammar.opensExpression, hs]
  | noArguments => exact .inl rfl
  | oneArgument _ ih | ofAtom _ ih | ofTerm _ ih => exact .inr (ih.resolve_left (by simp))
  | moreArguments _ _ _ ih _ | product _ _ _ _ _ ih _ | addition _ _ _ _ _ ih _ =>
    obtain ⟨ch, rest, rfl, hch⟩ := ih.resolve_left (by simp)
    exact .inr ⟨ch, _, rfl, hch⟩

/-- An expression begins with an opening character. -/
theorem opens (h : Layout levels p t) (hp : p ≠ .arguments []) :
    ∃ ch rest, t = ch :: rest ∧ Grammar.opensExpression ch = true :=
  h.opens_or.resolve_left hp

theorem ne_nil (h : Layout levels p t) (hp : p ≠ .arguments []) : t ≠ [] := by
  obtain ⟨ch, rest, rfl, -⟩ := h.opens hp
  exact List.cons_ne_nil _ _

/-- Where an expression is laid out its first character stands. -/
theorem peek? {c d : Cursor} (h : Layout levels p t) (hp : p ≠ .arguments []) (hr : c.Reads t d) :
    ∃ ch, c.peek? = some ch ∧ Grammar.opensExpression ch = true := by
  obtain ⟨ch, rest, rfl, hch⟩ := h.opens hp
  exact ⟨ch, (Cursor.reads_cons.1 hr).1, hch⟩

/-- An expression does not begin with a blank. -/
theorem settled {c d : Cursor} (h : Layout levels p t) (hp : p ≠ .arguments [])
    (hr : c.Reads t d) : c.Settled := by
  obtain ⟨ch, hpk, hch⟩ := h.peek? hp hr
  exact Grammar.avoids_of_peek? hpk (Grammar.isBlank_of_opensExpression hch)

end Layout

/-! ## Operands and statements -/

/-- An expression between brackets, which open a level. -/
inductive Enclosed (opening closing : Char) : Nat → Expr → List Char → Prop
  | mk {levels : Nat} {e : Expr} {b t b' : List Char} : Blanks b → Layout levels (.sum e) t →
      Blanks b' → Enclosed opening closing (levels + 1) e (opening :: b ++ t ++ closing :: b')

/-- A comma and a register, its letter in either case. -/
inductive Indexed (letter : Char) : List Char → Prop
  | mk {ch : Char} {b b' : List Char} : Blanks b → ch.toLower = letter → Blanks b' →
      Indexed letter (',' :: b ++ ch :: b')

/-- An expression and a register in parentheses, which open a level. -/
inductive EnclosedIndexed (letter : Char) : Nat → Expr → List Char → Prop
  | mk {levels : Nat} {e : Expr} {b t u b' : List Char} : Blanks b → Layout levels (.sum e) t →
      Indexed letter u → Blanks b' →
      EnclosedIndexed letter (levels + 1) e ('(' :: b ++ t ++ u ++ ')' :: b')

/-- The texts that spell an operand, from its first character on. -/
inductive OperandLayout (levels : Nat) : Operand → List Char → Prop
  | implied : OperandLayout levels .implied []
  | immediate {e : Expr} {b t : List Char} : Blanks b → Layout levels (.sum e) t →
      OperandLayout levels (.valued .immediate e) ('#' :: b ++ t)
  | address {e : Expr} {t : List Char} : Layout levels (.sum e) t →
      OperandLayout levels (.valued .address e) t
  | indirect {e : Expr} {t : List Char} : Enclosed '(' ')' levels e t →
      OperandLayout levels (.valued .indirect e) t
  | xIndirect {e : Expr} {t : List Char} : EnclosedIndexed 'x' levels e t →
      OperandLayout levels (.valued .xIndirect e) t
  | indirectY {e : Expr} {t u : List Char} : Enclosed '(' ')' levels e t → Indexed 'y' u →
      OperandLayout levels (.valued .indirectY e) (t ++ u)
  | stackIndirectY {e : Expr} {t u : List Char} : EnclosedIndexed 's' levels e t →
      Indexed 'y' u → OperandLayout levels (.valued .stackIndirectY e) (t ++ u)
  | longIndirect {e : Expr} {t : List Char} : Enclosed '[' ']' levels e t →
      OperandLayout levels (.valued .longIndirect e) t
  | longIndirectY {e : Expr} {t u : List Char} : Enclosed '[' ']' levels e t → Indexed 'y' u →
      OperandLayout levels (.valued .longIndirectY e) (t ++ u)
  | move {e f : Expr} {t b u : List Char} : Layout levels (.sum e) t → Blanks b →
      Layout levels (.sum f) u → OperandLayout levels (.valued (.move f) e) (t ++ ',' :: b ++ u)

/-- The texts of a size suffix: none, or a dot and a letter in either case. -/
inductive SuffixLayout : Option Size → List Char → Prop
  | none : SuffixLayout none []
  | some {size : Size} {ch : Char} {b b' : List Char} : Blanks b → Blanks b' →
      ch.toLower = size.letter → SuffixLayout (some size) (b ++ '.' :: b' ++ [ch])

/-- The texts that spell a statement. -/
inductive StatementLayout (levels : Nat) : Statement → List Char → Prop
  | org {e : Expr} {word b t : List Char} : Grammar.IsOrg word → Blanks b →
      Layout levels (.sum e) t → Avoids isIdentifierPart (b ++ t) →
      StatementLayout levels (.org e) (word ++ b ++ t)
  /-- The colon of a declaration touches the name. -/
  | named {name : String} {b : List Char} : isIdentifier name.toList = true → Blanks b →
      StatementLayout levels (.label (.named name)) (name.toList ++ ':' :: b)
  | relative {k : Int} {hk : k ≠ 0} {b : List Char} : Blanks b →
      StatementLayout levels (.label (.relative k hk)) (Label.markers k ++ b)
  | assignment {name : String} {e : Expr} {b b' t : List Char} :
      isIdentifier name.toList = true → Blanks b → Blanks b' → Layout levels (.sum e) t →
      StatementLayout levels (.assignment name e) (name.toList ++ b ++ '=' :: b' ++ t)
  | instruction {mnemonic : String} {size : Option Size} {o : Operand} {u b t : List Char} :
      isIdentifier mnemonic.toList = true → SuffixLayout size u → Blanks b →
      OperandLayout levels o t → Avoids isIdentifierPart (b ++ t) →
      StatementLayout levels (.instruction ⟨mnemonic, size, o⟩) (mnemonic.toList ++ u ++ b ++ t)

end Asm65816
