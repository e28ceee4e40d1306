import Asm65816.Proofs.UnambiguousExpressions

/-!
# Normal forms of statements are unambiguous

No two statements that are read are written alike. A comma stands between arguments and before a
second operand, parentheses are put round a binary node as well as round an indirect value, and
`org` is a keyword and may be a mnemonic. It does not follow from reading a normal form again, since
an address that is a binary node comes back as an indirect one.

Expressions end in one way (`Expr.append_unique`), so the marks around an operand tell its shape.
The keyword is written as an instruction with an address is (`Statement.orgInstruction`), and that
is an instruction which is never read.
-/

namespace Asm65816

open Text (Avoids BeginsIn isIdentifier isIdentifierPart isIdentifierStart)

/-! ## Operands -/

namespace Shape

/-- What stands before the value. -/
def opening? : Shape → Option Char
  | immediate => some '#'
  | indirect | xIndirect | indirectY | stackIndirectY => some '('
  | longIndirect | longIndirectY => some '['
  | address | move _ | accumulator => none

/-- What stands behind the value. -/
def closing : Shape → List Char
  | immediate | address | accumulator => []
  | indirect => [')']
  | xIndirect => [',', 'x', ')']
  | indirectY => [')', ',', 'y']
  | stackIndirectY => [',', 's', ')', ',', 'y']
  | longIndirect => [']']
  | longIndirectY => [']', ',', 'y']
  | move second => ',' :: second.chars

variable {a b : Shape} {e f : Expr}

/-- But for the accumulator a shape is what stands before the value and behind it. -/
theorem around_eq (ha : a ≠ accumulator) (value : List Char) :
    a.around value = a.opening?.toList ++ (value ++ a.closing) := by
  cases a with
  | accumulator => exact absurd rfl ha
  | immediate | address => simp [around, opening?, closing]
  | indirect | xIndirect | indirectY | stackIndirectY | longIndirect | longIndirectY => rfl
  | move second => rfl

theorem beginsIn_closing (a : Shape) : BeginsIn Text.enders a.closing := by
  cases a with
  | immediate | address | accumulator => exact Text.beginsIn_nil _
  | indirect | xIndirect | indirectY | stackIndirectY | longIndirect | longIndirectY | move =>
    exact Text.beginsIn_cons (by decide)

/-- A parenthesis round a value is closed, or a comma stands before the register. -/
theorem beginsIn_closing_of_paren (h : a.opening? = some '(') : BeginsIn [')', ','] a.closing := by
  cases a with
  | indirect | xIndirect | indirectY | stackIndirectY => exact Text.beginsIn_cons (by decide)
  | immediate | longIndirect | longIndirectY => exact absurd h (by decide)
  | address | move | accumulator => cases h

/-- A mark or bracket before the value does not begin an expression; a parenthesis does, but an
expression that begins with it is not written as an indirect value. -/
theorem ne_of_opening {c : Char} {s : List Char} (he : e.Legible) (hf : f.Legible)
    (hs : BeginsIn Text.enders s) (hb : b.opening? = some c) :
    e.chars ++ s ≠ c :: (f.chars ++ b.closing) := by
  by_cases hc : c = '('
  · subst hc
    exact he.ne_group hf hs (beginsIn_closing_of_paren hb)
  · refine he.ne_cons ?_ s _
    cases b with
    | immediate | longIndirect | longIndirectY =>
      cases hb
      decide
    | indirect | xIndirect | indirectY | stackIndirectY =>
      cases hb
      exact absurd rfl hc
    | address | move | accumulator => cases hb

/-- What stands around the value tells the shape. -/
theorem eq_of_closing (ha : a ≠ accumulator) (hb : b ≠ accumulator)
    (hsa : ∀ x ∈ a.second?, x.Legible) (hsb : ∀ x ∈ b.second?, x.Legible)
    (hopening : a.opening? = b.opening?) (hclosing : a.closing = b.closing) : a = b := by
  cases a <;> cases b <;> simp_all [opening?, closing, second?]
  exact hsa.chars_inj hsb hclosing

/-- Operands that are written alike have the same shape and value. -/
theorem around_inj (ha : a ≠ accumulator) (hb : b ≠ accumulator)
    (hsa : ∀ x ∈ a.second?, x.Legible) (hsb : ∀ x ∈ b.second?, x.Legible)
    (he : e.Legible) (hf : f.Legible) (h : a.around e.chars = b.around f.chars) :
    a = b ∧ e = f := by
  rw [around_eq ha, around_eq hb] at h
  have same : a.opening? = b.opening? → a = b ∧ e = f := by
    intro hopening
    rw [hopening] at h
    obtain ⟨hvalue, hclosing⟩ := Expr.append_unique he hf a.beginsIn_closing b.beginsIn_closing
      (List.append_cancel_left h)
    exact ⟨eq_of_closing ha hb hsa hsb hopening hclosing, hvalue⟩
  cases hoa : a.opening? with
  | none =>
    cases hob : b.opening? with
    | none => exact same (hoa.trans hob.symm)
    | some c =>
      rw [hoa, hob] at h
      exact absurd h (ne_of_opening he hf a.beginsIn_closing hob)
  | some c =>
    cases hob : b.opening? with
    | none =>
      rw [hoa, hob] at h
      exact absurd h.symm (ne_of_opening hf he b.beginsIn_closing hoa)
    | some d =>
      have hcd : c = d := by
        rw [hoa, hob] at h
        exact List.head_eq_of_cons_eq h
      exact same (by rw [hoa, hob, hcd])

end Shape

namespace Operand

variable {o p : Operand}

/-- An operand other than the accumulator whose expressions are legible. -/
structure Legible (o : Operand) : Prop where
  mode : o.mode ≠ .accumulator
  exprs : ∀ e ∈ o.exprs, e.Legible

theorem Legible.value {shape : Shape} {e : Expr} (h : (valued shape e).Legible) : e.Legible :=
  h.exprs e (by simp [Operand.exprs, value?])

theorem Legible.second {shape : Shape} {e : Expr} (h : (valued shape e).Legible) :
    ∀ x ∈ shape.second?, x.Legible := by
  intro x hx
  exact h.exprs x (by simp_all [Operand.exprs, second?, shape?])

theorem Legible.shape {shape : Shape} {e : Expr} (h : (valued shape e).Legible) :
    shape ≠ .accumulator := by
  rintro rfl
  exact h.mode rfl

/-- An operand with a value begins with a mark, a bracket or an expression. -/
theorem Legible.opens {shape : Shape} {e : Expr} (h : (valued shape e).Legible) :
    ∃ c rest, (valued shape e).chars = c :: rest ∧
      (Grammar.opensExpression c = true ∨ c = '#' ∨ c = '[') := by
  have hchars : (valued shape e).chars = shape.opening?.toList ++ (e.chars ++ shape.closing) :=
    Shape.around_eq h.shape _
  rw [hchars]
  cases ho : shape.opening? with
  | none =>
    obtain ⟨c, rest, hcons, hc⟩ := h.value.opens
    exact ⟨c, rest ++ shape.closing, by rw [hcons]; rfl, .inl hc⟩
  | some c =>
    refine ⟨c, _, rfl, ?_⟩
    cases shape <;> cases ho <;> decide

/-- Operands that are written alike are the same. -/
theorem Legible.chars_inj (ho : o.Legible) (hp : p.Legible) (h : o.chars = p.chars) : o = p := by
  cases o with
  | implied =>
    cases p with
    | implied => rfl
    | valued shape e =>
      obtain ⟨c, rest, hcons, -⟩ := hp.opens
      rw [hcons] at h
      cases h
  | valued shape e =>
    cases p with
    | implied =>
      obtain ⟨c, rest, hcons, -⟩ := ho.opens
      rw [hcons] at h
      cases h
    | valued shape' f =>
      obtain ⟨rfl, rfl⟩ :=
        Shape.around_inj ho.shape hp.shape ho.second hp.second ho.value hp.value h
      rfl

end Operand

/-! ## Instructions -/

/-- Whether a character stands in an identifier. -/
def Text.isIdentifierChar (c : Char) : Bool := isIdentifierStart c || isIdentifierPart c

theorem Text.isIdentifierChar_of_isIdentifier {cs : List Char} (h : isIdentifier cs = true) :
    ∀ c ∈ cs, isIdentifierChar c = true := by
  obtain ⟨c, rest, rfl, hs, hp⟩ := isIdentifier_iff.1 h
  intro d hd
  rcases List.mem_cons.1 hd with rfl | hd
  · simp [isIdentifierChar, hs]
  · simp [isIdentifierChar, hp d hd]

/-- Where a name ends a statement goes on in one way. -/
theorem Text.name_unique {name name' : String} {s t : List Char}
    (hn : isIdentifier name.toList = true) (hn' : isIdentifier name'.toList = true)
    (hs : Avoids isIdentifierChar s) (ht : Avoids isIdentifierChar t)
    (h : name.toList ++ s = name'.toList ++ t) : name = name' ∧ s = t := by
  obtain ⟨hname, hst⟩ := run_unique (isIdentifierChar_of_isIdentifier hn)
    (isIdentifierChar_of_isIdentifier hn') hs ht h
  exact ⟨String.toList_inj.1 hname, hst⟩

/-- Operands that are written alike after a mnemonic are the same. -/
theorem Operand.Legible.operandChars_inj {o p : Operand} (ho : o.Legible) (hp : p.Legible)
    (h : Grammar.operandChars o = Grammar.operandChars p) : o = p := by
  refine ho.chars_inj hp ?_
  unfold Grammar.operandChars at h
  split at h
  · next hnil =>
    split at h
    · next hnil' => rw [hnil, hnil']
    · cases h
  · split at h
    · cases h
    · exact List.tail_eq_of_cons_eq h

namespace Instruction

variable {i j : Instruction}

/-- The suffix of a size. -/
def suffix (size : Option Size) : List Char :=
  match size with
  | none => []
  | some size => ['.', size.letter]

/-- What stands after the mnemonic. -/
def tail (i : Instruction) : List Char := suffix i.size ++ Grammar.operandChars i.operand

theorem chars_eq (i : Instruction) : i.chars = i.mnemonic.toList ++ i.tail := by
  rw [chars, List.append_assoc]
  rfl

/-- After the mnemonic stands a dot or a space, or the text ends. -/
theorem beginsIn_tail (i : Instruction) : BeginsIn ['.', ' '] i.tail := by
  unfold tail suffix
  split
  · unfold Grammar.operandChars
    split
    · exact Text.beginsIn_nil _
    · exact Text.beginsIn_cons (by decide)
  · exact Text.beginsIn_cons (by decide)

/-- An instruction named by an identifier, with a legible operand. -/
structure Legible (i : Instruction) : Prop where
  mnemonic : isIdentifier i.mnemonic.toList = true
  operand : i.operand.Legible

theorem WellFormed.legible {levels : Nat} (h : i.WellFormed levels) : i.Legible where
  mnemonic := h.mnemonic
  operand := ⟨h.mode, fun e he => (h.exprs e he).1.legible⟩

/-- The size is told by the suffix, and it keeps the operand away from the mnemonic. -/
theorem tail_inj (hi : i.operand.Legible) (hj : j.operand.Legible) (h : i.tail = j.tail) :
    i.size = j.size ∧ i.operand = j.operand := by
  have dotted : ∀ {o : Operand} {s : List Char}, Grammar.operandChars o ≠ '.' :: s := by
    intro o s hdot
    have hspace : Avoids (['.'].contains) (Grammar.operandChars o) :=
      Grammar.avoids_operandChars (by decide)
    rw [hdot] at hspace
    exact absurd (Text.avoids_cons.1 hspace) (by simp)
  unfold tail at h
  cases hsi : i.size with
  | none =>
    cases hsj : j.size with
    | none =>
      rw [hsi, hsj] at h
      exact ⟨rfl, hi.operandChars_inj hj h⟩
    | some size =>
      rw [hsi, hsj] at h
      exact absurd h dotted
  | some size =>
    cases hsj : j.size with
    | none =>
      rw [hsi, hsj] at h
      exact absurd h.symm dotted
    | some size' =>
      rw [hsi, hsj] at h
      simp only [suffix, List.cons_append, List.nil_append, List.cons.injEq, true_and] at h
      obtain ⟨hletter, hoperand⟩ := h
      refine ⟨?_, hi.operandChars_inj hj hoperand⟩
      cases size <;> cases size' <;> first | rfl | exact absurd hletter (by decide)

/-- Instructions that are written alike are the same. -/
theorem Legible.chars_inj (hi : i.Legible) (hj : j.Legible) (h : i.chars = j.chars) : i = j := by
  rw [chars_eq, chars_eq] at h
  obtain ⟨hname, htail⟩ := Text.name_unique hi.mnemonic hj.mnemonic
    (i.beginsIn_tail.avoids (by decide)) (j.beginsIn_tail.avoids (by decide)) h
  obtain ⟨hsize, hoperand⟩ := tail_inj hi.operand hj.operand htail
  cases i
  cases j
  cases hname
  cases hsize
  cases hoperand
  rfl

/-- A label is declared with a colon, which is not how an instruction goes on. -/
theorem Legible.ne_label (hi : i.Legible) {name : String}
    (hn : isIdentifier name.toList = true) : i.chars ≠ name.toList ++ [':'] := by
  rw [chars_eq]
  intro h
  obtain ⟨-, htail⟩ := Text.name_unique hi.mnemonic hn (i.beginsIn_tail.avoids (by decide))
    (Text.avoids_cons.2 (by decide)) h
  have hcolon := i.beginsIn_tail ':' (by rw [htail]; rfl)
  exact absurd hcolon (by decide)

/-- No operand begins with the sign of an assignment. -/
theorem Legible.ne_assignment (hi : i.Legible) {name : String}
    (hn : isIdentifier name.toList = true) (s : List Char) :
    i.chars ≠ name.toList ++ ' ' :: '=' :: s := by
  rw [chars_eq]
  intro h
  obtain ⟨-, htail⟩ := Text.name_unique hi.mnemonic hn (i.beginsIn_tail.avoids (by decide))
    (Text.avoids_cons.2 (by decide)) h
  unfold tail at htail
  cases hsize : i.size with
  | some size =>
    rw [hsize] at htail
    exact absurd (List.head_eq_of_cons_eq htail) (by decide)
  | none =>
    rw [hsize] at htail
    cases ho : i.operand with
    | implied =>
      rw [ho] at htail
      cases htail
    | valued shape e =>
      obtain ⟨c, rest, hcons, hc⟩ := Operand.Legible.opens (ho ▸ hi.operand)
      rw [ho, Grammar.operandChars, hcons] at htail
      obtain ⟨rfl, -⟩ := List.cons.inj (List.tail_eq_of_cons_eq htail)
      exact absurd hc (by decide)

/-- An instruction does not begin with a marker. -/
theorem Legible.ne_relative (hi : i.Legible) {k : Int} (hk : k ≠ 0) :
    i.chars ≠ Label.markers k := by
  rw [chars_eq]
  exact Label.name_ne_markers hi.mnemonic hk _

end Instruction

/-! ## Statements -/

namespace Statement

/-- The instruction that is written as the keyword with an address is. -/
def orgInstruction (address : Expr) : Instruction := ⟨"org", none, .valued .address address⟩

/-- The instruction that is written as the statement is. -/
def instruction? : Statement → Option Instruction
  | instruction i => some i
  | org address => some (orgInstruction address)
  | label _ | assignment .. | conditional _ => none

theorem legible_orgInstruction {e : Expr} (h : e.Legible) : (orgInstruction e).Legible where
  mnemonic := by
    show isIdentifier "org".toList = true
    decide
  operand := by
    refine ⟨nofun, fun x hx => ?_⟩
    obtain rfl : x = e := by
      simpa [orgInstruction, Operand.exprs, Operand.value?, Operand.second?, Operand.shape?,
        Shape.second?] using hx
    exact h

theorem chars_orgInstruction {e : Expr} (h : e.Legible) :
    (orgInstruction e).chars = (org e).chars := by
  obtain ⟨c, rest, hcons, -⟩ := h.opens
  have hname : (orgInstruction e).mnemonic.toList = ['o', 'r', 'g'] := by
    show "org".toList = _
    decide
  rw [chars, Instruction.chars_eq, hname, orgInstruction, Instruction.tail, Instruction.suffix,
    Grammar.operandChars, Operand.chars, Shape.around, hcons]
  rfl

variable {m n : Nat} {s t : Statement} {i : Instruction}

theorem WellFormed.legible_instruction (hs : s.WellFormed m) (h : s.instruction? = some i) :
    i.Legible ∧ i.chars = s.chars := by
  cases s with
  | instruction j =>
    cases h
    exact ⟨hs.legible, by rw [chars]⟩
  | org e =>
    cases h
    exact ⟨legible_orgInstruction hs.1.legible, chars_orgInstruction hs.1.legible⟩
  | label | assignment | conditional => cases h

/-- What is not written as an instruction is a label or an assignment. -/
theorem WellFormed.label_or_assignment (hs : s.WellFormed m) (h : s.instruction? = none) :
    (∃ name, s = label (.named name) ∧ isIdentifier name.toList = true) ∨
    (∃ k hk, s = label (.relative k hk)) ∨
    ∃ name e, s = assignment name e ∧ isIdentifier name.toList = true ∧ e.Legible := by
  cases s with
  | instruction | org => cases h
  | conditional branches => exact hs.elim
  | assignment name e => exact .inr (.inr ⟨name, e, rfl, hs.1, hs.2.1.legible⟩)
  | label l =>
    cases l with
    | named name => exact .inl ⟨name, rfl, hs⟩
    | relative k hk => exact .inr (.inl ⟨k, hk, rfl⟩)

/-- What is written as an instruction is that instruction, or the keyword with an address that looks
like it. -/
theorem WellFormed.instruction?_of_chars (ht : t.WellFormed n) (hi : i.Legible)
    (h : i.chars = t.chars) : t.instruction? = some i := by
  cases hj : t.instruction? with
  | some j =>
    obtain ⟨hlegible, hchars⟩ := ht.legible_instruction hj
    rw [hi.chars_inj hlegible (h.trans hchars.symm)]
  | none =>
    obtain ⟨name, rfl, hn⟩ | ⟨k, hk, rfl⟩ | ⟨name, e, rfl, hn, -⟩ := ht.label_or_assignment hj
    · exact absurd h (hi.ne_label hn)
    · exact absurd h (hi.ne_relative hk)
    · exact absurd h (hi.ne_assignment hn _)

/-- An instruction that looks like the keyword with an address would have been read as that. -/
theorem WellFormed.eq_of_instruction? (hs : s.WellFormed m) (ht : t.WellFormed n)
    (hsi : s.instruction? = some i) (hti : t.instruction? = some i) : s = t := by
  have horg : ∀ {e : Expr} {k : Nat}, ¬ (orgInstruction e).WellFormed k := by
    intro e k h
    have hname : Grammar.IsOrg "org".toList := by decide
    exact h.org rfl hname List.mem_cons_self
  cases s with
  | instruction j =>
    cases hsi
    cases t with
    | instruction j' =>
      cases hti
      rfl
    | org e =>
      cases hti
      exact absurd hs horg
    | label | assignment | conditional => cases hti
  | org e =>
    cases hsi
    cases t with
    | instruction j' =>
      cases hti
      exact absurd ht horg
    | org e' =>
      cases hti
      rfl
    | label | assignment | conditional => cases hti
  | label | assignment | conditional => cases hsi

/-- Labels and assignments are told apart by what follows the name. -/
theorem WellFormed.eq_of_label (hs : s.WellFormed m) (ht : t.WellFormed n)
    (hsi : s.instruction? = none) (hti : t.instruction? = none) (h : s.chars = t.chars) :
    s = t := by
  have colon : Avoids Text.isIdentifierChar [':'] := Text.avoids_cons.2 (by decide)
  have space : ∀ u, Avoids Text.isIdentifierChar (' ' :: u) := fun u =>
    Text.avoids_cons.2 (by decide)
  obtain ⟨name, rfl, hn⟩ | ⟨j, hj, rfl⟩ | ⟨name, e, rfl, hn, he⟩ := hs.label_or_assignment hsi
  · obtain ⟨name', rfl, hn'⟩ | ⟨k, hk, rfl⟩ | ⟨name', f, rfl, hn', -⟩ := ht.label_or_assignment hti
    · obtain ⟨rfl, -⟩ := Text.name_unique hn hn' colon colon h
      rfl
    · exact absurd h (Label.name_ne_markers hn hk _)
    · obtain ⟨-, htail⟩ := Text.name_unique hn hn' colon (space _) h
      cases htail
  · obtain ⟨name', rfl, hn'⟩ | ⟨k, hk, rfl⟩ | ⟨name', f, rfl, hn', -⟩ := ht.label_or_assignment hti
    · exact absurd h.symm (Label.name_ne_markers hn' hj _)
    · obtain rfl := Label.markers_inj hj hk h
      rfl
    · exact absurd h.symm (Label.name_ne_markers hn' hj _)
  · obtain ⟨name', rfl, hn'⟩ | ⟨k, hk, rfl⟩ | ⟨name', f, rfl, hn', hf⟩ := ht.label_or_assignment hti
    · obtain ⟨-, htail⟩ := Text.name_unique hn hn' (space _) colon h
      cases htail
    · exact absurd h (Label.name_ne_markers hn hk _)
    · obtain ⟨rfl, htail⟩ := Text.name_unique hn hn' (space _) (space _) h
      have hvalue : e.chars = f.chars := by simpa using htail
      rw [he.chars_inj hf hvalue]

/-- Well-formed statements that are written alike are the same. -/
theorem WellFormed.chars_inj (hs : s.WellFormed m) (ht : t.WellFormed n)
    (h : s.chars = t.chars) : s = t := by
  cases hsi : s.instruction? with
  | some i =>
    obtain ⟨hi, hchars⟩ := hs.legible_instruction hsi
    exact hs.eq_of_instruction? ht hsi (ht.instruction?_of_chars hi (hchars.trans h))
  | none =>
    cases hti : t.instruction? with
    | some j =>
      obtain ⟨hj, hchars⟩ := ht.legible_instruction hti
      rw [hs.instruction?_of_chars hj (hchars.trans h.symm)] at hsi
      cases hsi
    | none => exact hs.eq_of_label ht hsi hti h

end Statement

/-- Rendering tells trees apart: legible expressions, whatever their operators, and statements that
were read, from whatever texts and within whatever limits. -/
theorem render_injective :
    (∀ e f : Expr, e.Legible → f.Legible → e.render = f.render → e = f) ∧
    ∀ (depth depth' : Depth) (text text' rest rest' : String) (s t : Statement),
      Statement.parse depth text = .ok (s, rest) → Statement.parse depth' text' = .ok (t, rest') →
      s.render = t.render → s = t := by
  refine ⟨fun e f he hf h => ?_, fun depth depth' text text' rest rest' s t hs ht h => ?_⟩
  · exact he.chars_inj hf (String.ofList_injective h)
  · have hs := Statement.wellFormed_of_parsed (.inl hs)
    have ht := Statement.wellFormed_of_parsed (.inl ht)
    exact hs.chars_inj ht (String.ofList_injective h)

/-- Subtractions grouped in two ways are written in two ways, and two texts whose statements are
written alike hold the same one. -/
theorem render_injective_grouping :
    let one : Expr := .number ⟨1, .oneByte, by decide⟩
    let back : Expr := .label (.relative (-1) (by decide))
    let call : Expr := .call "f" [one, back]
    (Expr.binary .sub (.binary .sub one back) call).render ≠
      (Expr.binary .sub one (.binary .sub back call)).render ∧
    ∃ s t : Statement,
      Statement.parse ⟨2, by decide, by decide⟩ "org.w a+b,y" = .ok (s, "") ∧
      Statement.parse ⟨3, by decide, by decide⟩ "org.W (a)+(b) , y ;" = .ok (t, ";") ∧
      s.render = "org.w (a + b),y" ∧ s = t := by
  intro one back call
  refine ⟨fun h => ?_, ?_⟩
  · have hone : one.Legible := (by decide : 1 ≤ 0xFF)
    have hback : back.Legible := (by decide : (-1 : Int) ≠ 0)
    have hcall : call.Legible := ⟨by decide, hone, hback, trivial⟩
    have hleft : (Expr.binary .sub (.binary .sub one back) call).Legible := ⟨⟨hone, hback⟩, hcall⟩
    have hright : (Expr.binary .sub one (.binary .sub back call)).Legible := ⟨hone, hback, hcall⟩
    exact absurd (render_injective.1 _ _ hleft hright h) (by decide)
  · have hs : ((Statement.parse ⟨2, by decide, by decide⟩ "org.w a+b,y").toOption.map
        fun x => (x.1.render, x.2)) = some ("org.w (a + b),y", "") := by decide +kernel
    have ht : ((Statement.parse ⟨3, by decide, by decide⟩ "org.W (a)+(b) , y ;").toOption.map
        fun x => (x.1.render, x.2)) = some ("org.w (a + b),y", ";") := by decide +kernel
    obtain ⟨⟨s, rest⟩, hparse, hrender⟩ := Option.map_eq_some_iff.1 hs
    obtain ⟨⟨t, rest'⟩, hparse', hrender'⟩ := Option.map_eq_some_iff.1 ht
    obtain ⟨hsr, rfl⟩ := Prod.mk.inj hrender
    obtain ⟨htr, rfl⟩ := Prod.mk.inj hrender'
    have hparse := eq_ok_of_toOption hparse
    have hparse' := eq_ok_of_toOption hparse'
    exact ⟨s, t, hparse, hparse', hsr,
      render_injective.2 _ _ _ _ _ _ s t hparse hparse' (hsr.trans htr.symm)⟩

end Asm65816
