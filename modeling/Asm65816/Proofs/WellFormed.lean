import Asm65816.Line
import Asm65816.Proofs.FailureTree
import Asm65816.Proofs.RoundTrip

/-!
# Trees that are read are well formed

A tree put together by hand can hold a number that does not fit its width, a name that is no
identifier or an operator that has no place in the grammar. Nothing that is read does: what later
stages rely on without looking again is collected in `Expr.WellFormed` and
`Statement.WellFormed`, and every tree that comes out of a text has it.

For expressions it follows from their layouts (`Layout.fits`), since a layout says how each node was
spelled. An instruction called `org` needs the order of the statement's kinds in addition. The
functions that build parts of a tree from loose fields refuse some of them (`Invalid`); none of them
would refuse what the grammar has in hand when it builds a part (`Token.make_of_number`,
`Token.makeRelative_of_run`, `Operand.make_eq_ok`).
-/

namespace Asm65816

open Text (Radix isIdentifier)

/-! ## Expressions -/

/-- The largest value of a number with this width. -/
def Width.largest : Width → Nat
  | unsized => Number.largest
  | oneByte => 0xFF
  | twoBytes => 0xFFFF

/-- A label's name is an identifier, and a relative label points somewhere. -/
def Label.WellFormed : Label → Prop
  | named name => isIdentifier name.toList = true
  | relative offset _ => offset ≠ 0

namespace Expr

mutual
/-- Numbers fit their widths, names are identifiers, and operators are those that the grammar
reads. -/
def WellFormed : Expr → Prop
  | .number n => n.value ≤ n.width.largest
  | .label l => l.WellFormed
  | .binary op left right => op ∈ [.add, .sub, .mul, .div] ∧ left.WellFormed ∧ right.WellFormed
  | .call name args => isIdentifier name.toList = true ∧ WellFormedArgs args

/-- Every argument is well formed. -/
def WellFormedArgs : List Expr → Prop
  | [] => True
  | e :: rest => e.WellFormed ∧ WellFormedArgs rest
end

mutual
/-- How deep calls stand in one another. -/
def callNesting : Expr → Nat
  | .number _ | .label _ => 0
  | .binary _ left right => max left.callNesting right.callNesting
  | .call _ args => 1 + callNestingOfArgs args

/-- How deep calls stand in one another in any of the arguments. -/
def callNestingOfArgs : List Expr → Nat
  | [] => 0
  | e :: rest => max e.callNesting (callNestingOfArgs rest)
end

/-- A well-formed expression whose calls need no more levels than there are. -/
def Fits (levels : Nat) (e : Expr) : Prop := e.WellFormed ∧ e.callNesting ≤ levels

end Expr

/-- What the trees at a place of the grammar have in common. -/
def Phrase.Fits (levels : Nat) : Phrase → Prop
  | .atom e | .term e | .sum e => e.Fits levels
  | .arguments es => Expr.WellFormedArgs es ∧ Expr.callNestingOfArgs es ≤ levels

/-- The count of digits that gives a width bounds the value. -/
theorem value_le_largest {n : Number} {ds : List Char}
    (hv : n.value = Radix.hexadecimal.value ds) (hw : n.width = .ofDigitCount ds.length) :
    n.value ≤ n.width.largest := by
  have hlt : n.value < 16 ^ ds.length := by
    rw [hv]
    exact Radix.value_lt_pow _ ds
  unfold Width.ofDigitCount at hw
  split at hw
  · next h2 =>
    have h2 : ds.length = 2 := by omega
    rw [h2] at hlt
    rw [hw]
    show n.value ≤ 0xFF
    omega
  · split at hw
    · next h4 =>
      have h4 : ds.length = 4 := by omega
      rw [h4] at hlt
      rw [hw]
      show n.value ≤ 0xFFFF
      omega
    · rw [hw]
      exact n.value_le

theorem Expr.fits_binary {levels : Nat} {op : Operator} {l r : Expr}
    (hop : op ∈ [.add, .sub, .mul, .div]) (hl : l.Fits levels) (hr : r.Fits levels) :
    (binary op l r).Fits levels := by
  obtain ⟨hl, hnl⟩ := hl
  obtain ⟨hr, hnr⟩ := hr
  exact ⟨⟨hop, hl, hr⟩, Nat.max_le.2 ⟨hnl, hnr⟩⟩

/-- A tree that has a layout is well formed, and its calls nest no deeper than its brackets. -/
theorem Layout.fits {levels : Nat} {p : Phrase} {t : List Char} (h : Layout levels p t) :
    p.Fits levels := by
  induction h with
  | @decimal _ n _ _ _ _ hw _ =>
    refine ⟨?_, Nat.zero_le _⟩
    show n.value ≤ n.width.largest
    rw [hw]
    exact n.value_le
  | hexadecimal _ _ hv hw _ => exact ⟨value_le_largest hv hw, Nat.zero_le _⟩
  | named hn _ => exact ⟨hn, Nat.zero_le _⟩
  | @relative _ _ hk _ _ => exact ⟨hk, Nat.zero_le _⟩
  | group _ _ _ ih =>
    obtain ⟨hwf, hnesting⟩ := ih
    exact ⟨hwf, by omega⟩
  | @call _ _ es _ _ _ _ hn _ _ _ _ ih =>
    obtain ⟨hwf, hnesting⟩ := ih
    refine ⟨⟨hn, hwf⟩, ?_⟩
    show 1 + Expr.callNestingOfArgs es ≤ _
    omega
  | noArguments => exact ⟨trivial, Nat.zero_le _⟩
  | oneArgument _ ih =>
    obtain ⟨hwf, hnesting⟩ := ih
    exact ⟨⟨hwf, trivial⟩, Nat.max_le.2 ⟨hnesting, Nat.zero_le _⟩⟩
  | moreArguments _ _ _ ihs iht =>
    obtain ⟨hwfs, hns⟩ := ihs
    obtain ⟨hwft, hnt⟩ := iht
    exact ⟨⟨hwfs, hwft⟩, Nat.max_le.2 ⟨hns, hnt⟩⟩
  | ofAtom _ ih | ofTerm _ ih => exact ih
  | product hop _ _ _ _ ihl ihr =>
    exact Expr.fits_binary (List.mem_append_right [Operator.add, .sub] hop) ihl ihr
  | addition hop _ _ _ _ ihl ihr =>
    exact Expr.fits_binary (List.mem_append_left [Operator.mul, .div] hop) ihl ihr

/-! ## Operands -/

namespace Operand

/-- The second operand, which only the two-operand form has. -/
def second? (o : Operand) : Option Expr := o.shape?.bind Shape.second?

theorem isSome_second?_iff (o : Operand) : o.second?.isSome = true ↔ o.mode = .move := by
  cases o with
  | implied => simp [second?, shape?, mode]
  | valued shape e => cases shape <;> simp [second?, shape?, mode, Shape.second?, Shape.mode]

theorem value?_eq_none_iff (o : Operand) : o.value? = none ↔ o.mode = .implied := by
  cases o with
  | implied => simp [value?, mode]
  | valued shape e => cases shape <;> simp [value?, mode, Shape.mode]

/-- The expressions of an operand. -/
def exprs (o : Operand) : List Expr := o.value?.toList ++ o.second?.toList

end Operand

theorem Enclosed.fits {opening closing : Char} {levels : Nat} {e : Expr} {t : List Char}
    (h : Enclosed opening closing levels e t) : e.Fits levels := by
  obtain ⟨-, h, -⟩ := h
  obtain ⟨hwf, hnesting⟩ := h.fits
  exact ⟨hwf, by omega⟩

theorem EnclosedIndexed.fits {letter : Char} {levels : Nat} {e : Expr} {t : List Char}
    (h : EnclosedIndexed letter levels e t) : e.Fits levels := by
  obtain ⟨-, h, -, -⟩ := h
  obtain ⟨hwf, hnesting⟩ := h.fits
  exact ⟨hwf, by omega⟩

/-- An operand that is spelled has well-formed expressions and is not the accumulator. -/
theorem OperandLayout.fits {levels : Nat} {o : Operand} {t : List Char}
    (h : OperandLayout levels o t) :
    o.mode ≠ .accumulator ∧ ∀ e ∈ o.exprs, e.Fits levels := by
  have single : ∀ {shape : Shape} {e : Expr}, shape.mode ≠ .accumulator → shape.second? = none →
      e.Fits levels → (Operand.valued shape e).mode ≠ .accumulator ∧
        ∀ e' ∈ (Operand.valued shape e).exprs, e'.Fits levels := by
    intro shape e hmode hsecond he
    refine ⟨hmode, fun e' he' => ?_⟩
    obtain rfl : e' = e := by
      simpa [Operand.exprs, Operand.value?, Operand.second?, Operand.shape?, hsecond] using he'
    exact he
  cases h with
  | implied => exact ⟨nofun, nofun⟩
  | immediate _ h | address h => exact single nofun rfl h.fits
  | indirect h | indirectY h _ | longIndirect h | longIndirectY h _ =>
    exact single nofun rfl h.fits
  | xIndirect h | stackIndirectY h _ => exact single nofun rfl h.fits
  | @move e f _ _ _ he _ hf =>
    refine ⟨nofun, fun e' he' => ?_⟩
    have hcases : e' = e ∨ e' = f := by
      simpa [Operand.exprs, Operand.value?, Operand.second?, Operand.shape?, Shape.second?]
        using he'
    rcases hcases with rfl | rfl
    · exact he.fits
    · exact hf.fits

/-! ## Statements -/

/-- What every instruction keeps that is read. -/
structure Instruction.WellFormed (levels : Nat) (i : Instruction) : Prop where
  mnemonic : isIdentifier i.mnemonic.toList = true
  size : i.size.map Size.bytes ∈ [none, some 1, some 2, some 3]
  second : i.operand.second?.isSome = true ↔ i.operand.mode = .move
  value : i.operand.value? = none ↔ i.operand.mode = .implied
  mode : i.operand.mode ≠ .accumulator
  exprs : ∀ e ∈ i.operand.exprs, e.Fits levels
  /-- With an operand that begins as an expression does it would be the keyword. -/
  org : i.size = none → Grammar.IsOrg i.mnemonic.toList →
    i.operand.mode ∉ [.address, .move, .indirect, .indirectY]

/-- What every statement keeps that is read. A conditional is not read. -/
def Statement.WellFormed (levels : Nat) : Statement → Prop
  | label l => l.WellFormed
  | instruction i => i.WellFormed levels
  | org e => e.Fits levels
  | assignment name e => isIdentifier name.toList = true ∧ e.Fits levels
  | conditional _ => False

namespace Grammar

variable {limit : Nat} {c d : Cursor} {s : Statement}

theorem wellFormed_instruction {i : Instruction} {t : List Char}
    (hl : StatementLayout limit (.instruction i) t)
    (horg : IsOrg i.mnemonic.toList → i.size = none → i.operand.beginsValue = false) :
    i.WellFormed limit := by
  cases hl with
  | @instruction mnemonic size o _ _ _ hn _ _ ho _ =>
    obtain ⟨hmode, hexprs⟩ := ho.fits
    refine ⟨hn, ?_, o.isSome_second?_iff, o.value?_eq_none_iff, hmode, hexprs,
      fun hsize hname => ?_⟩
    · rcases size with _ | _ | _ | _ <;> simp [Size.bytes]
    · have hbegins := horg hname hsize
      rw [Operand.beginsValue, List.contains_eq_mem, decide_eq_false_iff_not] at hbegins
      exact hbegins

/-- Whatever is read as a statement is well formed. -/
theorem wellFormed_of_run (h : (statement limit).run c = .ok (s, d)) : s.WellFormed limit := by
  obtain ⟨-, t, -, hl⟩ := laid_statement h
  cases s with
  | label l =>
    cases hl with
    | named hn _ => exact hn
    | @relative k hk _ _ => exact hk
  | instruction i => exact wellFormed_instruction hl (instruction_of_run h).2.2
  | org e =>
    cases hl with
    | org _ _ ht _ => exact ht.fits
  | assignment name e =>
    cases hl with
    | assignment hn _ _ ht => exact ⟨hn, ht.fits⟩
  | conditional branches => cases hl

theorem wellFormed_of_assignment (h : (assignmentStatement limit).run c = .ok (s, d)) :
    s.WellFormed limit := by
  obtain ⟨name, e, m, m', rfl, hname, -, he⟩ := run_assignment_eq_ok.1 h
  obtain ⟨hn, -⟩ := Token.run_identifier_eq_ok.1 hname
  obtain ⟨-, t, -, ht⟩ := laid_value he
  exact ⟨hn, ht.fits⟩

end Grammar

/-- Each statement of a line was read somewhere on it. -/
theorem Line.exists_run_of_mem {limit : Nat} {c : Cursor} {found : List (Nat × Statement)}
    (h : statementsFrom limit c = .ok found) :
    ∀ x ∈ found, ∃ c d, (Grammar.statement limit).run c = .ok (x.2, d) := by
  fun_induction statementsFrom limit c generalizing found with
  | case1 =>
    cases h
    nofun
  | case2 c rest hc ih => exact ih h
  | case3 => cases h
  | case4 => cases h
  | case5 c ch rest hc hne s d hrun _ later hlater ih =>
    cases h
    intro x hx
    rcases List.mem_cons.1 hx with rfl | hx
    · exact ⟨c, d, hrun⟩
    · exact ih hlater x hx
  | case6 => cases h

/-! ## Parts built from loose fields -/

/-- Digits whose value is too large overflow; the value of the others makes a number. -/
theorem Token.make_of_number (radix : Radix) (digits : List Char) (width : Width)
    (literal : List Char) (offset : Nat) :
    (∃ n, number radix digits width literal offset = .ok n ∧
      Number.make (radix.value digits) width = .ok n) ∨
    ∃ f, number radix digits width literal offset = .error f ∧ f.kind = .overflow := by
  unfold number
  split
  · exact .inr ⟨_, rfl, rfl⟩
  · split
    · next h =>
      refine .inl ⟨_, rfl, ?_⟩
      have hrange : 0 ≤ (radix.value digits : Int) ∧ (radix.value digits : Int) ≤ Number.largest :=
        ⟨by omega, by omega⟩
      simp [Number.make, hrange.2]
    · exact .inr ⟨_, rfl, rfl⟩

/-- The length of a run of markers, negative for those that point back, makes a relative label. -/
theorem Token.makeRelative_of_run {c d : Cursor} {l : Label}
    (h : relativeLabel.run c = .ok (l, d)) :
    Label.makeRelative (if c.peek? = some '+' then (d.pos : Int) - c.pos else c.pos - d.pos) =
      .ok l := by
  obtain ⟨k, hk, rfl, hr, -⟩ := run_relativeLabel_eq_ok.1 h
  have hpos : d.pos = c.pos + k.natAbs := by
    rw [hr.2, Label.markers, List.length_replicate]
  have hpeek : c.peek? = some (Label.marker k) := by
    obtain ⟨rest, hcons⟩ := Label.markers_eq_cons hk
    rw [hcons] at hr
    exact (Cursor.reads_cons.1 hr).1
  have hoffset : (if c.peek? = some '+' then (d.pos : Int) - c.pos else c.pos - d.pos) = k := by
    rw [hpeek, Label.marker]
    split
    · rw [if_pos rfl]
      omega
    · rw [if_neg (by decide)]
      omega
  rw [hoffset, Label.makeRelative, dif_pos hk]

/-- The mode and the parts of an operand make it again. -/
theorem Operand.make_eq_ok (o : Operand) :
    Shape.make o.mode o.second? = .ok o.shape? ∧ make o.shape? o.value? = .ok o := by
  cases o with
  | implied => exact ⟨rfl, rfl⟩
  | valued shape e =>
    refine ⟨?_, rfl⟩
    cases shape <;> rfl

theorem Size.make_bytes (z : Size) : make z.bytes = .ok z := by
  cases z <;> rfl

/-! ## Whole texts -/

theorem Statement.wellFormed_of_parsed {depth : Depth} {text rest : String} {s : Statement}
    (h : parse depth text = .ok (s, rest) ∨ parseAssignment depth text = .ok (s, rest)) :
    s.WellFormed depth.levels := by
  rcases h with h | h
  · obtain ⟨d, hrun, -⟩ := Rule.parse_eq_ok.1 h
    exact Grammar.wellFormed_of_run hrun
  · obtain ⟨d, hrun, -⟩ := Rule.parse_eq_ok.1 h
    exact Grammar.wellFormed_of_assignment hrun

theorem Line.wellFormed_of_mem {depth : Depth} {file : String} {number : Int} {line : List Char}
    {found : List Located} (h : parse depth file number line = .ok found) :
    ∀ x ∈ found, x.statement.WellFormed depth.levels := by
  intro x hx
  unfold parse at h
  split at h
  · next placed hplaced =>
    cases h
    obtain ⟨y, hy, rfl⟩ := List.mem_map.1 hx
    obtain ⟨c, d, hrun⟩ := exists_run_of_mem hplaced y hy
    exact Grammar.wellFormed_of_run hrun
  · cases h

end Asm65816
