import Asm65816.Proofs.WellFormed

/-!
# Normal forms of expressions are unambiguous

No two expressions are written alike, though a relative label is spelled as an operator is and
parentheses stand round binary nodes and arguments. The normal form of an expression ends where no
other one could (`Expr.append_unique`): texts that begin with the normal forms of two expressions,
each before a mark that ends expressions, begin with the same one.

A normal form is made of words and of the marks between them (`Text.delimiters`). Its first word
tells a leaf whole, and what stands after it tells leaves from nodes. Nothing of this needs the
operators to be ones that are read, so `Expr.Legible` asks for less than `Expr.WellFormed`.
-/

namespace Asm65816

open Text (Avoids BeginsIn Radix isIdentifier isIdentifierPart isIdentifierStart)

/-! ## Words -/

namespace Text

variable {p : Char → Bool}

theorem takeWhile_append_of_avoids {w s : List Char} (hw : ∀ c ∈ w, p c = true)
    (hs : Avoids p s) : (w ++ s).takeWhile p = w := by
  rw [List.takeWhile_append_of_pos hw]
  cases s with
  | nil => simp
  | cons c s => simp [avoids_cons.1 hs]

/-- A text is cut in one way where a run of characters ends. -/
theorem run_unique {w w' s s' : List Char} (hw : ∀ c ∈ w, p c = true)
    (hw' : ∀ c ∈ w', p c = true) (hs : Avoids p s) (hs' : Avoids p s')
    (h : w ++ s = w' ++ s') : w = w' ∧ s = s' := by
  have hword : w = w' := by
    rw [← takeWhile_append_of_avoids hw hs, h, takeWhile_append_of_avoids hw' hs']
  subst hword
  exact ⟨rfl, List.append_cancel_left h⟩

/-- The marks that stand after a word of a normal form. -/
def delimiters : List Char := [' ', '(', ')', ',', ']']

/-- The marks that stand after an expression. -/
def enders : List Char := [' ', ')', ',', ']']

/-- Whether a character may stand in a word of a normal form. -/
def isInner (c : Char) : Bool := !delimiters.contains c

/-- A kind of characters to which no delimiter belongs stands in words. -/
theorem isInner_of {c : Char} (hp : delimiters.any p = false) (h : p c = true) :
    isInner c = true :=
  not_contains_of_any hp h

theorem BeginsIn.avoids_inner {s : List Char} (h : BeginsIn enders s) : Avoids isInner s :=
  h.avoids (by decide)

/-- Only some characters begin an identifier. -/
theorem append_ne_cons_of_isIdentifier {cs : List Char} (h : isIdentifier cs = true) {c : Char}
    (hc : isIdentifierStart c = false) (s t : List Char) : cs ++ s ≠ c :: t := by
  obtain ⟨d, rest, rfl, hd, -⟩ := isIdentifier_iff.1 h
  rintro ⟨⟩
  rw [hd] at hc
  cases hc

theorem isInner_of_isIdentifier {cs : List Char} (h : isIdentifier cs = true) :
    ∀ c ∈ cs, isInner c = true :=
  not_contains_of_isIdentifier (by decide) (by decide) h

end Text

/-! ## Numbers, labels and operators -/

/-- A number that fits its width is spelled in decimal, or as many digits after the mark give its
width. -/
theorem Number.spelled {n : Number} (h : n.value ≤ n.width.largest) :
    (n.width = .unsized ∧ Radix.decimal.Digits n.chars ∧ Radix.decimal.value n.chars = n.value) ∨
    ∃ ds, n.chars = '$' :: ds ∧ Radix.hexadecimal.Digits ds ∧
      Radix.hexadecimal.value ds = n.value ∧ n.width = .ofDigitCount ds.length := by
  have padded : ∀ k, n.value < 16 ^ (k + 1) → n.width = .ofDigitCount ((k + 1 : Nat) : Int) →
      Radix.hexadecimal.Digits (Text.zeroPadded (k + 1) (Radix.hexadecimal.numeral n.value)) ∧
      Radix.hexadecimal.value (Text.zeroPadded (k + 1) (Radix.hexadecimal.numeral n.value)) =
        n.value ∧
      n.width = .ofDigitCount
        (Text.zeroPadded (k + 1) (Radix.hexadecimal.numeral n.value)).length := by
    intro k hlt hw
    have hlength := Radix.length_zeroPadded .hexadecimal hlt
    refine ⟨⟨?_, Radix.isDigit_zeroPadded _ _ _⟩, Radix.value_zeroPadded _ _ _, ?_⟩
    · rw [← List.length_pos_iff, hlength]
      omega
    · rw [hlength]
      exact hw
  unfold Number.chars
  split
  · next hw =>
    exact .inl ⟨hw, ⟨Radix.numeral_ne_nil _ _, Radix.isDigit_numeral _ _⟩,
      Radix.value_numeral _ _⟩
  · next hw =>
    rw [hw] at h
    exact .inr ⟨_, rfl, padded 1 (Nat.lt_succ_of_le h) hw⟩
  · next hw =>
    rw [hw] at h
    exact .inr ⟨_, rfl, padded 3 (Nat.lt_succ_of_le h) hw⟩

theorem Number.ext {n m : Number} (hv : n.value = m.value) (hw : n.width = m.width) : n = m := by
  cases n
  cases m
  cases hv
  cases hw
  rfl

theorem Number.opens {n : Number} (h : n.value ≤ n.width.largest) :
    ∃ c rest, n.chars = c :: rest ∧ (Radix.decimal.isDigit c = true ∨ c = '$') := by
  rcases n.spelled h with ⟨-, ⟨hne, hds⟩, -⟩ | ⟨ds, hcons, -⟩
  · obtain ⟨c, rest, hcons⟩ := List.exists_cons_of_ne_nil hne
    exact ⟨c, rest, hcons, .inl (hds c (hcons ▸ List.mem_cons_self))⟩
  · exact ⟨'$', ds, hcons, .inr rfl⟩

/-- Numbers that fit their widths and are written alike are the same. -/
theorem Number.chars_inj {n m : Number} (hn : n.value ≤ n.width.largest)
    (hm : m.value ≤ m.width.largest) (h : n.chars = m.chars) : n = m := by
  have marked : ∀ {ds es : List Char}, Radix.decimal.Digits ds → ds ≠ '$' :: es := by
    rintro ds es ⟨-, hds⟩ rfl
    exact absurd (hds '$' List.mem_cons_self) (by decide)
  rcases n.spelled hn with ⟨hwn, hdn, hvn⟩ | ⟨ds, hcn, -, hvn, hwn⟩ <;>
    rcases m.spelled hm with ⟨hwm, hdm, hvm⟩ | ⟨es, hcm, -, hvm, hwm⟩
  · exact Number.ext (by rw [← hvn, h, hvm]) (hwn.trans hwm.symm)
  · exact absurd (h.trans hcm) (marked hdn)
  · exact absurd (h.symm.trans hcn) (marked hdm)
  · rw [hcn, hcm] at h
    cases h
    exact Number.ext (hvn.symm.trans hvm) (hwn.trans hwm.symm)

theorem Number.isInner_chars {n : Number} (h : n.value ≤ n.width.largest) :
    ∀ c ∈ n.chars, Text.isInner c = true := by
  intro c hc
  rcases n.spelled h with ⟨-, ⟨-, hds⟩, -⟩ | ⟨ds, hcons, ⟨-, hds⟩, -⟩
  · exact Text.isInner_of (by decide) (hds c hc)
  · rw [hcons] at hc
    rcases List.mem_cons.1 hc with rfl | hc
    · decide
    · exact Text.isInner_of (by decide) (hds c hc)

namespace Label

theorem opens {l : Label} (h : l.WellFormed) : ∃ c rest, l.chars = c :: rest ∧
    (isIdentifierStart c = true ∨ c = '+' ∨ c = '-') := by
  cases l with
  | named name =>
    obtain ⟨c, rest, hname, hs, -⟩ := Text.isIdentifier_iff.1 h
    exact ⟨c, rest, hname, .inl hs⟩
  | relative k hk =>
    obtain ⟨rest, hcons⟩ := markers_eq_cons hk
    exact ⟨marker k, rest, hcons, .inr (marker_eq k)⟩

theorem marker_eq_plus_iff {k : Int} : marker k = '+' ↔ 0 < k := by
  rw [marker]
  split <;> simp_all

/-- The length of a run of markers and its marker tell the offset. -/
theorem markers_inj {j k : Int} (hj : j ≠ 0) (hk : k ≠ 0) (h : markers j = markers k) : j = k := by
  have hlength : j.natAbs = k.natAbs := by
    simpa [markers] using congrArg List.length h
  have hmarker : marker j = marker k := by
    obtain ⟨s, hs⟩ := markers_eq_cons hj
    obtain ⟨t, ht⟩ := markers_eq_cons hk
    rw [hs, ht] at h
    exact List.head_eq_of_cons_eq h
  have hsign : 0 < j ↔ 0 < k := by
    rw [← marker_eq_plus_iff, hmarker, marker_eq_plus_iff]
  omega

/-- A name does not begin as a run of markers does. -/
theorem name_ne_markers {name : List Char} {k : Int} (hn : isIdentifier name = true)
    (hk : k ≠ 0) (s : List Char) : name ++ s ≠ markers k := by
  obtain ⟨rest, hcons⟩ := markers_eq_cons hk
  rw [hcons]
  refine Text.append_ne_cons_of_isIdentifier hn ?_ s rest
  rcases marker_eq k with hm | hm <;> rw [hm] <;> decide

/-- Labels that are written alike are the same. -/
theorem chars_inj {l m : Label} (hl : l.WellFormed) (hm : m.WellFormed)
    (h : l.chars = m.chars) : l = m := by
  cases l with
  | named name =>
    cases m with
    | named name' => rw [String.toList_inj.1 h]
    | relative k hk => exact absurd ((List.append_nil _).trans h) (name_ne_markers hl hk [])
  | relative j hj =>
    cases m with
    | named name => exact absurd ((List.append_nil _).trans h.symm) (name_ne_markers hm hj [])
    | relative k hk =>
      obtain rfl := markers_inj hj hk h
      rfl

theorem isInner_chars {l : Label} (h : l.WellFormed) : ∀ c ∈ l.chars, Text.isInner c = true := by
  cases l with
  | named name => exact Text.isInner_of_isIdentifier h
  | relative k hk =>
    intro c hc
    obtain rfl : c = marker k := List.eq_of_mem_replicate hc
    rcases marker_eq k with hm | hm <;> rw [hm] <;> decide

end Label

/-- A number is not written as a label is. -/
theorem Number.chars_ne_label {n : Number} {l : Label} (hn : n.value ≤ n.width.largest)
    (hl : l.WellFormed) : n.chars ≠ l.chars := by
  obtain ⟨c, s, hcn, hc⟩ := Number.opens hn
  obtain ⟨d, t, hcl, hd⟩ := Label.opens hl
  rw [hcn, hcl]
  rintro ⟨⟩
  rcases hd with hd | rfl | rfl
  · rcases hc with hc | rfl
    · rw [Text.isDigit_of_isIdentifierStart hd] at hc
      cases hc
    · exact absurd hd (by decide)
  · exact absurd hc (by decide)
  · exact absurd hc (by decide)

theorem Operator.symbol_inj {op oq : Operator} (h : op.symbol = oq.symbol) : op = oq := by
  cases op <;> cases oq <;> first | rfl | cases h

theorem Operator.isInner_symbol (op : Operator) : ∀ c ∈ op.symbol, Text.isInner c = true := by
  have hall : op.symbol.all Text.isInner = true := by cases op <;> decide
  exact List.all_eq_true.1 hall

/-! ## Expressions -/

namespace Expr

mutual
/-- Numbers fit their widths and names are identifiers; operators may be any. -/
def Legible : Expr → Prop
  | .number n => n.value ≤ n.width.largest
  | .label l => l.WellFormed
  | .binary _ left right => left.Legible ∧ right.Legible
  | .call name args => isIdentifier name.toList = true ∧ LegibleArgs args

/-- Every argument is legible. -/
def LegibleArgs : List Expr → Prop
  | [] => True
  | e :: rest => e.Legible ∧ LegibleArgs rest
end

mutual
theorem WellFormed.legible : ∀ {e : Expr}, e.WellFormed → e.Legible
  | .number _, h | .label _, h => h
  | .binary .., ⟨_, hl, hr⟩ => ⟨hl.legible, hr.legible⟩
  | .call .., ⟨hn, ha⟩ => ⟨hn, legibleArgs_of_wellFormed ha⟩

theorem legibleArgs_of_wellFormed : ∀ {es : List Expr}, WellFormedArgs es → LegibleArgs es
  | [], _ => trivial
  | _ :: _, ⟨he, hes⟩ => ⟨he.legible, legibleArgs_of_wellFormed hes⟩
end

/-- A legible expression begins as one that is read. -/
theorem Legible.opens {e : Expr} (h : e.Legible) :
    ∃ c rest, e.chars = c :: rest ∧ Grammar.opensExpression c = true := by
  cases e with
  | number n =>
    obtain ⟨c, rest, hcons, hc⟩ := Number.opens h
    refine ⟨c, rest, hcons, ?_⟩
    rcases hc with hc | rfl
    · simp [Grammar.opensExpression, hc]
    · decide
  | label l =>
    obtain ⟨c, rest, hcons, hc⟩ := Label.opens h
    refine ⟨c, rest, hcons, ?_⟩
    rcases hc with hc | rfl | rfl
    · simp [Grammar.opensExpression, hc]
    · decide
    · decide
  | binary op left right => exact ⟨'(', _, rfl, by decide⟩
  | call name args =>
    obtain ⟨c, rest, hname, hs, -⟩ := Text.isIdentifier_iff.1 h.1
    refine ⟨c, rest ++ '(' :: charsOfArgs args ++ [')'], by rw [chars, hname]; simp, ?_⟩
    simp [Grammar.opensExpression, hs]

/-- No other character begins it. -/
theorem Legible.ne_cons {e : Expr} (h : e.Legible) {c : Char}
    (hc : Grammar.opensExpression c = false) (s t : List Char) : e.chars ++ s ≠ c :: t := by
  obtain ⟨d, rest, hcons, hd⟩ := h.opens
  rw [hcons]
  rintro ⟨⟩
  rw [hd] at hc
  cases hc

/-- The normal forms of the arguments after the first, with the comma before each. -/
def charsOfMore : List Expr → List Char
  | [] => []
  | e :: rest => ',' :: ' ' :: charsOfArgs (e :: rest)

theorem charsOfArgs_cons (e : Expr) (es : List Expr) :
    charsOfArgs (e :: es) = e.chars ++ charsOfMore es := by
  cases es with
  | nil => simp [charsOfArgs, charsOfMore]
  | cons f es => rw [charsOfArgs, charsOfMore]

/-- More arguments follow a comma, and the last one is followed by a parenthesis. -/
theorem beginsIn_more (es : List Expr) (s : List Char) :
    BeginsIn Text.enders (charsOfMore es ++ ')' :: s) := by
  cases es with
  | nil => exact Text.beginsIn_cons (by decide)
  | cons e es => exact Text.beginsIn_cons (by decide)

/-! ## Leaves and nodes -/

/-- Whether an expression is a number or a label. -/
def isLeaf : Expr → Bool
  | .number _ | .label _ => true
  | _ => false

/-- A leaf is one word. -/
theorem Legible.isInner_chars {e : Expr} (h : e.Legible) (hleaf : e.isLeaf = true) :
    ∀ c ∈ e.chars, Text.isInner c = true := by
  cases e with
  | number n => exact Number.isInner_chars h
  | label l => exact Label.isInner_chars h
  | binary | call => cases hleaf

/-- In any other expression a parenthesis follows the first word, which a binary node lacks. -/
theorem Legible.exists_word {e : Expr} (h : e.Legible) (hleaf : e.isLeaf = false) :
    ∃ w t, e.chars = w ++ '(' :: t ∧ ∀ c ∈ w, Text.isInner c = true := by
  cases e with
  | number | label => cases hleaf
  | binary op l r => exact ⟨[], _, rfl, nofun⟩
  | call name args =>
    refine ⟨name.toList, charsOfArgs args ++ [')'], ?_, Text.isInner_of_isIdentifier h.1⟩
    rw [chars, List.append_assoc, List.cons_append]

/-- Leaves that are written alike are the same. -/
theorem Legible.leaf_inj {e f : Expr} (he : e.Legible) (hf : f.Legible) (hle : e.isLeaf = true)
    (hlf : f.isLeaf = true) (h : e.chars = f.chars) : e = f := by
  cases e with
  | number n =>
    cases f with
    | number m => rw [Number.chars_inj he hf h]
    | label l => exact absurd h (Number.chars_ne_label he hf)
    | binary | call => cases hlf
  | label l =>
    cases f with
    | number n => exact absurd h.symm (Number.chars_ne_label hf he)
    | label m => rw [Label.chars_inj he hf h]
    | binary | call => cases hlf
  | binary | call => cases hle

variable {e f : Expr} {s t : List Char}

/-- No parenthesis follows the word of a leaf. -/
theorem Legible.leaf_ne (he : e.Legible) (hleaf : e.isLeaf = true) (hs : BeginsIn Text.enders s)
    {w : List Char} (hw : ∀ c ∈ w, Text.isInner c = true) : e.chars ++ s ≠ w ++ '(' :: t := by
  intro h
  obtain ⟨-, rfl⟩ := Text.run_unique (he.isInner_chars hleaf) hw hs.avoids_inner
    (Text.avoids_cons.2 (by decide)) h
  exact absurd (hs '(' rfl) (by decide)

/-- A leaf ends where its word does, and no other expression begins with that word. -/
theorem Legible.append_unique_of_leaf (he : e.Legible) (hf : f.Legible) (hleaf : e.isLeaf = true)
    (hs : BeginsIn Text.enders s) (ht : BeginsIn Text.enders t)
    (h : e.chars ++ s = f.chars ++ t) : e = f ∧ s = t := by
  cases hlf : f.isLeaf with
  | true =>
    obtain ⟨hchars, hst⟩ := Text.run_unique (he.isInner_chars hleaf) (hf.isInner_chars hlf)
      hs.avoids_inner ht.avoids_inner h
    exact ⟨he.leaf_inj hf hleaf hlf hchars, hst⟩
  | false =>
    obtain ⟨w, u, hchars, hw⟩ := hf.exists_word hlf
    rw [hchars, List.append_assoc, List.cons_append] at h
    exact absurd h (he.leaf_ne hleaf hs hw)

/-- A call begins with a name. -/
theorem Legible.call_ne_group {name : String} {args : List Expr} (h : (call name args).Legible)
    (s t : List Char) : (call name args).chars ++ s ≠ '(' :: t := by
  rw [chars, List.append_assoc, List.append_assoc]
  exact Text.append_ne_cons_of_isIdentifier h.1 (by decide) _ t

theorem beginsIn_space (u : List Char) : BeginsIn Text.enders (' ' :: u) :=
  Text.beginsIn_cons (by decide)

theorem beginsIn_close (u : List Char) : BeginsIn Text.enders (')' :: u) :=
  Text.beginsIn_cons (by decide)

mutual
/-- The normal form of an expression ends in one way: whatever stands behind it begins with a mark
that ends expressions, so a longer or a shorter one does not fit. -/
theorem append_unique : ∀ {e f : Expr} {s t : List Char}, e.Legible → f.Legible →
    BeginsIn Text.enders s → BeginsIn Text.enders t → e.chars ++ s = f.chars ++ t →
    e = f ∧ s = t
  | .number _, _, _, _, he, hf, hs, ht, h | .label _, _, _, _, he, hf, hs, ht, h =>
    he.append_unique_of_leaf hf rfl hs ht h
  | .binary .., .number _, _, _, he, hf, hs, ht, h | .binary .., .label _, _, _, he, hf, hs, ht, h
  | .call .., .number _, _, _, he, hf, hs, ht, h | .call .., .label _, _, _, he, hf, hs, ht, h =>
    (hf.append_unique_of_leaf he rfl ht hs h.symm).imp Eq.symm Eq.symm
  | .binary .., .call .., _, _, _, hf, _, _, h => absurd h.symm (hf.call_ne_group _ _)
  | .call .., .binary .., _, _, he, _, _, _, h => absurd h (he.call_ne_group _ _)
  | .binary op l r, .binary oq l' r', s, t, ⟨hl, hr⟩, ⟨hl', hr'⟩, _, _, h => by
    -- the left operand ends before a space, the operator too, and the right one before `)`
    simp only [chars, List.cons_append, List.append_assoc, List.nil_append, List.cons.injEq,
      true_and] at h
    obtain ⟨hleft, hop⟩ := append_unique hl hl' (beginsIn_space _) (beginsIn_space _) h
    obtain ⟨hsymbol, hright⟩ := Text.run_unique op.isInner_symbol oq.isInner_symbol
      (beginsIn_space _).avoids_inner (beginsIn_space _).avoids_inner (List.tail_eq_of_cons_eq hop)
    obtain ⟨hr, hrest⟩ := append_unique hr hr' (beginsIn_close _) (beginsIn_close _)
      (List.tail_eq_of_cons_eq hright)
    exact ⟨by rw [hleft, Operator.symbol_inj hsymbol, hr], List.tail_eq_of_cons_eq hrest⟩
  | .call name es, .call name' fs, s, t, ⟨hn, hes⟩, ⟨hn', hfs⟩, _, _, h => by
    simp only [chars, List.cons_append, List.append_assoc, List.nil_append] at h
    obtain ⟨hname, hargs⟩ := Text.run_unique (Text.isInner_of_isIdentifier hn)
      (Text.isInner_of_isIdentifier hn') (Text.avoids_cons.2 (by decide))
      (Text.avoids_cons.2 (by decide)) h
    obtain ⟨hargs, hrest⟩ := args_unique hes hfs (List.tail_eq_of_cons_eq hargs)
    exact ⟨by rw [String.toList_inj.1 hname, hargs], hrest⟩

/-- Arguments before a closing parenthesis, as `append_unique`. -/
theorem args_unique : ∀ {es fs : List Expr} {s t : List Char}, LegibleArgs es → LegibleArgs fs →
    charsOfArgs es ++ ')' :: s = charsOfArgs fs ++ ')' :: t → es = fs ∧ s = t
  | [], [], _, _, _, _, h => ⟨rfl, List.tail_eq_of_cons_eq h⟩
  | [], _ :: _, _, _, _, ⟨hf, _⟩, h => by
    rw [charsOfArgs_cons, List.append_assoc] at h
    exact absurd h.symm (hf.ne_cons (by decide) _ _)
  | _ :: _, [], _, _, ⟨he, _⟩, _, h => by
    rw [charsOfArgs_cons, List.append_assoc] at h
    exact absurd h (he.ne_cons (by decide) _ _)
  | e :: es, f :: fs, s, t, ⟨he, hes⟩, ⟨hf, hfs⟩, h => by
    rw [charsOfArgs_cons, charsOfArgs_cons, List.append_assoc, List.append_assoc] at h
    obtain ⟨hfirst, hmore⟩ := append_unique he hf (beginsIn_more es s) (beginsIn_more fs t) h
    obtain ⟨hrest, hst⟩ : es = fs ∧ s = t := by
      match es, fs, hes, hfs, hmore with
      | [], [], _, _, hmore => exact ⟨rfl, List.tail_eq_of_cons_eq hmore⟩
      | _ :: _, _ :: _, hes, hfs, hmore =>
        exact args_unique hes hfs (List.tail_eq_of_cons_eq (List.tail_eq_of_cons_eq hmore))
    exact ⟨by rw [hfirst, hrest], hst⟩
end

/-- Legible expressions that are written alike are the same. -/
theorem Legible.chars_inj (he : e.Legible) (hf : f.Legible) (h : e.chars = f.chars) : e = f := by
  have h : e.chars ++ [] = f.chars ++ [] := by rw [h]
  exact (append_unique he hf (Text.beginsIn_nil _) (Text.beginsIn_nil _) h).1

/-- An expression that begins with a parenthesis is a binary node, so what the parenthesis opens
goes on with an operator and is not closed after one expression. -/
theorem Legible.ne_group (he : e.Legible) (hf : f.Legible) (hs : BeginsIn Text.enders s)
    (ht : BeginsIn [')', ','] t) : e.chars ++ s ≠ '(' :: f.chars ++ t := by
  intro h
  cases e with
  | number | label =>
    exact he.leaf_ne rfl hs (List.forall_mem_nil _) (h : _ = [] ++ '(' :: (f.chars ++ t))
  | call name args => exact he.call_ne_group s _ h
  | binary op l r =>
    simp only [chars, List.cons_append, List.append_assoc, List.cons.injEq, true_and] at h
    obtain ⟨-, rfl⟩ := append_unique he.1 hf (beginsIn_space _) (ht.mono (by decide)) h
    exact absurd (ht ' ' rfl) (by decide)

end Expr

end Asm65816
