import Asm65816.Proofs.Reading
import Asm65816.Text.Integer

/-!
# What is a written integer

The texts that write an integer, said without the functions that read them: digits of any script
with single underscores between them (`Grouped`), a sign in front (`Signed`), and margins around
(`Writes`). Reading gives exactly the integer that a text writes (`read?_eq_some_iff`).

Digits are read from the left, and each moves the value so far up by one place. So `Grouped` grows
at its end, and a reading that has come to the end of digits is known by their value alone.
-/

namespace Asm65816.Text.Integer

variable {c : Char} {cs : List Char} {d m n : Nat} {k : Int}

/-- Digits with single underscores between them write a natural number. -/
inductive Grouped : List Char → Nat → Prop
  | digit {c : Char} {d : Nat} : digitValue? c = some d → Grouped [c] d
  | next {cs : List Char} {n : Nat} {c : Char} {d : Nat} : Grouped cs n → digitValue? c = some d →
      Grouped (cs ++ [c]) (n * 10 + d)
  | apart {cs : List Char} {n : Nat} {c : Char} {d : Nat} : Grouped cs n → digitValue? c = some d →
      Grouped (cs ++ ['_', c]) (n * 10 + d)

/-- Grouped digits after a sign, which may be left out. -/
inductive Signed : List Char → Int → Prop
  | unsigned {cs : List Char} {n : Nat} : Grouped cs n → Signed cs n
  | plus {cs : List Char} {n : Nat} : Grouped cs n → Signed ('+' :: cs) n
  | minus {cs : List Char} {n : Nat} : Grouped cs n → Signed ('-' :: cs) (-n)

/-- The text writes the integer, with margins around it. -/
def Writes (cs : List Char) (k : Int) : Prop :=
  ∃ left written right, cs = left ++ written ++ right ∧ (∀ c ∈ left, isMargin c = true) ∧
    (∀ c ∈ right, isMargin c = true) ∧ Signed written k

/-! ## Digits -/

theorem digitValue?_eq_none_of_mem (h : c ∈ ['_', '+', '-']) : digitValue? c = none := by
  simp only [List.mem_cons, List.not_mem_nil, or_false] at h
  rcases h with rfl | rfl | rfl <;> decide

theorem digits_of_digit (h : digitValue? c = some d) (needsDigit : Bool) :
    digits n needsDigit (c :: cs) = digits (n * 10 + d) false cs := by
  have hne : c ≠ '_' := by
    rintro rfl
    rw [digitValue?_eq_none_of_mem (by decide)] at h
    cases h
  rw [digits, if_neg hne, h]

/-- Reading takes grouped digits to their value. -/
theorem Grouped.digits_append (h : Grouped cs n) (rest : List Char) :
    digits 0 true (cs ++ rest) = digits n false rest := by
  induction h generalizing rest with
  | @digit c d hc =>
    rw [List.singleton_append, digits_of_digit hc, Nat.zero_mul, Nat.zero_add]
  | @next cs n c d _ hc ih => rw [List.append_assoc, ih, List.singleton_append, digits_of_digit hc]
  | @apart cs n c d _ hc ih =>
    have hunderscore : digits n false ('_' :: c :: rest) = digits n true (c :: rest) := by
      rw [digits, if_pos rfl]
      rfl
    rw [List.append_assoc, ih]
    exact hunderscore.trans (digits_of_digit hc true)

/-- What is read onto grouped digits is grouped with them, after an underscore if a digit has to
follow. -/
theorem grouped_of_digits {before : List Char} (h : Grouped before m) {needsDigit : Bool}
    (hdigits : digits m needsDigit cs = some n) :
    Grouped (before ++ (if needsDigit then '_' :: cs else cs)) n := by
  -- What was read grows by the next digit, together with an underscore before it.
  induction cs generalizing before m needsDigit with
  | nil =>
    cases needsDigit with
    | true => cases hdigits
    | false =>
      cases hdigits
      rwa [if_neg nofun, List.append_nil]
  | cons c cs ih =>
    rw [digits] at hdigits
    split at hdigits
    · next hunderscore =>
      subst hunderscore
      cases needsDigit with
      | true => cases hdigits
      | false => exact ih h hdigits
    · split at hdigits
      · next d hc =>
        cases needsDigit with
        | true => simpa using ih (h.apart hc) hdigits
        | false => simpa using ih (h.next hc) hdigits
      · cases hdigits

theorem digits_eq_some_iff : digits 0 true cs = some n ↔ Grouped cs n := by
  refine ⟨fun h => ?_, fun h => ?_⟩
  · cases cs with
    | nil => cases h
    | cons c cs =>
      rw [digits] at h
      split at h
      · cases h
      · split at h
        · next d hc =>
          rw [Nat.zero_mul, Nat.zero_add] at h
          exact grouped_of_digits (.digit hc) h
        · cases h
  · have happend := h.digits_append []
    rwa [List.append_nil] at happend

/-- Grouped digits begin and end with a digit. -/
theorem Grouped.ends (h : Grouped cs n) :
    (∃ c rest, cs = c :: rest ∧ (digitValue? c).isSome) ∧
      ∃ c rest, cs = rest ++ [c] ∧ (digitValue? c).isSome := by
  induction h with
  | @digit c d hc =>
    have hsome : (digitValue? c).isSome = true := by rw [hc]; rfl
    exact ⟨⟨c, [], rfl, hsome⟩, c, [], rfl, hsome⟩
  | @next cs n c d _ hc ih =>
    obtain ⟨⟨first, rest, rfl, hfirst⟩, -⟩ := ih
    have hsome : (digitValue? c).isSome = true := by rw [hc]; rfl
    exact ⟨⟨first, rest ++ [c], rfl, hfirst⟩, c, _, rfl, hsome⟩
  | @apart cs n c d _ hc ih =>
    obtain ⟨⟨first, rest, rfl, hfirst⟩, -⟩ := ih
    have hsome : (digitValue? c).isSome = true := by rw [hc]; rfl
    refine ⟨⟨first, rest ++ ['_', c], rfl, hfirst⟩, c, first :: rest ++ ['_'], ?_, hsome⟩
    simp

/-! ## Signs -/

theorem signed_eq_some_iff : signed cs = some k ↔ Signed cs k := by
  refine ⟨fun h => ?_, fun h => ?_⟩
  · unfold signed at h
    split at h
    · obtain ⟨n, hn, rfl⟩ := Option.map_eq_some_iff.1 h
      exact .plus (digits_eq_some_iff.1 hn)
    · obtain ⟨n, hn, rfl⟩ := Option.map_eq_some_iff.1 h
      exact .minus (digits_eq_some_iff.1 hn)
    · obtain ⟨n, hn, rfl⟩ := Option.map_eq_some_iff.1 h
      exact .unsigned (digits_eq_some_iff.1 hn)
  · cases h with
    | plus h => exact Option.map_eq_some_iff.2 ⟨_, digits_eq_some_iff.2 h, rfl⟩
    | minus h => exact Option.map_eq_some_iff.2 ⟨_, digits_eq_some_iff.2 h, rfl⟩
    | unsigned h =>
      obtain ⟨⟨c, rest, rfl, hc⟩, -⟩ := h.ends
      unfold signed
      split
      · next heq =>
        cases heq
        exact absurd hc (by decide)
      · next heq =>
        cases heq
        exact absurd hc (by decide)
      · exact Option.map_eq_some_iff.2 ⟨_, digits_eq_some_iff.2 h, rfl⟩

/-! ## Margins -/

/-- No row of digits meets a range of white space. -/
theorem covers_spaceRanges_eq_false :
    ∀ z ∈ zeroDigits, ∀ k < 10, spaceRanges.covers (z + k) = false := by decide +kernel

theorem isSpace_of_digitValue? (h : (digitValue? c).isSome) : isSpace c = false := by
  rw [digitValue?, Option.isSome_map, List.find?_isSome] at h
  obtain ⟨z, hz, hrow⟩ := h
  simp only [Bool.and_eq_true, decide_eq_true_eq] at hrow
  obtain ⟨k, hk⟩ : ∃ k, c.toNat = z + k := ⟨c.toNat - z, by omega⟩
  rw [isSpace, hk]
  exact covers_spaceRanges_eq_false z hz k (by omega)

theorem isMargin_of_digitValue? (h : (digitValue? c).isSome) : isMargin c = false := by
  have hblank : isBlank c = false := by
    refine Bool.eq_false_iff.2 fun hblank => ?_
    simp only [isBlank, blanks, List.contains_cons, List.contains_nil, Bool.or_false,
      Bool.or_eq_true, beq_iff_eq] at hblank
    rcases hblank with rfl | rfl | rfl | rfl | rfl | rfl <;> exact absurd h (by decide)
  rw [isMargin, hblank, isSpace_of_digitValue? h, Bool.and_false, Bool.or_false]

/-- A signed integer begins and ends with something else than a margin. -/
theorem Signed.ends (h : Signed cs k) :
    (∃ c rest, cs = c :: rest ∧ isMargin c = false) ∧
      ∃ c rest, cs = rest ++ [c] ∧ isMargin c = false := by
  cases h with
  | unsigned h =>
    obtain ⟨⟨c, rest, hfirst, hc⟩, e, init, hlast, he⟩ := h.ends
    exact ⟨⟨c, rest, hfirst, isMargin_of_digitValue? hc⟩,
      e, init, hlast, isMargin_of_digitValue? he⟩
  | @plus cs n h =>
    obtain ⟨-, e, init, hlast, he⟩ := h.ends
    exact ⟨⟨'+', cs, rfl, rfl⟩, e, '+' :: init, by rw [hlast]; rfl, isMargin_of_digitValue? he⟩
  | @minus cs n h =>
    obtain ⟨-, e, init, hlast, he⟩ := h.ends
    exact ⟨⟨'-', cs, rfl, rfl⟩, e, '-' :: init, by rw [hlast]; rfl, isMargin_of_digitValue? he⟩

theorem dropWhile_append_of_not {p : Char → Bool} {left rest : List Char}
    (hleft : ∀ c ∈ left, p c = true) (hc : p c = false) :
    (left ++ c :: rest).dropWhile p = c :: rest := by
  rw [List.dropWhile_append_of_pos hleft, List.dropWhile_cons_of_neg (by simp [hc])]

/-- Both ends of a text are taken off as long as they are margins. -/
def trim (cs : List Char) : List Char :=
  ((cs.dropWhile isMargin).reverse.dropWhile isMargin).reverse

theorem exists_trim (cs : List Char) : ∃ left right, cs = left ++ trim cs ++ right ∧
    (∀ c ∈ left, isMargin c = true) ∧ ∀ c ∈ right, isMargin c = true := by
  refine ⟨cs.takeWhile isMargin,
    ((cs.dropWhile isMargin).reverse.takeWhile isMargin).reverse, ?_,
    List.all_eq_true.1 List.all_takeWhile, fun c hc => ?_⟩
  · rw [trim, List.append_assoc, ← List.reverse_append, List.takeWhile_append_dropWhile,
      List.reverse_reverse, List.takeWhile_append_dropWhile]
  · exact List.all_eq_true.1 List.all_takeWhile c (List.mem_reverse.1 hc)

theorem trim_of_writes {left written right : List Char} (hleft : ∀ c ∈ left, isMargin c = true)
    (hright : ∀ c ∈ right, isMargin c = true) (h : Signed written k) :
    trim (left ++ written ++ right) = written := by
  obtain ⟨⟨c, rest, hfirst, hc⟩, e, init, hlast, he⟩ := h.ends
  have hstart : (left ++ written ++ right).dropWhile isMargin = written ++ right := by
    rw [hfirst, List.append_assoc, List.cons_append]
    exact dropWhile_append_of_not hleft hc
  have hend : (written ++ right).reverse.dropWhile isMargin = written.reverse := by
    rw [hlast, List.reverse_append, List.reverse_append]
    exact dropWhile_append_of_not (fun c hc => hright c (List.mem_reverse.1 hc)) he
  rw [trim, hstart, hend, List.reverse_reverse]

/-- An integer is read from exactly the texts that write it. -/
theorem read?_eq_some_iff {s : String} : read? s = some k ↔ Writes s.toList k := by
  show signed (trim s.toList) = some k ↔ _
  rw [signed_eq_some_iff]
  refine ⟨fun h => ?_, ?_⟩
  · obtain ⟨left, right, hcs, hleft, hright⟩ := exists_trim s.toList
    exact ⟨left, _, right, hcs, hleft, hright, h⟩
  · rintro ⟨left, written, right, hcs, hleft, hright, h⟩
    rw [hcs, trim_of_writes hleft hright h]
    exact h

example : read? "\t+1_000 " = some 1000 ∧ read? "1__0" = none := by decide +kernel

theorem Writes.unique {k' : Int} (h : Writes cs k) (h' : Writes cs k') : k = k' := by
  obtain ⟨s, rfl⟩ : ∃ s : String, s.toList = cs := ⟨String.ofList cs, String.toList_ofList⟩
  exact Option.some.inj ((read?_eq_some_iff.2 h).symm.trans (read?_eq_some_iff.2 h'))

/-- The empty text writes no integer. -/
theorem not_writes_nil : ¬ Writes [] k := by
  rintro ⟨left, written, right, hcs, -, -, h⟩
  obtain ⟨⟨c, rest, rfl, -⟩, -⟩ := h.ends
  simp at hcs

end Asm65816.Text.Integer
