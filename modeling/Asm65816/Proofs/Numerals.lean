import Mathlib.Algebra.Group.Nat.Defs
import Asm65816.Token

/-!
# The value of numerals

Positional values: what digits in front of a numeral and behind it add to its value, and the bounds
that its length gives. From these follow the two facts the rest of the theory needs. Writing a
number and taking the value of its digits gives it back (`Radix.value_numeral`), and refusing long
numerals before their value is taken refuses nothing that fits (`Token.number_eq_ok`).
-/

namespace Asm65816

namespace Text.Radix

variable {r : Radix} {ds es : List Char}

/-- The value of a digit is below the base. -/
theorem digitValue?_lt (r : Radix) {c : Char} {n : Nat} (h : r.digitValue? c = some n) :
    n < r.base := by
  simp only [digitValue?] at h
  split at h
  · next hc =>
    simp only [Option.some.injEq] at h
    have h0 : '0'.toNat = 48 := rfl
    have h9 : '9'.toNat = 57 := rfl
    have : 10 ≤ r.base := by cases r <;> decide
    omega
  · cases r with
    | decimal => cases h
    | hexadecimal =>
      have ha : 'a'.toNat = 97 := rfl
      have hf : 'f'.toNat = 102 := rfl
      have hA : 'A'.toNat = 65 := rfl
      have hF : 'F'.toNat = 70 := rfl
      dsimp only at h
      rw [base]
      split at h
      · simp only [Option.some.injEq] at h
        omega
      · split at h
        · simp only [Option.some.injEq] at h
          omega
        · cases h

theorem digitValue_lt (r : Radix) (c : Char) : (r.digitValue? c).getD 0 < r.base := by
  cases h : r.digitValue? c with
  | none => exact Nat.lt_trans Nat.zero_lt_one r.one_lt_base
  | some n => exact r.digitValue?_lt h

/-- Digits behind a numeral shift its value by as many places. -/
theorem value_append (r : Radix) (ds es : List Char) :
    r.value (ds ++ es) = r.value ds * r.base ^ es.length + r.value es := by
  have shift : ∀ (es : List Char) (n : Nat),
      es.foldl (fun n c => n * r.base + (r.digitValue? c).getD 0) n =
        n * r.base ^ es.length + r.value es := by
    intro es
    induction es with
    | nil => simp [value]
    | cons e es ih =>
      intro n
      have hcons : r.value (e :: es) =
          (r.digitValue? e).getD 0 * r.base ^ es.length + r.value es := by
        rw [value, List.foldl_cons, ih, Nat.zero_mul, Nat.zero_add]
      rw [List.foldl_cons, ih, hcons, List.length_cons, Nat.pow_succ, Nat.add_mul, Nat.add_assoc,
        Nat.mul_assoc, Nat.mul_comm r.base]
  rw [value, List.foldl_append]
  exact shift es _

theorem value_cons (r : Radix) (d : Char) (ds : List Char) :
    r.value (d :: ds) = (r.digitValue? d).getD 0 * r.base ^ ds.length + r.value ds := by
  rw [← List.singleton_append, value_append]
  simp [value]

/-- A numeral of so many places has a value below that power of the base. -/
theorem value_lt_pow (r : Radix) (ds : List Char) : r.value ds < r.base ^ ds.length := by
  induction ds with
  | nil => simp [value]
  | cons d ds ih =>
    have hd : (r.digitValue? d).getD 0 + 1 ≤ r.base := r.digitValue_lt d
    calc r.value (d :: ds)
      _ = (r.digitValue? d).getD 0 * r.base ^ ds.length + r.value ds := r.value_cons d ds
      _ < (r.digitValue? d).getD 0 * r.base ^ ds.length + r.base ^ ds.length := by omega
      _ = ((r.digitValue? d).getD 0 + 1) * r.base ^ ds.length := by rw [Nat.succ_mul]
      _ ≤ r.base * r.base ^ ds.length := Nat.mul_le_mul_right _ hd
      _ = r.base ^ (d :: ds).length := by rw [List.length_cons, Nat.pow_succ, Nat.mul_comm]

/-- Zeros in front of a numeral do not count. -/
theorem value_dropWhile_zero (r : Radix) (ds : List Char) :
    r.value (ds.dropWhile (· = '0')) = r.value ds := by
  induction ds with
  | nil => rfl
  | cons d ds ih =>
    by_cases hd : d = '0'
    · subst hd
      have h0 : (r.digitValue? '0').getD 0 = 0 := by cases r <;> rfl
      rw [List.dropWhile_cons_of_pos (by simp), ih, value_cons, h0, Nat.zero_mul, Nat.zero_add]
    · rw [List.dropWhile_cons_of_neg (by simpa using hd)]

/-- Only the digit zero has the value zero. -/
theorem eq_zero_of_digitValue? {r : Radix} {c : Char} (h : r.digitValue? c = some 0) :
    c = '0' := by
  have h0 : '0'.toNat = 48 := rfl
  simp only [digitValue?] at h
  split at h
  · next hc =>
    simp only [Option.some.injEq] at h
    exact Char.toNat_inj.1 (by omega)
  · cases r with
    | decimal => cases h
    | hexadecimal =>
      dsimp only at h
      split at h
      · simp at h
      · split at h <;> simp at h

/-- A numeral without zeros in front reaches the power of the base one below its length. -/
theorem pow_le_value {d : Char} (hd : r.isDigit d = true) (h0 : d ≠ '0') (ds : List Char) :
    r.base ^ ds.length ≤ r.value (d :: ds) := by
  obtain ⟨n, hn⟩ := Option.isSome_iff_exists.1 hd
  have hpos : 1 ≤ n := by
    refine Nat.one_le_iff_ne_zero.2 ?_
    rintro rfl
    exact h0 (eq_zero_of_digitValue? hn)
  rw [value_cons, hn, Option.getD_some]
  have := Nat.mul_le_mul_right (r.base ^ ds.length) hpos
  omega

/-! ## Written numerals -/

theorem digitValue?_digit (r : Radix) {n : Nat} (h : n < r.base) :
    r.digitValue? (digit n) = some n := by
  cases r with
  | decimal => exact (by decide : ∀ n < 10, decimal.digitValue? (digit n) = some n) n h
  | hexadecimal => exact (by decide : ∀ n < 16, hexadecimal.digitValue? (digit n) = some n) n h

theorem isDigit_digit (r : Radix) {n : Nat} (h : n < r.base) : r.isDigit (digit n) = true := by
  rw [isDigit, r.digitValue?_digit h]
  rfl

/-- A written numeral is made of digits. -/
theorem isDigit_numeral (r : Radix) (n : Nat) : ∀ c ∈ r.numeral n, r.isDigit c = true := by
  fun_induction numeral r n with
  | case1 n h =>
    intro c hc
    rw [List.mem_singleton.1 hc]
    exact r.isDigit_digit h
  | case2 n h ih =>
    intro c hc
    rcases List.mem_append.1 hc with hc | hc
    · exact ih c hc
    · rw [List.mem_singleton.1 hc]
      exact r.isDigit_digit (Nat.mod_lt _ (Nat.lt_trans Nat.zero_lt_one r.one_lt_base))

/-- The value of a written numeral is the number it was written for. -/
theorem value_numeral (r : Radix) (n : Nat) : r.value (r.numeral n) = n := by
  fun_induction numeral r n with
  | case1 n h => simp [value, r.digitValue?_digit h]
  | case2 n h ih =>
    have hm := Nat.mod_lt n (Nat.lt_trans Nat.zero_lt_one r.one_lt_base)
    rw [value_append, ih]
    simp only [value, List.foldl_cons, List.foldl_nil, r.digitValue?_digit hm, Option.getD_some,
      List.length_cons, List.length_nil, Nat.zero_mul, Nat.zero_add, Nat.pow_one]
    exact Nat.div_add_mod' n r.base

theorem numeral_ne_nil (r : Radix) (n : Nat) : r.numeral n ≠ [] := by
  rw [numeral]
  split <;> simp

/-- A number below a power of the base is written with as many digits at most. -/
theorem length_numeral_le (r : Radix) {n k : Nat} (h : n < r.base ^ (k + 1)) :
    (r.numeral n).length ≤ k + 1 := by
  fun_induction numeral r n generalizing k with
  | case1 n _ => simp
  | case2 n hn ih =>
    rw [List.length_append, List.length_singleton]
    cases k with
    | zero => exact absurd (by simpa using h) hn
    | succ k =>
      refine Nat.succ_le_succ (ih ?_)
      rw [Nat.pow_succ] at h
      exact Nat.div_lt_of_lt_mul (by rwa [Nat.mul_comm])

/-- Zeros in front of a written numeral leave its value. -/
theorem value_zeroPadded (r : Radix) (width n : Nat) :
    r.value (zeroPadded width (r.numeral n)) = n := by
  have zeros : ∀ k, r.value (List.replicate k '0') = 0 := by
    intro k
    have h0 : (r.digitValue? '0').getD 0 = 0 := by cases r <;> rfl
    induction k with
    | zero => rfl
    | succ k ih => rw [List.replicate_succ, value_cons, ih, h0, Nat.zero_mul]
  rw [zeroPadded, value_append, zeros, Nat.zero_mul, Nat.zero_add, value_numeral]

theorem isDigit_zeroPadded (r : Radix) (width n : Nat) :
    ∀ c ∈ zeroPadded width (r.numeral n), r.isDigit c = true := by
  intro c hc
  rcases List.mem_append.1 hc with hc | hc
  · rw [List.eq_of_mem_replicate hc]
    cases r <;> rfl
  · exact r.isDigit_numeral n c hc

/-- A number that fits is written with exactly as many digits as are asked for. -/
theorem length_zeroPadded (r : Radix) {width n : Nat} (h : n < r.base ^ (width + 1)) :
    (zeroPadded (width + 1) (r.numeral n)).length = width + 1 := by
  have := r.length_numeral_le h
  rw [zeroPadded, List.length_append, List.length_replicate]
  omega

end Text.Radix

/-! ## Reading a number -/

namespace Token

open Text (Radix)

theorem largest_lt_pow (r : Radix) : Number.largest < r.base ^ longestNumeral r := by
  cases r <;> decide

/-- A run of digits whose value fits is short, zeros in front of it apart. -/
theorem length_le_longestNumeral {r : Radix} {ds : List Char}
    (hds : ∀ d ∈ ds, r.isDigit d = true) (h : r.value ds ≤ Number.largest) :
    (ds.dropWhile (· = '0')).length ≤ longestNumeral r := by
  have hv := r.value_dropWhile_zero ds
  cases hs : ds.dropWhile (· = '0') with
  | nil => exact Nat.zero_le _
  | cons d rest =>
    rw [hs] at hv
    have hmem : d ∈ ds := List.dropWhile_sublist _ |>.mem (hs ▸ List.mem_cons_self)
    have hd0 : d ≠ '0' := by
      have := List.head?_dropWhile_not (· = '0') ds
      rw [hs] at this
      simpa using this
    have hlow := Radix.pow_le_value (hds d hmem) hd0 rest
    have hpow : r.base ^ rest.length < r.base ^ longestNumeral r :=
      Nat.lt_of_le_of_lt (Nat.le_trans hlow (hv ▸ h)) (largest_lt_pow r)
    exact (Nat.pow_lt_pow_iff_right r.one_lt_base).1 hpow

/-- A run of digits spells the number that has its value, whenever there is one. -/
theorem number_eq_ok {r : Radix} {ds : List Char} {width : Width} {literal : List Char}
    {offset : Nat} {n : Number} (hds : ∀ d ∈ ds, r.isDigit d = true) :
    number r ds width literal offset = .ok n ↔ n.value = r.value ds ∧ n.width = width := by
  constructor
  · intro h
    rw [number] at h
    split at h
    · cases h
    · split at h
      · cases h
        exact ⟨rfl, rfl⟩
      · cases h
  · rintro ⟨hv, rfl⟩
    have hle : r.value ds ≤ Number.largest := hv ▸ n.value_le
    rw [number, if_neg (Nat.not_lt.2 (length_le_longestNumeral hds hle)), dif_pos hle]
    obtain ⟨value, width, value_le⟩ := n
    cases hv
    rfl

end Token

end Asm65816
