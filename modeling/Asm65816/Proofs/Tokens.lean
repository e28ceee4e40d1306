import Asm65816.Proofs.Numerals
import Asm65816.Proofs.Reading

/-!
# What tokens read

The texts of the words of the assembler, said without the rules that read them: identifiers
(`Text.isIdentifier`), runs of digits (`Text.Radix.Digits`) and the runs of markers that relative
labels are written as. Each rule of `Asm65816.Token` matches exactly such a text, as long as it is
not followed by more of the same run.
-/

namespace Asm65816

namespace Text

/-- Whether a text is an identifier: a character that begins one, then characters that go on. -/
def isIdentifier : List Char → Bool
  | [] => false
  | c :: rest => isIdentifierStart c && rest.all isIdentifierPart

/-- The text is a run of digits. -/
def Radix.Digits (r : Radix) (ds : List Char) : Prop := ds ≠ [] ∧ ∀ d ∈ ds, r.isDigit d = true

instance (r : Radix) (ds : List Char) : Decidable (r.Digits ds) :=
  decidable_of_iff ((!ds.isEmpty && ds.all r.isDigit) = true) (by
    rw [Radix.Digits, Bool.and_eq_true, List.all_eq_true, Bool.not_eq_true',
      List.isEmpty_eq_false_iff])

/-- An identifier is its first character and the others. -/
theorem isIdentifier_iff {cs : List Char} : isIdentifier cs = true ↔ ∃ c rest, cs = c :: rest ∧
    isIdentifierStart c = true ∧ ∀ d ∈ rest, isIdentifierPart d = true := by
  cases cs with
  | nil => simp [isIdentifier]
  | cons c rest =>
    rw [isIdentifier, Bool.and_eq_true, List.all_eq_true]
    constructor
    · intro h
      exact ⟨c, rest, rfl, h⟩
    · rintro ⟨_, _, ⟨⟩, h⟩
      exact h

/-! ## Classes of characters -/

/-- A character of some kind is none of those that are not of the kind. -/
theorem not_contains_of_any {chars : List Char} {p : Char → Bool} {c : Char}
    (hp : chars.any p = false) (h : p c = true) : (!chars.contains c) = true := by
  rw [List.any_eq_false] at hp
  rw [Bool.not_eq_true', List.contains_eq_mem, decide_eq_false_iff_not]
  exact fun hmem => hp c hmem h

/-- An identifier holds none of the characters that neither begin one nor go on. -/
theorem not_contains_of_isIdentifier {chars cs : List Char}
    (hstart : chars.any isIdentifierStart = false) (hpart : chars.any isIdentifierPart = false)
    (h : isIdentifier cs = true) : ∀ c ∈ cs, (!chars.contains c) = true := by
  obtain ⟨c, rest, rfl, hs, hp⟩ := isIdentifier_iff.1 h
  intro d hd
  rcases List.mem_cons.1 hd with rfl | hd
  · exact not_contains_of_any hstart hs
  · exact not_contains_of_any hpart (hp d hd)

/-- Below the letters only `!` begins an identifier. -/
theorem isIdentifierStart_of_lt {c : Char} (h : c.toNat < 65) (hne : c ≠ '!') :
    isIdentifierStart c = false := by
  have hu : c ≠ '_' := by
    rintro rfl
    exact absurd h (by decide)
  rw [isIdentifierStart, identifierStartRanges, Ranges.covers, if_pos h]
  simp [hne, hu]

/-- A digit does not begin an identifier. -/
theorem isDigit_of_isIdentifierStart {c : Char} (h : isIdentifierStart c = true) :
    Radix.decimal.isDigit c = false := by
  refine Bool.eq_false_iff.2 fun hd => ?_
  have h9 : '9'.toNat = 57 := rfl
  have hlt : c.toNat < 65 := by
    simp only [Radix.isDigit, Radix.digitValue?] at hd
    split at hd
    · omega
    · cases hd
  have hne : c ≠ '!' := by
    rintro rfl
    exact absurd hd (by decide)
  rw [isIdentifierStart_of_lt hlt hne] at h
  cases h

theorem isDigit_of_isBlank (r : Radix) {c : Char} (h : isBlank c = true) : r.isDigit c = false := by
  simp only [isBlank, blanks, List.contains_cons, List.contains_nil, Bool.or_false,
    Bool.or_eq_true, beq_iff_eq] at h
  cases r <;> rcases h with rfl | rfl | rfl | rfl | rfl | rfl <;> decide

theorem Radix.Digits.avoids_blank {r : Radix} {ds : List Char} (h : r.Digits ds)
    (rest : List Char) : Avoids isBlank (ds ++ rest) := by
  refine (avoids_append h.1).2 fun c hc => Bool.eq_false_iff.2 fun hb => ?_
  have hd := h.2 c (List.mem_of_mem_head? hc)
  rw [isDigit_of_isBlank r hb] at hd
  cases hd

end Text

namespace Label

/-- The character whose runs stand for relative labels of this offset. -/
def marker (offset : Int) : Char := if 0 < offset then '+' else '-'

/-- The run of markers that stands for a relative label. -/
def markers (offset : Int) : List Char := List.replicate offset.natAbs (marker offset)

theorem marker_eq (k : Int) : marker k = '+' ∨ marker k = '-' := by
  rw [marker]
  split
  · exact .inl rfl
  · exact .inr rfl

theorem markers_eq_cons {k : Int} (hk : k ≠ 0) : ∃ rest, markers k = marker k :: rest := by
  obtain ⟨j, hj⟩ : ∃ j, k.natAbs = j + 1 := ⟨k.natAbs - 1, by omega⟩
  exact ⟨List.replicate j (marker k), by rw [markers, hj, List.replicate_succ]⟩

theorem getLast?_markers {k : Int} (hk : k ≠ 0) : (markers k).getLast? = some (marker k) := by
  rw [markers, List.getLast?_replicate, if_neg (by omega)]

end Label

namespace Token

open Text (Radix Blanks Avoids isIdentifier isIdentifierPart isIdentifierStart)

variable {c d : Cursor}

/-! ## Identifiers -/

/-- An identifier is read whole. -/
theorem run_identifier_eq_ok {name : String} : identifier.run c = .ok (name, d) ↔
    isIdentifier name.toList = true ∧ c.Reads name.toList d ∧ Avoids isIdentifierPart d.rest := by
  rw [Text.isIdentifier_iff]
  simp only [identifier]
  constructor
  · intro h
    split at h
    · cases h
    · next ch rest hc =>
      split at h
      · next hs =>
        cases h
        rw [String.toList_ofList]
        have hadv : (c.advance 1).rest = rest := by simp [Cursor.advance, hc]
        have hr := (Cursor.reads_advance_one (Cursor.peek?_eq_some.2 ⟨rest, hc⟩)).append
          ((c.advance 1).reads_skipWhile isIdentifierPart)
        rw [hadv] at hr
        exact ⟨⟨ch, _, rfl, hs, List.all_eq_true.1 List.all_takeWhile⟩, hr,
          Text.avoids_dropWhile _ _⟩
      · cases h
  · rintro ⟨⟨ch, rest, hn, hs, hp⟩, hr, ha⟩
    rw [hn] at hr
    obtain ⟨hpk, hr'⟩ := Cursor.reads_cons.1 hr
    obtain ⟨htake, hskip⟩ := hr'.skipWhile hp ha
    obtain ⟨more, hc⟩ := Cursor.peek?_eq_some.1 hpk
    have hadv : (c.advance 1).rest = more := by simp [Cursor.advance, hc]
    rw [hadv] at htake
    simp only [hc, hs, if_true, htake, hskip, ← hn, String.ofList_toList]

theorem refuses_identifier (h : Avoids isIdentifierStart c.rest) : identifier.Refuses c := by
  simp only [Rule.Refuses, identifier]
  cases hc : c.rest with
  | nil => exact ⟨_, rfl, rfl⟩
  | cons ch rest =>
    rw [hc, Text.avoids_cons] at h
    simp only [h]
    exact ⟨_, rfl, rfl⟩

/-! ## Numbers -/

/-- A run of digits is read whole, as the number that it spells. -/
theorem run_digits_eq_ok {r : Radix} {w : List Char → Width} {literal : List Char → List Char}
    {offset : Nat} {missing : Failure} {n : Number} :
    (match c.rest.takeWhile r.isDigit with
      | [] => .error missing
      | digits =>
        match number r digits (w digits) (literal digits) offset with
        | .ok n => .ok (n, c.skipWhile r.isDigit)
        | .error f => .error f) = Except.ok (n, d) ↔
      ∃ ds, r.Digits ds ∧ n.value = r.value ds ∧ n.width = w ds ∧ c.Reads ds d ∧
        Avoids r.isDigit d.rest := by
  constructor
  · intro h
    split at h
    · cases h
    · next hne =>
      split at h
      · next m hm =>
        cases h
        have hall : ∀ ch ∈ c.rest.takeWhile r.isDigit, r.isDigit ch = true :=
          List.all_eq_true.1 List.all_takeWhile
        obtain ⟨hv, hw⟩ := (number_eq_ok hall).1 hm
        exact ⟨_, ⟨hne, hall⟩, hv, hw, c.reads_skipWhile _, Text.avoids_dropWhile _ _⟩
      · cases h
  · rintro ⟨ds, ⟨hne, hall⟩, hv, hw, hr, ha⟩
    obtain ⟨htake, hskip⟩ := hr.skipWhile hall ha
    obtain ⟨e, es, rfl⟩ := List.exists_cons_of_ne_nil hne
    rw [htake]
    simp only [(number_eq_ok hall).2 ⟨hv, hw⟩, hskip]

/-- A decimal number is a run of digits. -/
theorem run_decimal_eq_ok {n : Number} : decimal.run c = .ok (n, d) ↔
    ∃ ds, Radix.decimal.Digits ds ∧ n.value = Radix.decimal.value ds ∧ n.width = .unsized ∧
      c.Reads ds d ∧ Avoids Radix.decimal.isDigit d.rest :=
  run_digits_eq_ok (w := fun _ => .unsized)

theorem refuses_decimal (h : Avoids Radix.decimal.isDigit c.rest) : decimal.Refuses c := by
  have htake : c.rest.takeWhile Radix.decimal.isDigit = [] :=
    (c.reads_nil.skipWhile (by simp) h).1
  exact ⟨_, by simp only [decimal, htake]; rfl, rfl⟩

theorem run_hexadecimalDigits_eq_ok {start : Nat} {n : Number} :
    (hexadecimalDigits start).run c = .ok (n, d) ↔
      ∃ ds, Radix.hexadecimal.Digits ds ∧ n.value = Radix.hexadecimal.value ds ∧
        n.width = .ofDigitCount ds.length ∧ c.Reads ds d ∧
        Avoids Radix.hexadecimal.isDigit d.rest :=
  run_digits_eq_ok (w := fun digits => .ofDigitCount digits.length)

/-- A hexadecimal number is `$`, blanks and a run of digits, whose count gives the width. -/
theorem run_hexadecimal_eq_ok {n : Number} : hexadecimal.run c = .ok (n, d) ↔
    ∃ b ds, Blanks b ∧ Radix.hexadecimal.Digits ds ∧ n.value = Radix.hexadecimal.value ds ∧
      n.width = .ofDigitCount ds.length ∧ c.Reads ('$' :: b ++ ds) d ∧
      Avoids Radix.hexadecimal.isDigit d.rest := by
  rw [hexadecimal, Rule.run_cursor_bind, Rule.run_bind_eq_ok]
  constructor
  · rintro ⟨ch, m, h1, h2⟩
    obtain ⟨hch, h1⟩ := Rule.run_char_eq_ok.1 h1
    obtain rfl := List.mem_singleton.1 hch
    rw [Rule.run_skipBlank_bind, run_hexadecimalDigits_eq_ok] at h2
    obtain ⟨ds, hds, hv, hw, h2, ha⟩ := h2
    obtain ⟨b, hb, hskip⟩ := m.exists_blanks
    exact ⟨b, ds, hb, hds, hv, hw, (h1.append hskip).append h2, ha⟩
  · rintro ⟨b, ds, hb, hds, hv, hw, hr, ha⟩
    obtain ⟨m', hr, h2⟩ := Cursor.reads_append.1 hr
    obtain ⟨m, h1, hr⟩ := Cursor.reads_append (s := ['$']).1 hr
    have hset : m'.Settled := by
      rw [Cursor.Settled, h2.1]
      exact hds.avoids_blank _
    refine ⟨'$', m, Rule.run_char_eq_ok.2 ⟨List.mem_singleton_self _, h1⟩, ?_⟩
    rw [Rule.run_skipBlank_bind, Cursor.skipBlank_eq_iff.2 ⟨hset, b, hb, hr⟩,
      run_hexadecimalDigits_eq_ok]
    exact ⟨ds, hds, hv, hw, h2, ha⟩

theorem refuses_hexadecimal (h : Avoids (['$'].contains) c.rest) : hexadecimal.Refuses c :=
  Rule.refuses_bind (a := c) rfl ((Rule.refuses_char (fun _ _ => rfl) h).bind _)

/-! ## Relative labels -/

/-- A run of one character is told by its length. -/
theorem takeWhile_eq_replicate (m : Char) (cs : List Char) :
    cs.takeWhile (· = m) = List.replicate (cs.takeWhile (· = m)).length m := by
  refine List.eq_replicate_of_mem fun x hx => ?_
  simpa using List.all_eq_true.1 List.all_takeWhile x hx

/-- The run of a marker after its first character, as `relativeLabel` takes it. -/
theorem reads_markers {m : Char} {rest : List Char} (hc : c.rest = m :: rest) :
    c.Reads (List.replicate ((rest.takeWhile (· = m)).length + 1) m)
      ((c.advance 1).skipWhile (· = m)) := by
  have hadv : (c.advance 1).rest = rest := by simp [Cursor.advance, hc]
  rw [List.replicate_succ, ← takeWhile_eq_replicate, ← hadv]
  exact (Cursor.reads_advance_one (Cursor.peek?_eq_some.2 ⟨rest, hc⟩)).append
    (Cursor.reads_skipWhile _ _)

/-- A relative label is a whole run of its marker, as long as the offset is large. -/
theorem run_relativeLabel_eq_ok {l : Label} : relativeLabel.run c = .ok (l, d) ↔
    ∃ k hk, l = .relative k hk ∧ c.Reads (Label.markers k) d ∧
      Avoids (· = Label.marker k) d.rest := by
  simp only [relativeLabel]
  constructor
  · intro h
    split at h
    · next rest hc =>
      cases h
      refine ⟨_, by omega, rfl, ?_, ?_⟩
      · rw [Label.markers, Label.marker, if_pos (by omega)]
        exact reads_markers hc
      · rw [Label.marker, if_pos (by omega)]
        exact Text.avoids_dropWhile _ _
    · next rest hc =>
      cases h
      refine ⟨_, by omega, rfl, ?_, ?_⟩
      · rw [Label.markers, Label.marker, if_neg (by omega), Int.natAbs_neg]
        exact reads_markers hc
      · rw [Label.marker, if_neg (by omega)]
        exact Text.avoids_dropWhile _ _
    · cases h
  · rintro ⟨k, hk, rfl, hr, ha⟩
    obtain ⟨j, hj⟩ : ∃ j, k.natAbs = j + 1 := ⟨k.natAbs - 1, by omega⟩
    have hr' := hr
    rw [Label.markers, hj, List.replicate_succ, Cursor.reads_cons] at hr'
    obtain ⟨hpk, hr'⟩ := hr'
    obtain ⟨rest, hc⟩ := Cursor.peek?_eq_some.1 hpk
    have hadv : (c.advance 1).rest = rest := by simp [Cursor.advance, hc]
    obtain ⟨htake, hskip⟩ := hr'.skipWhile (by simp) ha
    rw [hadv] at htake
    by_cases hpos : 0 < k
    · rw [Label.marker, if_pos hpos] at hc htake hskip
      simp only [hc, htake, hskip, List.length_replicate, Except.ok.injEq, Prod.mk.injEq,
        Label.relative.injEq, and_true]
      omega
    · rw [Label.marker, if_neg hpos] at hc htake hskip
      simp only [hc, htake, hskip, List.length_replicate, Except.ok.injEq, Prod.mk.injEq,
        Label.relative.injEq, and_true]
      omega

/-! ## First characters -/

/-- Where an identifier is read its first character stands. -/
theorem peek?_of_identifier {name : String} (h : identifier.run c = .ok (name, d)) :
    ∃ ch, c.peek? = some ch ∧ isIdentifierStart ch = true := by
  obtain ⟨hn, hr, -⟩ := run_identifier_eq_ok.1 h
  obtain ⟨ch, rest, hcs, hs, -⟩ := Text.isIdentifier_iff.1 hn
  rw [hcs] at hr
  exact ⟨ch, (Cursor.reads_cons.1 hr).1, hs⟩

/-- A marker begins no identifier. -/
theorem not_marker_of_identifier {name : String} (h : identifier.run c = .ok (name, d)) :
    ¬ (c.peek? = some '+' ∨ c.peek? = some '-') := by
  obtain ⟨ch, hpk, hs⟩ := peek?_of_identifier h
  rw [hpk]
  rintro (hm | hm)
  · cases hm
    cases hs
  · cases hm
    cases hs

/-- A relative label begins with a marker. -/
theorem marker_of_relativeLabel {l : Label} (h : relativeLabel.run c = .ok (l, d)) :
    c.peek? = some '+' ∨ c.peek? = some '-' := by
  obtain ⟨k, hk, -, hr, -⟩ := run_relativeLabel_eq_ok.1 h
  obtain ⟨rest, hcons⟩ := Label.markers_eq_cons hk
  rw [hcons] at hr
  rw [(Cursor.reads_cons.1 hr).1, Option.some.injEq, Option.some.injEq]
  exact Label.marker_eq k

end Token

end Asm65816
