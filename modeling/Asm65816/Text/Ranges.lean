/-!
# Sets of code points given by ranges

Character classes of Unicode are tables of closed ranges in increasing order. `Ranges.covers`
decides membership and stops at the first range that begins beyond the code point, so a class costs
little on plain text. `Ranges.covers_eq_any` says that on ordered ranges stopping loses nothing.
-/

namespace Asm65816.Text

/-- A set of code points: closed ranges in increasing order. -/
abbrev Ranges := List (Nat × Nat)

namespace Ranges

/-- Whether a code point lies in one of the ranges. -/
def covers : Ranges → Nat → Bool
  | [], _ => false
  | (low, high) :: rest, n => if n < low then false else n ≤ high || covers rest n

/-- Whether every range begins beyond `bound` and beyond the ranges before it. -/
def orderedFrom (bound : Nat) : Ranges → Bool
  | [] => true
  | (low, high) :: rest => bound ≤ low && low ≤ high && orderedFrom (high + 1) rest

/-- Ranges beyond a bound hold nothing below it. -/
theorem any_eq_false_of_lt {bound n : Nat} {rs : Ranges} (h : rs.orderedFrom bound = true)
    (hn : n < bound) : (rs.any fun r => r.1 ≤ n && n ≤ r.2) = false := by
  induction rs generalizing bound with
  | nil => rfl
  | cons r rest ih =>
    simp only [orderedFrom, Bool.and_eq_true, decide_eq_true_eq] at h
    rw [List.any_cons, ih h.2 (by omega), Bool.or_false, decide_eq_false (by omega),
      Bool.false_and]

/-- On ordered ranges membership is what it says: one of the ranges has the code point. -/
theorem covers_eq_any {bound : Nat} {rs : Ranges} (h : rs.orderedFrom bound = true) (n : Nat) :
    rs.covers n = rs.any fun r => r.1 ≤ n && n ≤ r.2 := by
  induction rs generalizing bound with
  | nil => rfl
  | cons r rest ih =>
    simp only [orderedFrom, Bool.and_eq_true, decide_eq_true_eq] at h
    rw [covers, List.any_cons]
    split
    · next hn =>
      rw [any_eq_false_of_lt h.2 (by omega), decide_eq_false (by omega), Bool.false_and,
        Bool.or_false]
    · next hn => rw [ih h.2, decide_eq_true (by omega : r.1 ≤ n), Bool.true_and]

end Ranges

end Asm65816.Text
