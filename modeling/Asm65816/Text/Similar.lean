/-!
# Similar words

Two words are the more alike the more characters they share in order. The longest piece that occurs
in both counts in full, and so do the longest pieces before it and after it, again and again
(`shared`). `closest` picks the words that share at least three tenths of the characters of both.
-/

namespace Asm65816.Text

/-- The length of the longest common start. -/
def commonStart : List Char → List Char → Nat
  | a :: as, b :: bs => if a = b then commonStart as bs + 1 else 0
  | _, _ => 0

/-- The longest common piece with a given start in the first word: its start in the second word and
its length. Of equally long ones the earliest counts. -/
def longestFrom (as : List Char) : Nat → List Char → Nat × Nat
  | start, [] => (start, 0)
  | start, b :: bs =>
    let here := commonStart as (b :: bs)
    let later := longestFrom as (start + 1) bs
    if later.2 ≤ here then (start, here) else later

/-- The longest common piece: its starts in both words and its length. Of equally long ones the
earliest in the first word counts, then the earliest in the second. -/
def longestPiece (bs : List Char) : Nat → List Char → Nat × Nat × Nat
  | start, [] => (start, 0, 0)
  | start, a :: as =>
    let (j, here) := longestFrom (a :: as) 0 bs
    let later := longestPiece bs (start + 1) as
    if later.2.2 ≤ here then (start, j, here) else later

/-- How many characters two words share in order, for words of at most `size` characters. -/
def sharedUpTo : Nat → List Char → List Char → Nat
  | 0, _, _ => 0
  | size + 1, as, bs =>
    let (i, j, n) := longestPiece bs 0 as
    if n = 0 then 0
    else
      sharedUpTo size (as.take i) (bs.take j) + n
        + sharedUpTo size (as.drop (i + n)) (bs.drop (j + n))

/-- How many characters two words share in order. -/
def shared (as bs : List Char) : Nat := sharedUpTo as.length as bs

/-- Whether `a`'s likeness to `word` is above that of `b`: the greater share, then the greater
word. -/
def moreLike (word a b : String) : Bool :=
  let share (s : String) := shared s.toList word.toList
  let size (s : String) := s.length + word.length
  let left := share a * size b
  let right := share b * size a
  right < left || (right = left && b ≤ a)

/-- The three candidates most like a word, of those that are like it at all, the best one first. -/
def closest (word : String) (candidates : List String) : List String :=
  let like := candidates.filter fun s =>
    3 * (s.length + word.length) ≤ 10 * shared s.toList word.toList
  (like.mergeSort (moreLike word)).take 3

end Asm65816.Text
