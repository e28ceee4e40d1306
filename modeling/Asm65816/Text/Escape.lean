/-!
# Terminal sequences

What is written to a terminal may carry sequences that set colours or move the terminal's cursor: an
escape and a bracket, parameters, a letter. `stripEscapes` takes them out of a text that does not go
to a terminal.
-/

namespace Asm65816.Text

/-- Whether `c` may stand between the bracket and the letter. -/
def isParameter (c : Char) : Bool := c = ';' || c = '?' || c.isDigit

/-- What follows a sequence at the start of a text, if there is one. -/
def afterSequence? : List Char → Option (List Char)
  | '\x1b' :: '[' :: rest =>
    match rest.dropWhile isParameter with
    | c :: after => if c.isAlpha then some after else none
    | [] => none
  | _ => none

theorem length_lt_of_afterSequence? {cs after : List Char} (h : afterSequence? cs = some after) :
    after.length < cs.length := by
  unfold afterSequence? at h
  split at h
  · next rest =>
    split at h
    · next c after' hd =>
      split at h
      · cases h
        have := (List.dropWhile_suffix isParameter (l := rest)).length_le
        rw [hd] at this
        simp only [List.length_cons] at this ⊢
        omega
      · cases h
    · cases h
  · cases h

/-- Takes out the terminal sequences. -/
def stripEscapes (cs : List Char) : List Char :=
  match _h : afterSequence? cs with
  | some after => stripEscapes after
  | none =>
    match cs with
    | [] => []
    | c :: rest => c :: stripEscapes rest
termination_by cs.length
decreasing_by
  · exact length_lt_of_afterSequence? _h
  · simp

end Asm65816.Text
