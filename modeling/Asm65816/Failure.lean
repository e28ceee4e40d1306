import Asm65816.Text.Numeral
import Asm65816.Text.Quoted

/-!
# Failures

Why a rule of the grammar did not match, and where. A failure is a `leaf` with one cause, or the
`exhausted` failure of an ordered choice, which keeps the failure of each alternative. Of those the
one that got furthest into the text (`furthest?`) names the real problem most often, so the
`deepest` failure below a choice gives the choice its hint.

A failure is fatal when no other alternative is to be tried: a number too large, nesting too deep,
or a call that is committed to its argument list.
-/

namespace Asm65816

/-- What a rule found wrong. -/
inductive Reason where
  /-- Something was expected. -/
  | expected (what : String)
  /-- Something was expected where `found` stands, the end of the text if `none`. -/
  | missing (what : String) (found : Option Char)
  | notKeyword (name : String)
  /-- A relative label is followed by more of a statement. -/
  | labelNotAlone
  /-- An operator follows a closing parenthesis. -/
  | groupContinues
  | malformedArguments (callee : String)
  /-- Text is left over after a statement. -/
  | trailing (text : String)
  /-- A reason in a caller's own words. -/
  | given (message : String)
  deriving DecidableEq, Repr

/-- The reason in words. -/
def Reason.message : Reason → String
  | expected what => s!"expected {what}"
  | missing what none => s!"expected {what}, found end of input"
  | missing what (some c) =>
    let found := Text.Quoted.text (String.singleton c)
    s!"expected {what}, found {found}"
  | notKeyword name => s!"'{name}' is not a keyword"
  | labelNotAlone => "relative label declaration must stand alone"
  | groupContinues => "parenthesised value continues as an expression"
  | malformedArguments callee => s!"malformed argument list in call to '{callee}'"
  | trailing text => s!"unexpected '{text}' after statement"
  | given message => message

/-- The cause of a failure that is no choice. -/
inductive Cause where
  /-- A failure of no particular kind. -/
  | general (reason : Reason)
  /-- The text does not begin with the token of the rule. -/
  | lexical (reason : Reason)
  /-- A rule began to match and did not go on; `committed` if nothing else is to be tried. -/
  | mismatch (reason : Reason) (committed : Bool)
  /-- A number that does not fit in 32 bits. -/
  | overflow (literal : String)
  /-- Nesting beyond the limit. -/
  | tooDeep (limit : Int)
  deriving DecidableEq, Repr

namespace Cause

/-- The cause in words. -/
def message : Cause → String
  | general reason | lexical reason | mismatch reason _ => reason.message
  | overflow literal => s!"numeric literal '{literal}' does not fit in 32 bits"
  | tooDeep limit =>
    let limit := Text.decimalInt limit
    s!"expression nested deeper than {limit} levels"

/-- Whether the cause forbids to try another alternative. -/
def fatal : Cause → Bool
  | general _ | lexical _ => false
  | mismatch _ committed => committed
  | overflow _ | tooDeep _ => true

end Cause

/-- A failure at an offset into the text, with a hint to the reader. -/
inductive Failure where
  | leaf (cause : Cause) (offset : Int) (hint : Option String)
  /-- Every alternative of a choice that began at `offset` failed. -/
  | exhausted (reason : Reason) (offset : Int) (hint : Option String) (failures : List Failure)

namespace Failure

mutual
/-- Equality of failures is decided node by node. -/
def decEq : (a b : Failure) → Decidable (a = b)
  | leaf c o h, leaf d p k =>
    if e : c = d ∧ o = p ∧ h = k then .isTrue (by rw [e.1, e.2.1, e.2.2])
    else .isFalse (by simpa using e)
  | exhausted r o h fs, exhausted s p k gs =>
    if e : r = s ∧ o = p ∧ h = k then
      match decEqList fs gs with
      | .isTrue efs => .isTrue (by rw [e.1, e.2.1, e.2.2, efs])
      | .isFalse efs => .isFalse (by simp [efs])
    else .isFalse (by
      simp only [exhausted.injEq]
      exact fun h => e ⟨h.1, h.2.1, h.2.2.1⟩)
  | leaf .., exhausted .. | exhausted .., leaf .. => .isFalse (by simp)

/-- Equality of lists of failures, as `decEq`. -/
def decEqList : (fs gs : List Failure) → Decidable (fs = gs)
  | [], [] => .isTrue rfl
  | [], _ :: _ | _ :: _, [] => .isFalse (by simp)
  | f :: fs, g :: gs =>
    match decEq f g, decEqList fs gs with
    | .isTrue h, .isTrue hs => .isTrue (by rw [h, hs])
    | .isFalse h, _ => .isFalse (by simp [h])
    | _, .isFalse hs => .isFalse (by simp [hs])
end

instance : DecidableEq Failure := decEq

/-- Where the rule failed. -/
def offset : Failure → Int
  | leaf _ offset _ | exhausted _ offset _ _ => offset

/-- The hint, if there is one. -/
def hint : Failure → Option String
  | leaf _ _ hint | exhausted _ _ hint _ => hint

/-- The failure in words. -/
def message : Failure → String
  | leaf cause _ _ => cause.message
  | exhausted reason _ _ _ => reason.message

/-- Whether no other alternative is to be tried. -/
def fatal : Failure → Bool
  | leaf cause _ _ => cause.fatal
  | exhausted .. => false

/-- The failures of a choice's alternatives. -/
def failures : Failure → List Failure
  | leaf .. => []
  | exhausted _ _ _ failures => failures

/-- The failure that got furthest, the later one of two that got equally far. -/
def furthest? : List Failure → Option Failure
  | [] => none
  | f :: rest =>
    match furthest? rest with
    | none => some f
    | some g => if f.offset ≤ g.offset then some g else some f

mutual
/-- Follows the furthest failures through nested choices. -/
def deepest : Failure → Failure
  | leaf cause offset hint => leaf cause offset hint
  | exhausted reason offset hint failures =>
    match deepestOf failures with
    | none => exhausted reason offset hint failures
    | some (_, f) => f

/-- The offset of the furthest failure, and the deepest failure below it. -/
def deepestOf : List Failure → Option (Int × Failure)
  | [] => none
  | f :: rest =>
    match deepestOf rest with
    | none => some (f.offset, f.deepest)
    | some (offset, g) => if f.offset ≤ offset then some (offset, g) else some (f.offset, f.deepest)
end

/-- The deepest failure below a list is that of its furthest one. -/
theorem deepestOf_eq (fs : List Failure) :
    deepestOf fs = (furthest? fs).map fun f => (f.offset, f.deepest) := by
  induction fs with
  | nil => simp [deepestOf, furthest?]
  | cons f rest ih =>
    rw [deepestOf, furthest?, ih]
    cases furthest? rest with
    | none => rfl
    | some g => simp only [Option.map_some]; split <;> rfl

/-! ## Building failures -/

/-- The token of a rule is missing. -/
def lexical (reason : Reason) (offset : Int) : Failure := leaf (.lexical reason) offset none

/-- A rule that began to match does not go on. -/
def mismatch (reason : Reason) (offset : Int) : Failure :=
  leaf (.mismatch reason false) offset none

/-- A failure of no particular kind. -/
def general (reason : Reason) (offset : Int) : Failure := leaf (.general reason) offset none

/-- The hint of an overflow that brings none, or an empty one, of its own. -/
def overflowHint : String := "largest accepted value is $FFFFFFFF (4294967295)"

/-- A number does not fit in 32 bits. -/
def overflow (literal : String) (offset : Int) (hint : Option String) : Failure :=
  leaf (.overflow literal) offset
    (match hint with
      | none | some "" => some overflowHint
      | hint => hint)

/-- Nesting goes beyond the limit. -/
def tooDeep (limit offset : Int) : Failure :=
  leaf (.tooDeep limit) offset
    (some "raise max_depth (MVP_MAX_DEPTH) if the nesting is intended")

/-- Every alternative failed; the deepest failure gives the hint if none is given. -/
def ofAlternatives (reason : Reason) (offset : Int) (hint : Option String)
    (failures : List Failure) : Failure :=
  exhausted reason offset
    (match hint with
      | none => (deepestOf failures).map fun (_, f) => f.message
      | some hint => some hint)
    failures

/-- A failure inside a part of a rule, seen from the rule: the part's own words become the hint.
A fatal failure stays as it is. -/
def within (reason : Reason) (committed : Bool) (f : Failure) : Failure :=
  if f.fatal then f else leaf (.mismatch reason committed) f.offset (some f.message)

end Failure

end Asm65816
