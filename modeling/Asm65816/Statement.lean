import Asm65816.Instruction

/-!
# Statements

The tree of a statement and its normal form, which takes one line but for conditionals.
-/

namespace Asm65816

mutual
/-- A statement. The grammar reads all but conditionals, which are for trees put together by
hand. -/
inductive Statement where
  | label (l : Label)
  | instruction (i : Instruction)
  | org (address : Expr)
  | assignment (name : String) (value : Expr)
  | conditional (branches : List Branch)

/-- A branch of a conditional; the final `else` has no predicate. -/
inductive Branch where
  | mk (predicate : Option Expr) (body : List Statement)
end

namespace Statement

/-- The kind of a statement in listings. -/
def kind : Statement → String
  | label _ => "Label"
  | instruction _ => "Opcode"
  | org _ => "Keyword"
  | assignment .. => "Assignment"
  | conditional _ => "If"

/-- Whether a statement declares a label. -/
def isLabel : Statement → Bool
  | label _ => true
  | _ => false

/-! ## Equality -/

mutual
/-- Equality of statements is decided node by node. -/
def decEq : (a b : Statement) → Decidable (a = b)
  | .label l, .label m => if h : l = m then .isTrue (by rw [h]) else .isFalse (by simp [h])
  | .instruction i, .instruction j =>
    if h : i = j then .isTrue (by rw [h]) else .isFalse (by simp [h])
  | .org a, .org b => if h : a = b then .isTrue (by rw [h]) else .isFalse (by simp [h])
  | .assignment n a, .assignment m b =>
    if h : n = m ∧ a = b then .isTrue (by rw [h.1, h.2]) else .isFalse (by simpa using h)
  | .conditional bs, .conditional cs =>
    match decEqBranches bs cs with
    | .isTrue h => .isTrue (by rw [h])
    | .isFalse h => .isFalse (by simp [h])
  | .label _, .instruction _ | .label _, .org _ | .label _, .assignment ..
  | .label _, .conditional _ | .instruction _, .label _ | .instruction _, .org _
  | .instruction _, .assignment .. | .instruction _, .conditional _ | .org _, .label _
  | .org _, .instruction _ | .org _, .assignment .. | .org _, .conditional _
  | .assignment .., .label _ | .assignment .., .instruction _ | .assignment .., .org _
  | .assignment .., .conditional _ | .conditional _, .label _ | .conditional _, .instruction _
  | .conditional _, .org _ | .conditional _, .assignment .. => .isFalse (by simp)

/-- Equality of the bodies of two branches, as `decEq`. -/
def decEqBody : (as bs : List Statement) → Decidable (as = bs)
  | [], [] => .isTrue rfl
  | [], _ :: _ | _ :: _, [] => .isFalse (by simp)
  | a :: as, b :: bs =>
    match decEq a b, decEqBody as bs with
    | .isTrue h, .isTrue hs => .isTrue (by rw [h, hs])
    | .isFalse h, _ => .isFalse (by simp [h])
    | _, .isFalse hs => .isFalse (by simp [hs])

/-- Equality of lists of branches, as `decEq`. -/
def decEqBranches : (as bs : List Branch) → Decidable (as = bs)
  | [], [] => .isTrue rfl
  | [], _ :: _ | _ :: _, [] => .isFalse (by simp)
  | .mk p as :: bs, .mk q cs :: ds =>
    if h : p = q then
      match decEqBody as cs, decEqBranches bs ds with
      | .isTrue ha, .isTrue hb => .isTrue (by rw [h, ha, hb])
      | .isFalse ha, _ => .isFalse (by simp [ha])
      | _, .isFalse hb => .isFalse (by simp [hb])
    else .isFalse (by simp [h])
end

instance : DecidableEq Statement := decEq

/-! ## Normal form -/

mutual
/-- The normal form of a statement. A conditional takes a line for each branch, one for each of its
statements and a last one. -/
def chars : Statement → List Char
  | .label (.named name) => name.toList ++ [':']
  | .label l => l.chars
  | .instruction i => i.chars
  | .org address => 'o' :: 'r' :: 'g' :: ' ' :: address.chars
  | .assignment name value => name.toList ++ ' ' :: '=' :: ' ' :: value.chars
  | .conditional branches => charsOfBranches "if ".toList branches ++ "endif".toList

/-- The lines of branches; `opening` stands before the predicate of the first. -/
def charsOfBranches (opening : List Char) : List Branch → List Char
  | [] => []
  | .mk predicate body :: rest =>
    (match predicate with
      | none => "else".toList
      | some predicate => opening ++ predicate.chars)
    ++ '\n' :: charsOfBody body ++ charsOfBranches "elseif ".toList rest

/-- The lines of a branch's statements, each set in by four spaces. -/
def charsOfBody : List Statement → List Char
  | [] => []
  | s :: rest => ' ' :: ' ' :: ' ' :: ' ' :: s.chars ++ '\n' :: charsOfBody rest
end

/-- The normal form of a statement. -/
def render (s : Statement) : String := String.ofList s.chars

end Statement

end Asm65816
