import Asm65816.Diagnostic

/-!
# Failures as trees

A failure of a choice holds those of its alternatives, so a failure is a tree. Three notions are
used to compare failures: the kind of a failure (`Failure.kind`), the failures of a tree
(`Failure.nodes`), and a tree with all its offsets moved (`Failure.shift`). Moving changes nothing
else: the furthest of the alternatives stays the furthest, so the words that a choice takes from it
stay the same (`Failure.shift_ofAlternatives`).
-/

namespace Asm65816

/-! ## Kinds -/

/-- The kinds of failure. -/
inductive Failure.Kind where
  | general | lexical | mismatch | overflow | tooDeep | exhausted
  deriving DecidableEq, Repr

/-- The kind of a failure with this cause. -/
def Cause.kind : Cause → Failure.Kind
  | general _ => .general
  | lexical _ => .lexical
  | mismatch .. => .mismatch
  | overflow _ => .overflow
  | tooDeep _ => .tooDeep

namespace Failure

/-- The kind of a failure. -/
def kind : Failure → Kind
  | leaf cause _ _ => cause.kind
  | exhausted .. => .exhausted

/-- Nesting too deep is always fatal. -/
theorem fatal_of_kind_eq_tooDeep {f : Failure} (h : f.kind = .tooDeep) : f.fatal = true := by
  cases f with
  | leaf cause offset hint =>
    cases cause with
    | tooDeep limit => rfl
    | general | lexical | mismatch | overflow => cases h
  | exhausted => cases h

/-! ## Nodes -/

mutual
/-- A failure and all the failures below it. -/
def nodes : Failure → List Failure
  | leaf cause offset hint => [leaf cause offset hint]
  | exhausted reason offset hint failures =>
    exhausted reason offset hint failures :: nodesOf failures

/-- The nodes of several failures. -/
def nodesOf : List Failure → List Failure
  | [] => []
  | f :: rest => f.nodes ++ nodesOf rest
end

theorem mem_nodesOf {g : Failure} {fs : List Failure} :
    g ∈ nodesOf fs ↔ ∃ f ∈ fs, g ∈ f.nodes := by
  induction fs with
  | nil => simp [nodesOf]
  | cons f rest ih => simp [nodesOf, ih]

/-! ## Moved failures -/

mutual
/-- The failure with every offset moved, its own and those below it. -/
def shift (k : Int) : Failure → Failure
  | leaf cause offset hint => leaf cause (offset + k) hint
  | exhausted reason offset hint failures =>
    exhausted reason (offset + k) hint (shiftAll k failures)

/-- Several failures, each moved. -/
def shiftAll (k : Int) : List Failure → List Failure
  | [] => []
  | f :: rest => f.shift k :: shiftAll k rest
end

theorem shiftAll_eq_map (k : Int) (fs : List Failure) : shiftAll k fs = fs.map (shift k) := by
  induction fs with
  | nil => rfl
  | cons f rest ih => rw [shiftAll, ih, List.map_cons]

section
variable (k : Int) (f : Failure)

@[simp] theorem offset_shift : (f.shift k).offset = f.offset + k := by
  cases f <;> rfl

@[simp] theorem message_shift : (f.shift k).message = f.message := by
  cases f <;> rfl

@[simp] theorem fatal_shift : (f.shift k).fatal = f.fatal := by
  cases f <;> rfl

end

mutual
theorem nodes_shift (k : Int) : ∀ f : Failure, (f.shift k).nodes = f.nodes.map (shift k)
  | leaf .. => rfl
  | exhausted reason offset hint failures => by
    rw [nodes, List.map_cons, shift, nodes, nodesOf_shiftAll k failures]

theorem nodesOf_shiftAll (k : Int) : ∀ fs : List Failure,
    nodesOf (shiftAll k fs) = (nodesOf fs).map (shift k)
  | [] => rfl
  | f :: rest => by
    rw [shiftAll, nodesOf, nodesOf, List.map_append, nodes_shift k f, nodesOf_shiftAll k rest]
end

mutual
/-- The deepest failure below a moved one is the deepest one, moved. -/
theorem deepest_shift (k : Int) : ∀ f : Failure, (f.shift k).deepest = f.deepest.shift k
  | leaf .. => rfl
  | exhausted reason offset hint failures => by
    rw [shift, deepest, deepest, deepestOf_shiftAll k failures]
    cases deepestOf failures with
    | none => rfl
    | some x => rfl

/-- Moving all failures keeps which one got furthest. -/
theorem deepestOf_shiftAll (k : Int) : ∀ fs : List Failure,
    deepestOf (shiftAll k fs) = (deepestOf fs).map fun x => (x.1 + k, x.2.shift k)
  | [] => rfl
  | f :: rest => by
    rw [shiftAll, deepestOf, deepestOf, deepestOf_shiftAll k rest]
    cases deepestOf rest with
    | none => simp [deepest_shift k f]
    | some x =>
      simp only [Option.map_some, offset_shift, Int.add_le_add_iff_right, deepest_shift k f]
      split <;> rfl
end

/-- A choice whose alternatives failed further on failed further on itself, with the same hint. -/
theorem shift_ofAlternatives (k : Int) (reason : Reason) (offset : Int) (hint : Option String)
    (fs : List Failure) :
    (ofAlternatives reason offset hint fs).shift k =
      ofAlternatives reason (offset + k) hint (fs.map (shift k)) := by
  unfold ofAlternatives
  rw [shift, ← shiftAll_eq_map, deepestOf_shiftAll]
  cases hint with
  | none => simp [Option.map_map, Function.comp_def]
  | some hint => rfl

/-! ## What is left of the text -/

/-- A failure of the tree stands in no text before its beginning. -/
def InText (f : Failure) : Prop := ∀ g ∈ f.nodes, 0 ≤ g.offset

theorem inText_leaf {cause : Cause} {offset : Int} {hint : Option String} :
    (leaf cause offset hint).InText ↔ 0 ≤ offset := by
  simp [InText, nodes, Failure.offset]

theorem InText.exhausted {reason : Reason} {offset : Int} {hint : Option String}
    {fs : List Failure} (h : 0 ≤ offset) (hfs : ∀ f ∈ fs, f.InText) :
    (Failure.exhausted reason offset hint fs).InText := by
  intro g hg
  rw [nodes] at hg
  rcases List.mem_cons.1 hg with rfl | hg
  · exact h
  · obtain ⟨f, hf, hg⟩ := mem_nodesOf.1 hg
    exact hfs f hf g hg

theorem InText.offset_nonneg {f : Failure} (h : f.InText) : 0 ≤ f.offset := by
  refine h f ?_
  cases f <;> simp [nodes]

/-- What is left of the text at each failure of the tree. -/
def remainders (text : List Char) (f : Failure) : List (Option String) :=
  f.nodes.map fun g => (Diagnostic.ofFailure text g).remainder

end Failure

/-- A failure further on in a text leaves as much of it as the failure does where the text begins
only there. -/
theorem Diagnostic.remainder_shift {f : Failure} (h : 0 ≤ f.offset) (text : List Char) (n : Nat) :
    (Diagnostic.ofFailure text (f.shift n)).remainder =
      (Diagnostic.ofFailure (text.drop n) f).remainder := by
  obtain ⟨i, hi⟩ := Int.eq_ofNat_of_zero_le h
  have hshift : f.offset + n = Int.ofNat (i + n) := by
    rw [hi]
    rfl
  simp only [Diagnostic.remainder, Diagnostic.ofFailure, Option.map_some, String.toList_ofList,
    Failure.offset_shift]
  rw [hshift, hi]
  simp [Diagnostic.textFrom, List.drop_drop, Nat.add_comm]

/-- A tree of failures further on in a text leaves as much of it at each failure. -/
theorem Failure.InText.remainders_shift {f : Failure} (h : f.InText) (text : List Char) (n : Nat) :
    (f.shift n).remainders text = f.remainders (text.drop n) := by
  rw [remainders, remainders, nodes_shift, List.map_map]
  exact List.map_congr_left fun g hg => Diagnostic.remainder_shift (h g hg) text n

end Asm65816
