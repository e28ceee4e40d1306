import Asm65816.Diagnostic
import Asm65816.Grammar.Statement
import Asm65816.Limits

/-!
# Reading one part of a text

Each of these reads one part at the start of a text and gives it with the text that follows. What
follows is left as it is, so that reading can go on from there.
-/

namespace Asm65816

/-- Reads a rule at the start of a text: the value and the remaining text. -/
def Rule.parse {α : Type} (r : Rule α) (text : String) : Except Diagnostic (α × String) :=
  match r.run (.ofText text.toList 0) with
  | .ok (a, c) => .ok (a, String.ofList c.rest)
  | .error f => .error (.ofFailure text.toList f)

/-- Reads an expression, with blanks around it. -/
def Expr.parse (depth : Depth) (text : String) : Except Diagnostic (Expr × String) :=
  Rule.parse (do Rule.skipBlank; (Grammar.value depth.levels).toRule) text

/-- Reads a statement, with blanks around it. -/
def Statement.parse (depth : Depth) (text : String) : Except Diagnostic (Statement × String) :=
  Rule.parse (do Rule.skipBlank; (Grammar.statement depth.levels).toRule) text

/-- Reads `name = expression`, with blanks around it. -/
def Statement.parseAssignment (depth : Depth) (text : String) :
    Except Diagnostic (Statement × String) :=
  Rule.parse (do Rule.skipBlank; Grammar.assignmentStatement depth.levels) text

end Asm65816
