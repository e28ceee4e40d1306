import Asm65816.Text.Integer
import Asm65816.Text.Numeral

/-!
# Limits

How deep an expression may nest and how many lines may fail. Each limit has a default; a setting of
the environment replaces it and an argument replaces both. A setting that is no integer, or a depth
out of range, counts as absent; an argument out of range is refused.
-/

namespace Asm65816

/-- The deepest nesting that a limit may allow. -/
def supportedDepth : Nat := 80

/-- A depth limit: from one level to `supportedDepth`. -/
structure Depth where
  levels : Nat
  one_le : 1 ≤ levels
  le_supported : levels ≤ supportedDepth
  deriving DecidableEq

/-- A depth out of range. -/
inductive DepthError where
  | notPositive (depth : Int)
  | unsupported (depth : Int)
  deriving DecidableEq, Repr

/-- The error in words. -/
def DepthError.message : DepthError → String
  | notPositive depth => "max_depth must be positive, got " ++ Text.decimalInt depth
  | unsupported depth =>
    let depth := Text.decimalInt depth
    let most := Text.decimal supportedDepth
    s!"max_depth {depth} exceeds the supported maximum of {most} (see sys.setrecursionlimit)"

namespace Depth

/-- The depth limit without setting and argument. -/
def default : Depth := ⟨64, by decide, by decide⟩

/-- The depth limit of an argument. -/
def make (depth : Int) : Except DepthError Depth :=
  if _ : depth < 1 then .error (.notPositive depth)
  else if _ : supportedDepth < depth then .error (.unsupported depth)
  else .ok ⟨depth.toNat, by omega, by omega⟩

/-- The depth limit of a setting. -/
def ofSetting (setting : Option String) : Depth :=
  match (setting.bind Text.Integer.read?).map make with
  | some (.ok depth) => depth
  | _ => default

end Depth

/-- The limits of a program. -/
structure Limits where
  depth : Depth
  /-- Reading stops at this many failing lines, and at the first in any case. -/
  errors : Int
  deriving DecidableEq

/-- The settings of the environment. -/
structure Settings where
  /-- The variable `MVP_MAX_DEPTH`. -/
  maxDepth : Option String
  /-- The variable `MVP_MAX_ERRORS`. -/
  maxErrors : Option String
  deriving DecidableEq, Repr

namespace Limits

/-- The error limit without setting and argument. -/
def defaultErrors : Int := 100

/-- The error limit of a setting. -/
def errorsOfSetting (setting : Option String) : Int :=
  (setting.bind Text.Integer.read?).getD defaultErrors

/-- The limits of the settings. -/
def ofSettings (settings : Settings) : Limits :=
  ⟨.ofSetting settings.maxDepth, errorsOfSetting settings.maxErrors⟩

/-- Replaces the limits for which there is an argument. -/
def override (limits : Limits) (depth errors : Option Int) : Except DepthError Limits := do
  let depth ← match depth with
    | none => .ok limits.depth
    | some depth => Depth.make depth
  .ok ⟨depth, errors.getD limits.errors⟩

/-- The limits without settings and arguments. -/
def default : Limits := ⟨.default, defaultErrors⟩

end Limits

end Asm65816
