import Asm65816.Text.Integer
import Asm65816.Text.Quoted
import Asm65816.Text.Similar

/-!
# Command line arguments

Arguments are options, with or without a value, and one input file. Options may stand anywhere; `--`
ends them. A value follows its option as the next argument, whatever that is, or after an equals
sign; of a repeated option the last value counts. Options of one letter may be joined.

Errors come in three waves. Reading the arguments from left to right (`read`) refuses unknown
options and missing values. Then `--help` and `--version` take over. Then the values are checked,
in the order in which the options first occur (`Arguments.check`).
-/

namespace Asm65816.Command

/-- An option of the command. -/
inductive Switch where
  | maxDepth | maxErrors | verbose | version | help
  deriving DecidableEq, Repr

namespace Switch

/-- Every option, in order. -/
def all : List Switch := [maxDepth, maxErrors, verbose, version, help]

/-- The long name of an option. -/
def name : Switch → String
  | maxDepth => "--max-depth"
  | maxErrors => "--max-errors"
  | verbose => "--verbose"
  | version => "--version"
  | help => "--help"

/-- Whether an option takes a value. -/
def takesValue : Switch → Bool
  | maxDepth | maxErrors => true
  | verbose | version | help => false

/-- The option of a long name. -/
def ofName? (text : String) : Option Switch := all.find? (·.name = text)

/-- The option of a letter. -/
def ofLetter? (c : Char) : Option Switch := if c = 'v' then some verbose else none

end Switch

/-- Why arguments are refused. -/
inductive UsageError where
  /-- An option that does not exist, and those with similar names. -/
  | unknown (option : String) (similar : List String)
  | valueMissing (option : String)
  | valueUnwanted (option : String)
  | notInteger (option : String) (value : String)
  /-- A value outside the range, which is given in words. -/
  | outOfRange (option : String) (value : Int) (range : String)
  | fileMissing
  | noSuchFile (path : String)
  | isDirectory (path : String)
  | unreadable (path : String)
  | extra (arguments : List String)
  deriving DecidableEq, Repr

namespace UsageError

/-- The error in words. -/
def message : UsageError → String
  | unknown option [] => s!"No such option: {option}"
  | unknown option [only] => s!"No such option: {option} Did you mean {only}?"
  | unknown option similar =>
    let listed := ", ".intercalate (similar.mergeSort (· ≤ ·))
    s!"No such option: {option} (Possible options: {listed})"
  | valueMissing option => s!"Option '{option}' requires an argument."
  | valueUnwanted option => s!"Option '{option}' does not take a value."
  | notInteger option value =>
    let value := Text.Quoted.text value
    s!"Invalid value for '{option}': {value} is not a valid integer range."
  | outOfRange option value range =>
    let value := Text.decimalInt value
    s!"Invalid value for '{option}': {value} is not in the range {range}."
  | fileMissing => "Missing argument 'INPUT_FILE'."
  | noSuchFile path =>
    let path := Text.Quoted.text path
    s!"Invalid value for 'INPUT_FILE': File {path} does not exist."
  | isDirectory path =>
    let path := Text.Quoted.text path
    s!"Invalid value for 'INPUT_FILE': File {path} is a directory."
  | unreadable path =>
    let path := Text.Quoted.text path
    s!"Invalid value for 'INPUT_FILE': File {path} is not readable."
  | extra [argument] => s!"Got unexpected extra argument ({argument})"
  | extra arguments =>
    let listed := " ".intercalate arguments
    s!"Got unexpected extra arguments ({listed})"

/-- Whether the error is about the form of an option, which is told without the usage. -/
def isForm : UsageError → Bool
  | valueMissing _ | valueUnwanted _ => true
  | _ => false

end UsageError

/-! ## Reading -/

/-- Arguments as read: options with their values as they occurred, and the rest. -/
structure Arguments where
  options : List (Switch × String)
  positional : List String
  deriving DecidableEq, Repr

/-- One argument that begins with a dash. -/
inductive OptionForm where
  /-- Options without values. -/
  | flags (switches : List Switch)
  /-- An option and its value. -/
  | valued (switch : Switch) (value : String)
  /-- An option whose value is the next argument. -/
  | wantsValue (switch : Switch)

/-- Whether an argument is an option: a dash and something after it. -/
def isOption (argument : String) : Bool :=
  match argument.toList with
  | '-' :: _ :: _ => true
  | _ => false

/-- Reads options of one letter each. -/
def readLetters : List Char → Except UsageError (List Switch)
  | [] => .ok []
  | c :: rest =>
    match Switch.ofLetter? c with
    | none => .error (.unknown (String.ofList ['-', c]) [])
    | some switch => (switch :: ·) <$> readLetters rest

/-- Reads an argument that is an option. A long name may have a value after an equals sign; what is
no long name and has a single dash is letters. -/
def readOption (argument : String) : Except UsageError OptionForm :=
  let chars := argument.toList
  let name := String.ofList (chars.takeWhile (· ≠ '='))
  let value := match chars.dropWhile (· ≠ '=') with
    | _ :: value => some (String.ofList value)
    | [] => none
  match Switch.ofName? name with
  | some switch =>
    match switch.takesValue, value with
    | true, some value => .ok (.valued switch value)
    | true, none => .ok (.wantsValue switch)
    | false, some _ => .error (.valueUnwanted name)
    | false, none => .ok (.flags [switch])
  | none =>
    match chars with
    | '-' :: '-' :: _ => .error (.unknown name (Text.closest name (Switch.all.map (·.name))))
    | _ => .flags <$> readLetters (chars.drop 1)

/-- Reads the arguments. -/
def read : List String → Except UsageError Arguments
  | [] => .ok ⟨[], []⟩
  | argument :: rest =>
    if argument = "--" then .ok ⟨[], rest⟩
    else if isOption argument then
      match readOption argument with
      | .error e => .error e
      | .ok (.flags switches) => do
        let later ← read rest
        .ok { later with options := switches.map (·, "") ++ later.options }
      | .ok (.valued switch value) => do
        let later ← read rest
        .ok { later with options := (switch, value) :: later.options }
      | .ok (.wantsValue switch) =>
        match rest with
        | [] => .error (.valueMissing switch.name)
        | value :: rest => do
          let later ← read rest
          .ok { later with options := (switch, value) :: later.options }
    else do
      let later ← read rest
      .ok { later with positional := argument :: later.positional }

namespace Arguments

/-- Whether an option occurs. -/
def has (a : Arguments) (switch : Switch) : Bool := a.options.any (·.1 = switch)

/-- The value that counts for an option: the last. -/
def value? (a : Arguments) (switch : Switch) : Option String :=
  a.options.reverse.lookup switch

/-- The first of `--help` and `--version`, which take over. -/
def takeover? (a : Arguments) : Option Switch :=
  (a.options.map (·.1)).find? fun switch => switch = .help || switch = .version

/-! ## Checking -/

/-- The least value and the greatest, if there is one, that an option takes. -/
def range (most : Nat) : Switch → Int × Option Int
  | .maxDepth => (1, some most)
  | _ => (1, none)

/-- A range in words. -/
def rangeText : Int × Option Int → String
  | (low, none) =>
    let low := Text.decimalInt low
    s!"x>={low}"
  | (low, some high) =>
    let low := Text.decimalInt low
    let high := Text.decimalInt high
    s!"{low}<=x<={high}"

/-- The integer of an option that takes one, when it occurs. -/
def integer? (a : Arguments) (most : Nat) (switch : Switch) : Except UsageError (Option Int) :=
  match a.value? switch with
  | none => .ok none
  | some text =>
    match Text.Integer.read? text with
    | none => .error (.notInteger switch.name text)
    | some n =>
      let bounds := range most switch
      if bounds.1 ≤ n && bounds.2.all (n ≤ ·) then .ok (some n)
      else .error (.outOfRange switch.name n (rangeText bounds))

/-- Checks the values of the options in the order in which they first occur. -/
def check (a : Arguments) (most : Nat) : Except UsageError Unit :=
  ((a.options.map (·.1)).filter (·.takesValue)).forM fun switch => do
    let _ ← a.integer? most switch
    .ok ()

end Arguments

end Asm65816.Command
