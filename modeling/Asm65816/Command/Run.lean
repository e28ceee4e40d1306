import Asm65816.Command.Arguments
import Asm65816.Command.FileTree
import Asm65816.Command.Response
import Asm65816.Text.Utf8

/-!
# Running the command

`respond` is the whole command as a function of its arguments, the settings of its environment and
the files it can see: it reads the input file, parses it and lists its statements, one line each, or
reports what is wrong. With `--verbose` it also says on the standard output what it does, and logs
on the standard error.
-/

namespace Asm65816.Command

/-! ## Fixed texts -/

/-- The line that says how the command is called. -/
def usage : String := "Usage: main [OPTIONS] INPUT_FILE\n"

/-- The answer to `--version`. -/
def versionText : String := "mvpparse, version 1.0.0\n"

/-- The answer to `--help`. -/
def helpText : String :=
  usage ++ "
  Parse 65816 assembly source and print its statements.

  INPUT_FILE is the assembly source file (.asm) to parse.

  Each statement is printed with its line and column, its kind and its
  normalised source form. Parse errors are reported on stderr.

  Examples:
      mvpparse game.asm
      mvpparse --max-errors 10 game.asm

Options:
  --max-depth INTEGER RANGE   Maximum nesting of parentheses and brackets
                              (default: 64, env MVP_MAX_DEPTH)  [1<=x<=80]
  --max-errors INTEGER RANGE  Stop after this many failing lines (default: 100,
                              env MVP_MAX_ERRORS)  [x>=1]
  -v, --verbose               Verbose output
  --version                   Show the version and exit.
  --help                      Show this message and exit.
"

/-! ## Wrong arguments -/

/-- Tells a wrong argument, after the usage unless the form of an option is wrong. -/
def UsageError.respond (e : UsageError) : Response :=
  let opening := if e.isForm then "" else usage ++ "Try 'main --help' for help.\n\n"
  ⟨.invalidArguments, "", opening ++ line ("Error: " ++ e.message)⟩

/-! ## Listing a program -/

/-- The line of a statement: its place, its kind and its normal form. -/
def listing (s : Located) : String :=
  line (Text.decimalInt s.location.line ++ ":" ++ Text.decimalInt s.location.column ++ "  "
    ++ s.statement.kind ++ "  " ++ s.statement.render)

/-- A line of the log of a part of the assembler. -/
def logLine (part message : String) : String := part ++ ": " ++ message ++ "\n"

/-- The log of reading a program. -/
def readingLog (file source : String) (found : List Located) (findings : Findings) : String :=
  let part := "mvp.parser.program"
  let lineCount := Text.decimal (Text.lines source.toList).length
  let failed (d : Diagnostic) :=
    (d.location.map Location.render).getD "" ++ ": " ++ d.failure.message
  String.join <|
    [logLine part s!"Parsing {file}: {lineCount} lines"]
      ++ findings.errors.map (fun d => logLine part (failed d))
      ++ findings.warnings.map (fun warning => logLine part s!"{file}: {warning}")
      ++ if findings.errors.isEmpty then
          let count := Text.decimal found.length
          [logLine part s!"Parsed {count} statements from {file}"]
        else []

/-- The log of a run that failed, with the trouble as a term. -/
def failureLog (file : String) (term : String) : String :=
  logLine "mvp.cli.mvpparse" s!"mvpparse failed on {file}: {term}"

/-- The failed decoding of octets as a term. -/
def faultTerm (content : List UInt8) (fault : Text.Utf8.Fault) : String :=
  let octets := Text.Quoted.octets content
  let first := Text.decimal fault.first
  let stop := Text.decimal (fault.first + fault.count)
  let why := Text.Quoted.text fault.defect.message
  s!"UnicodeDecodeError('utf-8', {octets}, {first}, {stop}, {why})"

/-- A refused program as a term. -/
def programTerm (e : Program.Refusal) : String :=
  let report := Text.Quoted.text e.message
  s!"ProgramError({report})"

/-- What the command says before it reads the input, when it is verbose. -/
def announcement (file : String) (limits : Limits) : String :=
  let depth := Text.decimal limits.depth.levels
  let errors := Text.decimalInt limits.errors
  line s!"Parsing {file}..." ++ line s!"Limits: depth {depth}, errors {errors}"

/-- Lists the program in a file's content. -/
def list (file : String) (content : List UInt8) (limits : Limits) (verbose : Bool) : Response :=
  let say (text : String) := if verbose then text else ""
  let opening := say (announcement file limits)
  let fail (trouble : Trouble) (log : String) : Response :=
    let told := trouble.respond verbose (some "Parse")
    { told with stdout := opening ++ told.stdout, stderr := say log ++ told.stderr }
  match Text.Utf8.decode content with
  | .error fault =>
    fail (.input (fault.message content)) (failureLog file (faultTerm content fault))
  | .ok chars =>
    let source := String.ofList (Text.normalizeReturns chars)
    let (found, findings) := Program.read limits file source
    let log := readingLog file source found findings
    match Program.ofReading file found findings with
    | .error e => fail (.program e) (log ++ failureLog file (programTerm e))
    | .ok program =>
      let count := Text.decimal program.statements.length
      ⟨.success,
        opening ++ String.join (program.statements.map listing)
          ++ say (line s!"Parse complete: {count} statements"),
        say log⟩

/-! ## The command -/

/-- The path of the input file, if the arguments can be read and have one. -/
def inputPath? (arguments : List String) : Option String :=
  match read arguments with
  | .ok a => a.positional.head?
  | .error _ => none

/-- Finds the content of the input file. -/
def findInput (lookup : String → Option Entry) (path : String) : Except UsageError (List UInt8) :=
  match lookup path with
  | none => .error (.noSuchFile path)
  | some .directory => .error (.isDirectory path)
  | some .unreadable => .error (.unreadable path)
  | some (.file content) => .ok content

/-- Arguments that passed every check, with the content of the input file. -/
structure Accepted where
  path : String
  content : List UInt8
  maxDepth : Option Int
  maxErrors : Option Int
  verbose : Bool
  deriving DecidableEq, Repr

/-- Checks the arguments: the options, then the input file, then that nothing is left over. -/
def accept (lookup : String → Option Entry) (a : Arguments) : Except UsageError Accepted := do
  a.check supportedDepth
  let maxDepth ← a.integer? supportedDepth .maxDepth
  let maxErrors ← a.integer? supportedDepth .maxErrors
  match a.positional with
  | [] => .error .fileMissing
  | path :: rest => do
    let content ← findInput lookup path
    if rest.isEmpty then .ok ⟨path, content, maxDepth, maxErrors, a.has .verbose⟩
    else .error (.extra rest)

/-- Runs the command on accepted arguments, which replace the limits of the settings. -/
def Accepted.run (settings : Settings) (a : Accepted) : Response :=
  match (Limits.ofSettings settings).override a.maxDepth a.maxErrors with
  | .error e => (Trouble.internal e.message).respond a.verbose (some "Parse")
  | .ok limits => list (normalPath a.path) a.content limits a.verbose

/-- The command. -/
def respond (arguments : List String) (settings : Settings) (lookup : String → Option Entry) :
    Response :=
  match read arguments with
  | .error e => e.respond
  | .ok a =>
    match a.takeover? with
    | some .help => ⟨.success, helpText, ""⟩
    | some _ => ⟨.success, versionText, ""⟩
    | none =>
      match accept lookup a with
      | .error e => e.respond
      | .ok accepted => accepted.run settings

end Asm65816.Command
