import Asm65816.Proofs.FailureShape
import Asm65816.Proofs.Listing

/-!
# Outcomes of the command

The command is all or nothing. Once its arguments are accepted the input is not UTF-8, or it does
not parse, or all its statements are listed; the exit code tells which, and `Outcome` what stands on
the two outputs then. An internal error would need a limit out of range, but the arguments are
checked against the range before they are accepted (`Arguments.integer?_range`), and a setting out
of range counts as absent.

What goes to no terminal is given out without terminal sequences. A listing has none, but a report
quotes source lines, and those may.
-/

namespace Asm65816.Command

/-! ## Accepted arguments -/

theorem bind_eq_ok {ε α β : Type} {x : Except ε α} {f : α → Except ε β} {b : β} :
    (x >>= f) = .ok b ↔ ∃ a, x = .ok a ∧ f a = .ok b := by
  cases x with
  | ok a =>
    constructor
    · exact fun h => ⟨a, rfl, h⟩
    · rintro ⟨_, ⟨⟩, h⟩
      exact h
  | error e =>
    constructor
    · nofun
    · rintro ⟨_, ⟨⟩, -⟩

/-- The integer of an option is in the range of the option. -/
theorem Arguments.integer?_range {a : Arguments} {most : Nat} {switch : Switch} {n : Int}
    (h : a.integer? most switch = .ok (some n)) :
    (range most switch).1 ≤ n ∧ ∀ high ∈ (range most switch).2, n ≤ high := by
  unfold integer? at h
  split at h
  · cases h
  · split at h
    · cases h
    · dsimp only at h
      split at h
      · next hrange =>
        cases h
        rw [Bool.and_eq_true, decide_eq_true_eq] at hrange
        refine ⟨hrange.1, fun high hhigh => ?_⟩
        have hall := hrange.2
        rw [Option.mem_def.1 hhigh] at hall
        simpa using hall
      · cases h

section
variable {lookup : String → Option Entry} {a : Arguments} {accepted : Accepted}

/-- Accepted arguments name one file, which is there, and their options are in range. -/
theorem accept_eq_ok (h : accept lookup a = .ok accepted) :
    a.positional = [accepted.path] ∧ lookup accepted.path = some (.file accepted.content) ∧
      a.integer? supportedDepth .maxDepth = .ok accepted.maxDepth ∧
      a.integer? supportedDepth .maxErrors = .ok accepted.maxErrors := by
  unfold accept at h
  obtain ⟨-, -, h⟩ := bind_eq_ok.1 h
  obtain ⟨maxDepth, hdepth, h⟩ := bind_eq_ok.1 h
  obtain ⟨maxErrors, herrors, h⟩ := bind_eq_ok.1 h
  split at h
  · cases h
  · next path rest hpositional =>
    obtain ⟨content, hcontent, h⟩ := bind_eq_ok.1 h
    split at h
    · next hrest =>
      cases h
      refine ⟨?_, ?_, hdepth, herrors⟩
      · rw [hpositional, List.isEmpty_iff.1 hrest]
      · unfold findInput at hcontent
        split at hcontent <;> cases hcontent
        assumption
    · cases h

/-- Accepted options never make limits out of range. -/
theorem exists_limits (h : accept lookup a = .ok accepted) (settings : Settings) :
    ∃ limits, (Limits.ofSettings settings).override accepted.maxDepth accepted.maxErrors =
      .ok limits := by
  obtain ⟨-, -, hdepth, -⟩ := accept_eq_ok h
  cases hmax : accepted.maxDepth with
  | none => exact ⟨_, rfl⟩
  | some n =>
    rw [hmax] at hdepth
    obtain ⟨hlow, hhigh⟩ := Arguments.integer?_range hdepth
    have hlow : (1 : Int) ≤ n := hlow
    have hhigh : n ≤ supportedDepth := hhigh _ rfl
    have hmake : Depth.make n = .ok ⟨n.toNat, by omega, by omega⟩ := by
      rw [Depth.make, dif_neg (by omega), dif_neg (by omega)]
    rw [Limits.override, hmake]
    exact ⟨_, rfl⟩

end

/-! ## The three outcomes -/

/-- Reading a program does not tell one way to write a line end from another. -/
theorem parse_normalizeReturns (limits : Limits) (file : String) (chars : List Char) :
    Program.parse limits file (String.ofList (Text.normalizeReturns chars)) =
      Program.parse limits file (String.ofList chars) := by
  unfold Program.parse Program.read
  rw [String.toList_ofList, String.toList_ofList, Text.lines_normalizeReturns]

/-- The report on findings ends with counts, so it is never empty. -/
theorem report_ne_empty (findings : Findings) : findings.report ≠ "" := by
  rw [Findings.report, Findings.reportLines]
  generalize findings.errors.flatMap _ ++ _ = front
  cases front with
  | nil => simp
  | cons first front =>
    rw [String.intercalate_append_of_ne_nil (List.cons_ne_nil _ _) (List.cons_ne_nil _ _)]
    simp

/-- What a refused program says is the report. -/
theorem message_eq_report {limits : Limits} {file source : String} {refusal : Program.Refusal}
    (h : Program.parse limits file source = .error refusal) : refusal.message = refusal.report := by
  obtain ⟨errors, -, rfl⟩ := Program.of_parse_error h
  rw [Program.Refusal.message, if_neg (report_ne_empty _)]

/-- What a run without `--verbose` tells of a file, given its content and the limits in effect. -/
structure Outcome (file : String) (content : List UInt8) (limits : Limits)
    (response : Response) : Prop where
  /-- There is no internal error. -/
  code : response.exit.code ∈ [0, 1, 2]
  success_iff : response.exit = .success ∧ response.stderr = "" ↔
    ∃ chars program, Text.Utf8.decode content = .ok chars ∧
      Program.parse limits file (String.ofList chars) = .ok program
  /-- Cut at line feeds, the standard output has one piece for each statement, and an empty one
  after the last line feed. -/
  listed : ∀ chars program, Text.Utf8.decode content = .ok chars →
    Program.parse limits file (String.ofList chars) = .ok program →
    response.stdout.toList.splitOn '\n' = program.statements.map (fun x =>
      (Text.decimalInt x.location.line ++ ":" ++ Text.decimalInt x.location.column ++ "  "
        ++ x.statement.kind ++ "  " ++ x.statement.render).toList) ++ [[]]
  refused_iff : response.exit = .parseError ∧ response.stdout = "" ↔
    ∃ chars refusal, Text.Utf8.decode content = .ok chars ∧
      Program.parse limits file (String.ofList chars) = .error refusal
  /-- The standard error has the report, without the terminal sequences in it; so it has the report
  as it is when there is no escape. -/
  reported : ∀ chars refusal, Text.Utf8.decode content = .ok chars →
    Program.parse limits file (String.ofList chars) = .error refusal →
    response.stderr = String.ofList (Text.stripEscapes refusal.report.toList) ++ "\n" ∧
      ('\x1b' ∉ refusal.report.toList → response.stderr = refusal.report ++ "\n")
  undecoded_iff : response.exit = .invalidArguments ∧ response.stdout = "" ↔
    ∃ fault, Text.Utf8.decode content = .error fault

section
variable {file : String} {content : List UInt8} {limits : Limits}

theorem outcome_of_fault {fault : Text.Utf8.Fault} (h : Text.Utf8.decode content = .error fault) :
    Outcome file content limits (list file content limits false) := by
  have hlist : list file content limits false =
      ⟨.invalidArguments, "", line ("Error: " ++ fault.message content)⟩ := by
    simp [list, h, Trouble.respond, Trouble.exit]
  rw [hlist]
  constructor <;> simp [h, ExitCode.code]

theorem outcome_of_refusal {chars : List Char} {refusal : Program.Refusal}
    (hdecode : Text.Utf8.decode content = .ok chars)
    (hparse : Program.parse limits file (String.ofList chars) = .error refusal) :
    Outcome file content limits (list file content limits false) := by
  have hlist : list file content limits false = ⟨.parseError, "", line refusal.report⟩ := by
    have hread := hparse
    rw [← parse_normalizeReturns, Program.parse] at hread
    simp [list, hdecode, hread, Trouble.respond, Trouble.exit, message_eq_report hparse]
  rw [hlist]
  constructor
  case listed =>
    intro chars' program hc hp
    obtain rfl := Except.ok.inj (hdecode.symm.trans hc)
    cases hparse.symm.trans hp
  case reported =>
    intro chars' refusal' hc hp
    obtain rfl := Except.ok.inj (hdecode.symm.trans hc)
    obtain rfl := Except.error.inj (hparse.symm.trans hp)
    exact ⟨rfl, line_of_not_mem⟩
  all_goals simp [hdecode, hparse, ExitCode.code]

theorem outcome_of_program {chars : List Char} {program : Program}
    (hdecode : Text.Utf8.decode content = .ok chars)
    (hparse : Program.parse limits file (String.ofList chars) = .ok program) :
    Outcome file content limits (list file content limits false) := by
  have hlist : list file content limits false =
      ⟨.success, String.join (program.statements.map listing), ""⟩ := by
    have hread := hparse
    rw [← parse_normalizeReturns, Program.parse] at hread
    simp [list, hdecode, hread]
  rw [hlist]
  constructor
  case listed =>
    intro chars' program' hc hp
    obtain rfl := Except.ok.inj (hdecode.symm.trans hc)
    obtain rfl := Except.ok.inj (hparse.symm.trans hp)
    exact splitOn_listing (Program.wellFormed_of_mem hparse)
  case reported =>
    intro chars' refusal hc hp
    obtain rfl := Except.ok.inj (hdecode.symm.trans hc)
    cases hparse.symm.trans hp
  all_goals simp [hdecode, hparse, ExitCode.code]

theorem outcome_list : Outcome file content limits (list file content limits false) := by
  cases hdecode : Text.Utf8.decode content with
  | error fault => exact outcome_of_fault hdecode
  | ok chars =>
    cases hparse : Program.parse limits file (String.ofList chars) with
    | error refusal => exact outcome_of_refusal hdecode hparse
    | ok program => exact outcome_of_program hdecode hparse

end

/-- A run on accepted arguments lists their file. -/
theorem respond_eq {arguments : List String} {settings : Settings}
    {lookup : String → Option Entry} {a : Arguments} {accepted : Accepted} {limits : Limits}
    (hread : read arguments = .ok a) (htakeover : a.takeover? = none)
    (haccept : accept lookup a = .ok accepted)
    (hlimits : (Limits.ofSettings settings).override accepted.maxDepth accepted.maxErrors =
      .ok limits) :
    respond arguments settings lookup =
      list (normalPath accepted.path) accepted.content limits accepted.verbose := by
  rw [respond, hread]
  dsimp only
  rw [htakeover]
  dsimp only
  rw [haccept]
  dsimp only
  rw [Accepted.run, hlimits]

end Asm65816.Command
