import SqlBatch.Run
import SqlBatch.Proofs.Files.Tree
import SqlBatch.Proofs.Report
import SqlBatch.Proofs.Report.Json
import SqlBatch.Proofs.Report.Listing
import SqlBatch.Proofs.Run.Inputs
/-!
# Runs

A run is all or nothing (`run_all_or_nothing`), whatever judges its statements.  It goes through if
every input can be taken on its own; its reports are then those of runs on one input each, and it
prints them.  Otherwise it fails as a run on the first input that cannot be taken would, and prints no
report.
-/

namespace SqlBatch

open Text

/-! ## One report -/

/-- The verdicts on an input: on an inline query as a whole, on anything else statement by
statement. -/
def Input.verdicts (validate : Validator) (input : Input) (script : Text) : List Verdict :=
  match input with
  | .inline _ => if AllBlank script then [] else [(Plan.soloTask script 1).verdict validate]
  | _ => (split script).map (Statement.verdict validate)

def Input.report (validate : Validator) (input : Input) (script : Text) : SourceReport where
  source := input.label
  report := ⟨input.verdicts validate script⟩

theorem reportInput_eq (validate : Validator) (input : Input) (script : Text) :
    reportInput validate input script = input.report validate script := by
  cases input with
  | inline query => exact congrArg (SourceReport.mk _) (Report.ofEntries_eq validate script 1)
  | _ => exact congrArg (SourceReport.mk _) (Report.ofScript_eq validate script)

/-! ## All reports -/

namespace Config

def alone (config : Config) (input : Input) : Config := { config with inputs := [input] }

section Check

variable {validators : Dialect → Validator} {config : Config} {files : Files} {stdin : List UInt8}

theorem check_eq :
    config.check validators files stdin =
      (readInputs files config.maxScriptBytes stdin config.inputs).map fun scripts =>
        scripts.map fun (input, script) => input.report (validators config.dialect) script := by
  simp only [check, reportInput_eq]
  cases readInputs files config.maxScriptBytes stdin config.inputs <;> rfl

theorem check_alone (input : Input) :
    (config.alone input).check validators files stdin =
      (readInput files stdin config.maxScriptBytes input).map fun script =>
        [input.report (validators config.dialect) script] := by
  have hrest : ∀ left, readInputs files config.maxScriptBytes left [] = .ok [] := fun _ => rfl
  have hone : (config.alone input).inputs = [input] := rfl
  have hlimit : (config.alone input).maxScriptBytes = config.maxScriptBytes := rfl
  have hdialect : (config.alone input).dialect = config.dialect := rfl
  rw [check_eq, hone, hlimit, hdialect, readInputs_cons, hrest]
  cases readInput files stdin config.maxScriptBytes input <;> rfl

end Check

/-- The reports are those on the inputs, each on its whole script, as if it were the only one. -/
structure Reported (validators : Dialect → Validator) (config : Config) (files : Files)
    (stdin : List UInt8) (sources : List SourceReport) : Prop where
  length : sources.length = config.inputs.length
  each : ForEach (fun front input => ∃ script,
    input.Gives files (stdinBehind stdin front) config.maxScriptBytes script ∧
      sources[front.length]? = some (input.report (validators config.dialect) script) ∧
      (config.alone input).check validators files (stdinBehind stdin front) =
        .ok [input.report (validators config.dialect) script]) config.inputs

/-- The failure is that of the first input which cannot be taken, as if it were the only one. -/
def StoppedBy (validators : Dialect → Validator) (config : Config) (files : Files)
    (stdin : List UInt8) (failure : Failure) : Prop :=
  ∃ front input back, config.inputs = front ++ input :: back ∧
    ForEach (fun earlier other => ∃ script,
      other.Gives files (stdinBehind stdin earlier) config.maxScriptBytes script) front ∧
    (∀ script, ¬ input.Gives files (stdinBehind stdin front) config.maxScriptBytes script) ∧
    (config.alone input).check validators files (stdinBehind stdin front) = .error failure

section Fits

variable {validators : Dialect → Validator} {config : Config} {files : Files} {stdin : List UInt8}
  (hfits : config.maxScriptBytes < Text.maxWord ∨ stdin.length ≤ Text.maxWord)

include hfits

theorem readInput_behind_iff (front : List Input) {input : Input} {script : Text} :
    readInput files (stdinBehind stdin front) config.maxScriptBytes input = .ok script ↔
      input.Gives files (stdinBehind stdin front) config.maxScriptBytes script :=
  readInput_eq_ok_iff (hfits.imp_right (length_stdinBehind_le stdin front).trans)

theorem reported_of_ok {sources : List SourceReport}
    (h : config.check validators files stdin = .ok sources) :
    Reported validators config files stdin sources := by
  rw [check_eq] at h
  cases hread : readInputs files config.maxScriptBytes stdin config.inputs with
  | error failure =>
      rw [hread] at h
      contradiction
  | ok scripts =>
      rw [hread] at h
      obtain rfl := Except.ok.inj h
      obtain ⟨hlength, heach⟩ := readInputs_ok hread
      refine ⟨by rw [List.length_map, hlength], heach.imp ?_⟩
      rintro front input ⟨script, hscript, hat⟩
      refine ⟨script, (readInput_behind_iff hfits front).1 hscript, ?_, ?_⟩
      · rw [List.getElem?_map, hat]
        rfl
      · rw [check_alone, hscript]
        rfl

theorem stoppedBy_of_error {failure : Failure}
    (h : config.check validators files stdin = .error failure) :
    StoppedBy validators config files stdin failure := by
  rw [check_eq] at h
  cases hread : readInputs files config.maxScriptBytes stdin config.inputs with
  | ok scripts =>
      rw [hread] at h
      contradiction
  | error other =>
      rw [hread] at h
      obtain rfl : other = failure := Except.error.inj h
      obtain ⟨front, input, back, hinputs, heach, hfails⟩ := readInputs_error hread
      refine ⟨front, input, back, hinputs, heach.imp ?_, fun script hgives => ?_, ?_⟩
      · rintro earlier target ⟨script, hscript⟩
        exact ⟨script, (readInput_behind_iff hfits earlier).1 hscript⟩
      · rw [(readInput_behind_iff hfits front).2 hgives] at hfails
        contradiction
      · rw [check_alone, hfails]
        rfl

theorem check_isOk_iff :
    (∃ sources, config.check validators files stdin = .ok sources) ↔
      ForEach (fun front input => ∃ script,
        input.Gives files (stdinBehind stdin front) config.maxScriptBytes script)
        config.inputs := by
  constructor
  · rintro ⟨sources, h⟩
    exact (reported_of_ok hfits h).each.imp fun _ _ ⟨script, hgives, _⟩ => ⟨script, hgives⟩
  · intro heach
    cases h : config.check validators files stdin with
    | ok sources => exact ⟨sources, rfl⟩
    | error failure =>
        obtain ⟨front, input, back, hinputs, -, hnone, -⟩ := stoppedBy_of_error hfits h
        obtain ⟨script, hgives⟩ := heach front input back hinputs
        exact absurd hgives (hnone script)

end Fits

end Config

/-! ## The ending -/

def AllValid (sources : List SourceReport) : Prop :=
  ∀ source ∈ sources, ∀ verdict ∈ source.report.verdicts, verdict.isValid = true

theorem all_success_iff {sources : List SourceReport} :
    sources.all (·.report.success) = true ↔ AllValid sources := by
  simp only [List.all_eq_true, Report.success_iff, AllValid]

def SourceReport.printout (format : OutputFormat) (sources : List SourceReport) : Text :=
  match format with
  | .json => (document sources).layout 0 ++ ['\n']
  | .text => printed (rows sources)

theorem SourceReport.render_eq (format : OutputFormat) (sources : List SourceReport) :
    render format sources ++ ['\n'] = printout format sources := by
  cases format with
  | json => rw [render, renderJson_eq, printout]
  | text => rw [render, renderListing_eq, printout]

/-- A run goes through if each input can be taken, and only then.  It then prints the reports on all
of them, and its status says whether all statements are valid.  If not, the first input that cannot
be taken is the only one that it speaks of.

Bytes are counted in machine words, so that nothing is known under the greatest of all limits of a
standard input which is larger still. -/
theorem run_all_or_nothing (validators : Dialect → Validator) (config : Config) (files : Files)
    (stdin : List UInt8)
    (hfits : config.maxScriptBytes < Text.maxWord ∨ stdin.length ≤ Text.maxWord) :
    ((∃ sources, config.check validators files stdin = .ok sources) ↔
      ForEach (fun front input => ∃ script,
        input.Gives files (stdinBehind stdin front) config.maxScriptBytes script)
        config.inputs) ∧
    (∀ sources, config.check validators files stdin = .ok sources →
      config.Reported validators files stdin sources ∧
        (config.carryOut validators files stdin).stdout =
          SourceReport.printout config.format sources ∧
        (config.carryOut validators files stdin).stderr = [] ∧
        (AllValid sources → (config.carryOut validators files stdin).status = 0) ∧
        (¬ AllValid sources → (config.carryOut validators files stdin).status = 1)) ∧
    ∀ failure, config.check validators files stdin = .error failure →
      config.StoppedBy validators files stdin failure ∧
        config.carryOut validators files stdin =
          { status := 2
            stdout := []
            stderr := "sqlcheck: ".toList ++ failure.message ++ ['\n'] } := by
  refine ⟨Config.check_isOk_iff hfits, fun sources h => ?_, fun failure h => ?_⟩
  · have hends : config.carryOut validators files stdin = .ofReports config.format sources := by
      rw [Config.carryOut, h]
    have hstatus : (Ending.ofReports config.format sources).status =
        if sources.all (·.report.success) then 0 else 1 := rfl
    rw [hends]
    refine ⟨Config.reported_of_ok hfits h, SourceReport.render_eq .., rfl, fun hvalid => ?_,
      fun hinvalid => ?_⟩
    · exact hstatus.trans (if_pos (all_success_iff.2 hvalid))
    · exact hstatus.trans (if_neg (mt all_success_iff.1 hinvalid))
  · refine ⟨Config.stoppedBy_of_error hfits h, ?_⟩
    rw [Config.carryOut, h]
    rfl

def twoFiles : FileTree := FileTree.ofPaths
  [("a.sql".toList, .file (Utf8.encode "SELECT 1;\nDELIMITER //\n".toList)),
    ("b.sql".toList, .file [0xFF])]

def typedIn : List UInt8 := Utf8.encode "CREATE PROCEDURE p() BEGIN\n".toList

def misspelt (dialect : Dialect) (statement : Text) : Outcome :=
  if dialect = .sqlite ∧ statement = "SELEC 1".toList then
    .diagnostics [⟨1, 7, "no such statement".toList⟩]
  else .diagnostics []

def fourInputs : Config where
  inputs := [.inline "SELEC 1;".toList, .stdin, .file "a.sql".toList, .stdin]
  dialect := .sqlite
  format := .text
  logLevel := Config.defaultLogLevel
  maxScriptBytes := 100
  path := none

/-- There is nothing left of the standard input when it is asked for again. -/
def fourReports : List SourceReport :=
  [⟨"<query>".toList,
      ⟨[⟨1, "SELEC 1;".toList, some "line 1:7 no such statement".toList⟩]⟩⟩,
    ⟨"<stdin>".toList, ⟨[⟨1, "CREATE PROCEDURE p() BEGIN".toList, some Task.incompleteMessage⟩]⟩⟩,
    ⟨"a.sql".toList, ⟨[⟨1, "SELECT 1".toList, none⟩, ⟨2, "DELIMITER //".toList, none⟩]⟩⟩,
    ⟨"<stdin>".toList, ⟨[]⟩⟩]

def threeInputs : Config :=
  { fourInputs with inputs := [.stdin, .file "b.sql".toList, .file "c.sql".toList] }

def oneInput : Config :=
  { fourInputs with inputs := [.inline "SELEC 1;".toList], dialect := .mysql, format := .json }

theorem twoFiles_all_or_nothing :
    fourInputs.check misspelt twoFiles.files typedIn = .ok fourReports ∧
      fourInputs.carryOut misspelt twoFiles.files typedIn =
        { status := 1
          stdout := printed <|
            ["== <query> ==",
              "    1  error  SELEC 1;",
              "       line 1:7 no such statement",
              "0 of 1 statements valid",
              "== <stdin> ==",
              "    1  error  CREATE PROCEDURE p() BEGIN",
              "       Incomplete procedure definition",
              "0 of 1 statements valid",
              "== a.sql ==",
              "    1  ok     SELECT 1",
              "    2  ok     DELIMITER //",
              "2 of 2 statements valid",
              "== <stdin> ==",
              "0 of 0 statements valid"].map String.toList } ∧
      oneInput.carryOut misspelt twoFiles.files typedIn =
        { status := 0
          stdout := printed <|
            ["\x7b",
              "  \"success\": true,",
              "  \"totalQueries\": 1,",
              "  \"validQueries\": 1,",
              "  \"results\": [",
              "    \x7b",
              "      \"lineNumber\": 1,",
              "      \"query\": \"SELEC 1;\",",
              "      \"valid\": true",
              "    \x7d",
              "  ]",
              "\x7d"].map String.toList } ∧
      threeInputs.carryOut misspelt twoFiles.files typedIn =
        { status := 2
          stderr :=
            "sqlcheck: failed to read b.sql: stream did not contain valid UTF-8\n".toList } := by
  obtain ⟨-, hfour, -⟩ :=
    run_all_or_nothing misspelt fourInputs twoFiles.files typedIn (.inl (by decide))
  obtain ⟨-, hone, -⟩ :=
    run_all_or_nothing misspelt oneInput twoFiles.files typedIn (.inl (by decide))
  obtain ⟨-, -, hthree⟩ :=
    run_all_or_nothing misspelt threeInputs twoFiles.files typedIn (.inl (by decide))
  have hreports : fourInputs.check misspelt twoFiles.files typedIn = .ok fourReports := by
    decide +kernel
  refine ⟨hreports, ?_, ?_, ?_⟩
  · obtain ⟨-, hstdout, hstderr, -, hinvalid⟩ := hfour fourReports hreports
    have hstatus := hinvalid (by rw [← all_success_iff]; decide +kernel)
    exact Ending.ext hstatus (hstdout.trans (by decide +kernel)) hstderr
  · obtain ⟨-, hstdout, hstderr, hvalid, -⟩ :=
      hone [⟨"<query>".toList, ⟨[⟨1, "SELEC 1;".toList, none⟩]⟩⟩] (by decide +kernel)
    have hstatus := hvalid (by rw [← all_success_iff]; decide +kernel)
    rw [← SourceReport.render_eq] at hstdout
    exact Ending.ext hstatus (hstdout.trans (by decide +kernel)) hstderr
  · exact (hthree (.fileUnreadable "b.sql".toList .notUtf8) (by decide +kernel)).2

/-! ## The command line -/

/-- A command line that the program carries out, and the configuration that it comes to. -/
def Configures (files : Files) (userFile : Option Text) (arguments : List Text) (config : Config) :
    Prop :=
  ∃ parsed, CommandLine.parse arguments = .ok parsed ∧
    Config.ofArguments files userFile parsed = .ok config

theorem run_eq_carryOut {files : Files} {userFile : Option Text} {arguments : List Text}
    {config : Config} (h : Configures files userFile arguments config) (stdin : List UInt8) :
    run files userFile stdin arguments = config.carryOut Grammar.check files stdin := by
  obtain ⟨parsed, hparse, hconfig⟩ := h
  simp only [run, hparse, hconfig]

end SqlBatch
