import Pare.Disk
import Pare.Failure
import Pare.Finding
import Pare.Fix

/-!
**Looking through files.**

A linter reads texts, runs the rule on them and tells what it finds, file by file.  A text that
cannot be read, or is no program, is a failure of that file only.

Main definitions:

* `Pare.FileReport` — the findings in one file;
* `Pare.LintRun` — the reports and the failures over some files;
* `Pare.Attempt` — a computation that may fail, or be faulty;
* `Pare.Linter` — a rule with the severity of what it reports;
* `Pare.Linter.report`, `Pare.Linter.lintText` — the report on a text;
* `Pare.Linter.lintFile`, `Pare.Linter.lintFiles` — the reports on files of a disk.
-/

set_option relaxedAutoImplicit false
set_option autoImplicit false

namespace Pare

/-- A computation that may fail, or be faulty. -/
abbrev Attempt := ExceptT Failure (Except Fault)

/-- The result of a computation that may be faulty. -/
def Attempt.ofFaulty {α : Type} (x : Except Fault α) : Attempt α := ExceptT.lift x

/-- The result of a computation that may fail. -/
def Attempt.ofResult {α : Type} (x : Except Failure α) : Attempt α := ExceptT.mk (.ok x)

/-! ### Reports -/

/-- The findings in one file. -/
structure FileReport where
  path : String
  findings : List Finding
deriving DecidableEq, Repr

namespace FileReport

/-- How many findings can be fixed. -/
def fixableCount (r : FileReport) : Nat := (r.findings.filter Finding.fixable).length

/-- Is there nothing to report? -/
def isClean (r : FileReport) : Bool := r.findings.isEmpty

end FileReport

/-- The reports and the failures over some files. -/
structure LintRun where
  reports : List FileReport
  failures : List Failure
deriving DecidableEq, Repr

namespace LintRun

/-- The run over no files. -/
def none : LintRun := ⟨[], []⟩

/-- All findings, file by file. -/
def findings (run : LintRun) : List Finding := run.reports.flatMap FileReport.findings

def totalFindings (run : LintRun) : Nat := run.findings.length

/-- How many findings can be fixed. -/
def totalFixable (run : LintRun) : Nat := (run.findings.filter Finding.fixable).length

def filesWithFindings (run : LintRun) : Nat :=
  (run.reports.filter fun r => !r.isClean).length

/-- The run that some results make up: the reports in the order of their paths, the failures in the
order in which they came. -/
def ofResults (results : List (Except Failure FileReport)) : LintRun where
  reports := (results.filterMap Except.toOption).mergeSort fun a b => Path.notAfter a.path b.path
  failures := results.filterMap fun r =>
    match r with
    | .ok _ => Option.none
    | .error f => some f

end LintRun

/-! ### The linter -/

/-- A rule with the severity of what it reports. -/
structure Linter where
  rule : Rule
  severity : Severity
deriving DecidableEq, Repr

namespace Linter

/-- The report on a file from what the rule says about its source. -/
def report (linter : Linter) (path : String) (source : Source) (found : List Detection) :
    FileReport :=
  ⟨path, found.map (Finding.ofDetection path source linter.severity)⟩

def lintText (linter : Linter) (read : Reader) (path text : String) : Attempt FileReport := do
  match read text with
  | none => throw (.malformed path none)
  | some ctx =>
      let found ← Attempt.ofFaulty (linter.rule.run ctx)
      return linter.report path ctx.source found

def lintFile (linter : Linter) (read : Reader) (d : Disk) (path : String) : Attempt FileReport :=
  match d.read? path with
  | none => throw (.access path)
  | some text => linter.lintText read path text

/-- The reports on some files of a disk. -/
def lintFiles (linter : Linter) (read : Reader) (d : Disk) (paths : List String) :
    Except Fault LintRun := do
  return .ofResults (← paths.mapM fun path => (linter.lintFile read d path).run)

end Linter

end Pare
