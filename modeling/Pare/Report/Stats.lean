import Pare.Lint
import Pare.Report.Share

/-!
**Counts over a run.**

Main definitions:

* `Pare.Stats` — how many findings, files and failures a run has;
* `Pare.Stats.ofRun` — the counts over a run;
* `Pare.Stats.share` — the share of one issue among the findings.
-/

set_option relaxedAutoImplicit false
set_option autoImplicit false

namespace Pare

/-- How many findings, files and failures a run has. -/
structure Stats where
  totalFindings : Nat
  fixable : Nat
  filesLinted : Nat
  filesAffected : Nat
  filesFailed : Nat
  errors : Nat
  warnings : Nat
  infos : Nat
  /-- The issues that were found, in their order, with how often. -/
  byIssue : List (Issue × Nat)
deriving DecidableEq, Repr

namespace Stats

/-- How many findings have a severity. -/
def countSeverity (run : LintRun) (s : Severity) : Nat :=
  (run.findings.filter fun f => f.severity == s).length

/-- How many findings are about an issue. -/
def countIssue (run : LintRun) (i : Issue) : Nat :=
  (run.findings.filter fun f => f.issue == i).length

def ofRun (run : LintRun) : Stats where
  totalFindings := run.totalFindings
  fixable := run.totalFixable
  filesLinted := run.reports.length
  filesAffected := run.filesWithFindings
  filesFailed := run.failures.length
  errors := countSeverity run .error
  warnings := countSeverity run .warning
  infos := countSeverity run .info
  byIssue := (Issue.all.map fun i => (i, countIssue run i)).filter fun p => p.2 != 0

/-- How often an issue was found. -/
def count (s : Stats) (i : Issue) : Nat := (s.byIssue.lookup i).getD 0

/-- The share of one issue among the findings, in percent. -/
def share (s : Stats) (i : Issue) : Fraction := Fraction.share (s.count i) s.totalFindings

end Stats

end Pare
