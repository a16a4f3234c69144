import Pare.Data.Json
import Pare.Report.Stats

/-!
**Reports for tools.**

A run as one value of a data file, with the counts first, then the findings file by file, then what
could not be looked through.

Main definitions:

* `Pare.Finding.toValue`, `Pare.Stats.toValue` — a finding and the counts as values;
* `Pare.Report.toValue` — a run as a value;
* `Pare.Report.json` — a run as a text.
-/

set_option relaxedAutoImplicit false
set_option autoImplicit false

namespace Pare

def Value.ofCount (n : Nat) : Value := .integer n

def Finding.toValue (f : Finding) : Value :=
  .table [("file", .text f.file), ("line", .ofCount f.start.line),
    ("column", .ofCount f.start.column), ("end_line", .ofCount f.stop.line),
    ("end_column", .ofCount f.stop.column), ("issue", .text f.issue.tag),
    ("code", .text f.issue.code), ("message_key", .text f.issue.key),
    ("severity", .text f.severity.name), ("message", .text f.message), ("fixable", .bool f.fixable)]

def Stats.toValue (s : Stats) : Value :=
  .table [("total_findings", .ofCount s.totalFindings), ("fixable", .ofCount s.fixable),
    ("files_linted", .ofCount s.filesLinted), ("files_affected", .ofCount s.filesAffected),
    ("files_failed", .ofCount s.filesFailed), ("errors", .ofCount s.errors),
    ("warnings", .ofCount s.warnings), ("infos", .ofCount s.infos)]

namespace Report

/-- The version that reports carry. -/
def version : String := "0.1.0"

/-- A run as a value. -/
def toValue (run : LintRun) : Value :=
  .table [("version", .text version), ("rule", .text Rule.name),
    ("summary", (Stats.ofRun run).toValue),
    ("findings", .list (run.findings.map Finding.toValue)),
    ("errors", .list (run.failures.map fun f => .text f.message))]

/-- A run as a text. -/
def json (run : LintRun) : String := Json.render (toValue run)

end Report

end Pare
