import Pare.Report.Human
import Pare.Report.Machine

/-!
**Reporting a run.**

Main definitions:

* `Pare.Report.Format`, `Pare.Report.Options` — how a run is reported;
* `Pare.Report.text` — what a report for readers prints;
* `Pare.Report.deliver` — what a report prints, and the disk after it.
-/

set_option relaxedAutoImplicit false
set_option autoImplicit false

namespace Pare

namespace Report

/-- The forms of a report. -/
inductive Format where
  /-- Grouped by file, for a terminal. -/
  | terminal
  /-- One finding to a line. -/
  | compact
  /-- For tools. -/
  | json
deriving DecidableEq, Repr

namespace Format

def ofName? : String → Option Format
  | "terminal" => some terminal
  | "compact" => some compact
  | "json" => some json
  | _ => none

def isHuman (f : Format) : Bool := f != json

end Format

/-- How a run is reported. -/
structure Options where
  format : Format := .terminal
  /-- The file that a report for tools goes to. -/
  output : Option String := none
  /-- The directory from which paths are shown. -/
  base : Option String := none
  /-- How many patches were written, if files were fixed. -/
  fixed : Option Nat := none
  /-- Were files left as they are? -/
  dryRun : Bool := false
  /-- Does the terminal show styles? -/
  styled : Bool := false
deriving DecidableEq, Repr

/-- What a report prints if it goes to no file. -/
def text (o : Options) (run : LintRun) : String :=
  let tail := summary o.styled o.fixed o.dryRun (Stats.ofRun run)
  match o.format with
  | .terminal => lines (grouped o.styled o.base run ++ tail)
  | .compact => lines (compact o.styled o.base run ++ tail)
  | .json => lines [json run]

/-- What a report prints, and the disk after it.  Only a report for tools goes to a file, and then
it prints nothing. -/
def deliver (o : Options) (run : LintRun) (d : Disk) : Except Failure (String × Disk) :=
  match o.format, o.output with
  | .json, some path =>
      match d.write? path (json run) with
      | some after => .ok ("", after)
      | none => .error (.access path)
  | _, _ => .ok (text o run, d)

end Report

end Pare
