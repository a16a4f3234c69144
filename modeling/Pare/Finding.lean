import Pare.Detection

/-!
**Findings.**

A detection, told to a reader: in which file, on which lines and columns, how severe, and in which
words.

Main definitions:

* `Pare.Severity` — how severe a finding is;
* `Pare.Finding` — a detection with its file and its place;
* `Pare.Finding.ofDetection` — a detection resolved against its source.
-/

set_option relaxedAutoImplicit false
set_option autoImplicit false

namespace Pare

/-- How severe a finding is. -/
inductive Severity where
  | info
  | warning
  | error
deriving DecidableEq, Repr

namespace Severity

def name : Severity → String
  | info => "info"
  | warning => "warning"
  | error => "error"

/-- The severity with a name. -/
def ofName? : String → Option Severity
  | "info" => some info
  | "warning" => some warning
  | "error" => some error
  | _ => none

end Severity

/-- A detection with its file and its place. -/
structure Finding where
  /-- The file. -/
  file : String
  /-- The place where the highlighted span starts. -/
  start : Source.Position
  /-- The place where the highlighted span stops. -/
  stop : Source.Position
  /-- What is redundant. -/
  issue : Issue
  /-- How severe it is. -/
  severity : Severity
  /-- The words that tell it. -/
  message : String
  /-- Can the redundancy be removed? -/
  fixable : Bool
deriving DecidableEq, Repr

namespace Finding

/-- A detection resolved against its source. -/
def ofDetection (file : String) (source : Source) (severity : Severity) (d : Detection) :
    Finding where
  file := file
  start := source.position d.span.start
  stop := source.position d.span.stop
  issue := d.issue
  severity := severity
  message := d.issue.message
  fixable := d.isFixable

end Finding

end Pare
