import Pare.Report.Stats
import Pare.Report.Style

/-!
**Reports for readers.**

A run told in lines of text, with or without styles: the findings grouped by file or one to a line,
and a summary with counts and shares.

Main definitions:

* `Pare.Report.grouped` — the findings grouped by file;
* `Pare.Report.compact`, `Pare.Report.compactLine` — the findings one to a line;
* `Pare.Report.summary` — the counts of a run;
* `Pare.Report.grouping` — a number with its digits in groups of three.
-/

set_option relaxedAutoImplicit false
set_option autoImplicit false

namespace Pare

namespace Report

/-- Lines of text, each with its end. -/
def lines (ls : List String) : String := String.join (ls.map (· ++ "\n"))

/-! ### Grouped by file -/

/-- The line of a finding below the path of its file. -/
def item (styled : Bool) (f : Finding) : String :=
  let place := padLeft 5 (toString f.start.line) ++ ":" ++ padRight 3 (toString f.start.column)
  let remedy :=
    if f.fixable then (Style.plain .green).paint styled "fixable"
    else Style.faint.paint styled "manual"
  "  " ++ Style.faint.paint styled place ++ " " ++
    f.severity.style.paint styled f.severity.symbol ++ " [" ++
    Style.ofCode.paint styled f.issue.code ++ "] " ++ f.message ++ " (" ++ remedy ++ ")"

def fileLines (styled : Bool) (base : Option String) (r : FileReport) : List String :=
  [Style.ofPath.paint styled (Path.shown base r.path)] ++ r.findings.map (item styled) ++ [""]

/-- The findings grouped by file. -/
def grouped (styled : Bool) (base : Option String) (run : LintRun) : List String :=
  if run.totalFindings = 0 then
    [(Style.strong .green).paint styled "No unnecessary parentheses or brackets found!"]
  else
    ["", "Found " ++ Style.ofCount.paint styled (toString run.totalFindings) ++ " issues:", ""] ++
      (run.reports.filter fun r => !r.isClean).flatMap (fileLines styled base)

/-! ### One to a line -/

def pathWidth : Nat := 60

/-- A path cut to the greatest width, with dots for what is left out in front. -/
def narrow (path : String) : String :=
  if path.length ≤ pathWidth then path
  else "..." ++ String.ofList (path.toList.drop (path.length - (pathWidth - 3)))

/-- A finding on one line, without styles. -/
def compactLine (base : Option String) (f : Finding) : String :=
  narrow (Path.shown base f.file) ++ ":" ++ toString f.start.line ++ ":" ++
    toString f.start.column ++ ": " ++ f.severity.name ++ " [" ++ f.issue.code ++ "] " ++ f.message

/-- A finding on one line, for a terminal. -/
def compactItem (styled : Bool) (base : Option String) (f : Finding) : String :=
  let place := toString f.start.line ++ ":" ++ toString f.start.column
  Style.ofPath.paint styled (narrow (Path.shown base f.file)) ++ ":" ++
    Style.faint.paint styled place ++ " " ++ f.severity.style.paint styled f.severity.symbol ++
    " " ++ Style.ofCode.paint styled f.issue.code ++ " " ++ f.message

/-- The findings one to a line. -/
def compact (styled : Bool) (base : Option String) (run : LintRun) : List String :=
  run.findings.map (compactItem styled base)

/-! ### The summary -/

/-- Digits, the last one first, in groups of three. -/
def groupDigits : List Char → List Char
  | a :: b :: c :: d :: rest => a :: b :: c :: ',' :: groupDigits (d :: rest)
  | few => few

/-- A number with its digits in groups of three. -/
def grouping (n : Nat) : String :=
  String.ofList (groupDigits (toString n).toList.reverse).reverse

/-- A bar that is filled in proportion to a share. -/
def bar (share : Fraction) (width : Nat) : String :=
  let filled := min (((share.dividedBy 100).toBinary.times width).toBinary).roundUp width
  repeated filled "█" ++ repeated (width - filled) "░"

/-- The name of an issue in the summary. -/
def issueName : Issue → String
  | .parens => "Parentheses"
  | .brackets => "Bracket access"
  | .braces => "Braces"

def countLine (styled : Bool) (style : Style) (label value : String) : String :=
  Style.faint.paint styled (padLeft 16 label) ++ "  " ++ style.paint styled value

def countLines (styled : Bool) (fixed : Option Nat) (s : Stats) : List String :=
  let row := fun label (value : Nat) => countLine styled Style.ofCount label (grouping value)
  [row "Files linted:" s.filesLinted, row "Files affected:" s.filesAffected,
    row "Issues found:" s.totalFindings, row "Fixable:" s.fixable] ++
    (fixed.map fun n => countLine styled (.strong .green) "Fixed:" (grouping n)).toList ++
    if s.filesFailed = 0 then []
    else [countLine styled (.strong .red) "Failed:" (toString s.filesFailed)]

def issueLine (styled : Bool) (s : Stats) (i : Issue) (count : Nat) : String :=
  let share := s.share i
  "  " ++ Style.ofCode.paint styled i.code ++ " " ++ padRight 22 (issueName i) ++ " " ++
    (Style.plain .cyan).paint styled (bar share 20) ++ " " ++ padLeft 5 (toString count) ++ " (" ++
    padLeft 5 (share.decimal 1) ++ "%)"

def issueLines (styled : Bool) (s : Stats) : List String :=
  if s.totalFindings = 0 then []
  else
    ["", Style.ofCount.paint styled "By Issue:"] ++
      s.byIssue.map fun p => issueLine styled s p.1 p.2

/-- The last line. -/
def footer (styled : Bool) (fixed : Option Nat) (dryRun : Bool) (s : Stats) : List String :=
  if dryRun then [Style.faint.paint styled "Dry run: no files were changed"]
  else if s.fixable != 0 && fixed.isNone then
    [Style.faint.paint styled "Tip: Run with --fix to apply the fixable rewrites"]
  else []

def summary (styled : Bool) (fixed : Option Nat) (dryRun : Bool) (s : Stats) : List String :=
  [Style.faint.paint styled (repeated 50 "━")] ++ countLines styled fixed s ++
    issueLines styled s ++ [Style.faint.paint styled (repeated 50 "─")] ++
    footer styled fixed dryRun s

end Report

end Pare
