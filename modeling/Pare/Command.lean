import Pare.Command.Arguments
import Pare.Editor
import Pare.Grammar
import Pare.Report
import Pare.Search.Walk

/-!
**The command.**

A command finds files, looks through them or fixes them, and reports what is left.  It works on a
disk and gives the disk after it, what it prints and its exit code.

Main definitions:

* `Pare.Command.Finish` — how a command ends;
* `Pare.Command.settings` — the settings that a command works with;
* `Pare.Command.lint`, `Pare.Command.run` — the work of a command;
* `Pare.Command.execute` — a command from its words.
-/

set_option relaxedAutoImplicit false
set_option autoImplicit false

namespace Pare

namespace Command

def name : String := "omitparens"

/-! ### Endings -/

/-- How a command ends. -/
structure Finish where
  code : Nat
  /-- What it prints. -/
  printed : String
  /-- The disk after it. -/
  disk : Disk
  /-- What made it fail, if it did. -/
  failure : Option Failure := none
  /-- The number of files in the closing line with the time, if there is such a line. -/
  timed : Option Nat := none
deriving DecidableEq, Repr

namespace Finish

/-- The end of a command that only prints something. -/
def printing (d : Disk) (text : String) : Finish := ⟨0, text, d, none, none⟩

/-- The end of a command that makes no sense. -/
def misused (d : Disk) : Finish := ⟨2, "", d, none, none⟩

/-- The end of a command that fails. -/
def failing (d : Disk) (printed : String) (failure : Failure) : Finish :=
  ⟨1, printed, d, some failure, none⟩

end Finish

/-! ### Settings -/

/-- Settings with what the arguments set in their place. -/
def Arguments.override (a : Arguments) (c : Config) : Config where
  enabled := c.enabled && !a.disable
  severity := c.severity
  targets := if a.paths.isEmpty then c.targets else a.paths
  exclude := c.exclude ++ a.exclude
  extensions := c.extensions
  maxFixPasses := (a.maxPasses.map fun n => max n 1).getD c.maxFixPasses

/-- The settings that a command works with. -/
def settings (d : Disk) (a : Arguments) : Except Failure Config := do
  let found ← match a.config with
    | some path => Config.fromFile d path
    | none => Config.fromDefault d (a.paths.headD ".")
  return a.override found

/-! ### Work -/

/-- The editor that the arguments ask for; nobody is there to answer. -/
def Arguments.editor (a : Arguments) (c : Config) : Editor where
  dryRun := a.dryRun
  answers := if a.interactive then some Editor.nobody else none
  maxPasses := c.maxFixPasses

/-- A run over files, the number of patches if files are fixed, the lines about the files, and the
disk after it. -/
def lint (styled : Bool) (a : Arguments) (c : Config) (d : Disk) (files : List String) :
    Except Fault (LintRun × Option Nat × List String × Disk) := do
  if a.isFixing then
    let (results, after) ← (a.editor c).fixFiles c.linter Context.ofText? d files
    let fixed := FixRun.ofResults results
    let told := if a.format.isHuman then FixRun.linesOf styled results else []
    return (fixed.run, some fixed.applied, told, after)
  else return (← c.linter.lintFiles Context.ofText? d files, none, [], d)

/-- How the arguments ask for a report. -/
def Arguments.report (a : Arguments) (styled : Bool) (fixed : Option Nat) : Report.Options where
  format := a.format
  output := a.output
  base := some "."
  fixed := fixed
  dryRun := a.dryRun
  styled := styled

/-- The end of a command that came to some files. -/
def overFiles (styled : Bool) (a : Arguments) (c : Config) (d : Disk) (files : List String) :
    Except Fault Finish := do
  let (found, fixed, told, after) ← lint styled a c d files
  let printed := Report.lines told
  match Report.deliver (a.report styled fixed) found after with
  | .error failure => return .failing after printed failure
  | .ok (text, last) =>
      return {
        code := if found.totalFindings = 0 then 0 else 1
        printed := printed ++ text
        disk := last
        timed := if a.format.isHuman && !a.quiet then some files.length else none }

/-- The end of a command with arguments. -/
def run (styled : Bool) (a : Arguments) (d : Disk) : Except Fault Finish := do
  match settings d a with
  | .error failure => return .failing d "" failure
  | .ok c =>
      match Search.findFiles d c "." with
      | .error failure => return .failing d "" failure
      | .ok [] =>
          let line := (Style.plain .yellow).paint styled "No JavaScript files found."
          return .printing d (if a.format.isHuman then Report.lines [line] else "")
      | .ok files => overFiles styled a c d files

/-! ### Help -/

/-- The line of an option. -/
def Choice.line (c : Choice) : String :=
  let letter := match c.short? with
    | some letter => String.ofList ['-', letter, ','] ++ " "
    | none => "    "
  let value := match c.value? with
    | some value => " <" ++ value ++ ">"
    | none => ""
  "  " ++ letter ++ padRight 24 ("--" ++ c.long ++ value) ++ "  " ++ c.purpose

def help : String :=
  Report.lines (["Find and remove unnecessary parentheses, brackets and braces in JavaScript", "",
    "Usage: " ++ name ++ " [OPTIONS] [PATHS]...", "", "Options:"] ++ Choice.all.map Choice.line)

/-- The words that may complete a command. -/
def completions : String := Report.lines (Choice.all.map fun c => "--" ++ c.long)

/-- The end of a command from its words. -/
def execute (styled : Bool) (words : List String) (d : Disk) : Except Fault Finish :=
  match request? words with
  | none => .ok (.misused d)
  | some .help => .ok (.printing d help)
  | some .version => .ok (.printing d (Report.lines [name ++ " " ++ Report.version]))
  | some .completions => .ok (.printing d completions)
  | some (.run a) => run styled a d

/-- The closing line with the time, in hundredths of a second. -/
def timeLine (styled : Bool) (files hundredths : Nat) : String :=
  let seconds := (Fraction.mk hundredths 100).decimal 2
  Style.faint.paint styled
    ("⏱  Linted " ++ toString files ++ " files in " ++ seconds ++ "s")

end Command

end Pare
