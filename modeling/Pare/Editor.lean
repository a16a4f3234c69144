import Pare.Report.Style
import Pare.Work

/-!
**Fixing files.**

An editor fixes the files of a disk: it writes the fixed text back, or only says that it would, or
first asks whether it may.  What it then reports about a file is what is left in the text on the
disk.  Files are fixed one after the other, each on the disk that the work on the file before has
left, whether that came to a result or not.

Main definitions:

* `Pare.Outcome`, `Pare.FileFix` — what happened to one file;
* `Pare.Editor`, `Pare.Editor.choose` — how to fix, and what to do with a fixed text;
* `Pare.Editor.work`, `Pare.Editor.fixFile` — the work on one file, and what comes of it on a disk;
* `Pare.Editor.fixFiles` — a disk after fixing some files in turn;
* `Pare.FixRun` — the reports and failures over some files, and how many patches were written.

Main results:

* `Pare.Editor.fixFiles_append` — fixing files in two rounds is fixing them in one.
-/

set_option relaxedAutoImplicit false
set_option autoImplicit false

namespace Pare

/-- What happened to one file. -/
inductive Outcome where
  /-- There was nothing to fix. -/
  | unchanged
  /-- The fixed text was written back. -/
  | written
  /-- The fixed text would have been written back. -/
  | wouldWrite
  /-- The answer was no. -/
  | declined
deriving DecidableEq, Repr

/-- What happened to one file, how many patches it took, and what is left in it. -/
structure FileFix where
  outcome : Outcome
  applied : Nat
  report : FileReport
deriving DecidableEq, Repr

namespace FileFix

/-- How many patches were written back. -/
def written (f : FileFix) : Nat := if f.outcome = .written then f.applied else 0

/-- The line that tells what happened to a file, unless nothing did. -/
def line? (styled : Bool) (f : FileFix) : Option String :=
  let counted (style : Style) (word : String) : String :=
    style.paint styled word ++ " " ++ f.report.path ++ " (" ++ toString f.applied ++ " fixes)"
  match f.outcome with
  | .unchanged => none
  | .written => some (counted (.strong .green) "Fixed")
  | .wouldWrite => some (counted (.strong .yellow) "Would fix")
  | .declined => some (Style.faint.paint styled "Skipped" ++ " " ++ f.report.path)

end FileFix

/-! ### The editor -/

/-- How to fix files. -/
structure Editor where
  /-- Are files left as they are? -/
  dryRun : Bool
  /-- The answers to whether a file may be written, by its path, where that is asked. -/
  answers : Option (String → Option Bool)
  /-- The greatest number of passes over a file; at least one is made. -/
  maxPasses : Nat

namespace Editor

/-- The answers of somebody who is not there. -/
def nobody (_ : String) : Option Bool := none

/-- What to do with the fixed text of a file. -/
def choose (e : Editor) (path : String) : Except Failure Outcome :=
  if e.dryRun then .ok .wouldWrite
  else
    match e.answers with
    | none => .ok .written
    | some answers =>
        match answers path with
        | some true => .ok .written
        | some false => .ok .declined
        | none => .error .unanswered

/-- The work on one file. -/
def work (e : Editor) (linter : Linter) (read : Reader) (path : String) : Work FileFix := do
  let text ← Work.readFile path
  match ← Work.ofFaulty (fix? read linter.rule text (max e.maxPasses 1)) with
  | none => Work.fail (.malformed path none)
  | some fixed =>
      let left := linter.report path fixed.source fixed.remaining
      if !fixed.isChanged then return ⟨.unchanged, 0, left⟩
      else
        match ← Work.ofAttempt (.ofResult (e.choose path)) with
        | .written =>
            Work.writeFile path fixed.text
            return ⟨.written, fixed.applied, left⟩
        | outcome =>
            let report ← Work.ofAttempt (linter.lintText read path text)
            return ⟨outcome, fixed.applied, report⟩

/-- What happened to a file and the disk after it, or why fixing it failed and the disk by then. -/
def fixFile (e : Editor) (linter : Linter) (read : Reader) (d : Disk) (path : String) :
    ExceptT Setback (Except Fault) (FileFix × Disk) :=
  (e.work linter read path).run d

/-- What happened to some files, one after the other, and the disk after it. -/
def fixFiles (e : Editor) (linter : Linter) (read : Reader) :
    Disk → List String → Except Fault (List (Except Failure FileFix) × Disk)
  | d, [] => return ([], d)
  | d, path :: rest => do
      let (result, after) := Work.outcome (← (e.fixFile linter read d path).run)
      let (results, last) ← fixFiles e linter read after rest
      return (result :: results, last)

/-- Fixing files in two rounds is fixing them in one. -/
theorem fixFiles_append (e : Editor) (linter : Linter) (read : Reader) (d : Disk)
    (first second : List String) :
    e.fixFiles linter read d (first ++ second) = (do
      let (early, middle) ← e.fixFiles linter read d first
      let (late, last) ← e.fixFiles linter read middle second
      return (early ++ late, last)) := by
  induction first generalizing d with
  | nil =>
      simp only [List.nil_append, fixFiles, bind, Except.bind, pure, Except.pure]
      cases e.fixFiles linter read d second <;> rfl
  | cons path rest ih =>
      simp only [List.cons_append, fixFiles]
      cases (e.fixFile linter read d path).run with
      | error fault => rfl
      | ok ended =>
          simp only [bind, Except.bind, pure, Except.pure, ih]
          cases e.fixFiles linter read (Work.outcome ended).2 rest with
          | error fault => rfl
          | ok early =>
              simp only
              cases e.fixFiles linter read early.2 second <;> rfl

end Editor

/-! ### Runs -/

/-- The reports and failures over some files, and how many patches were written back. -/
structure FixRun where
  run : LintRun
  applied : Nat
deriving DecidableEq, Repr

namespace FixRun

/-- The run that the results of some files make up. -/
def ofResults (results : List (Except Failure FileFix)) : FixRun where
  run := .ofResults (results.map (Except.map FileFix.report))
  applied := (results.filterMap Except.toOption).foldl (fun count f => count + f.written) 0

/-- The lines that tell what happened to files. -/
def linesOf (styled : Bool) (results : List (Except Failure FileFix)) : List String :=
  (results.filterMap Except.toOption).filterMap (FileFix.line? styled)

end FixRun

end Pare
