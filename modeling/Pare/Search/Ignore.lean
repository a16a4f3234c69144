import Pare.Search.Glob
import Pare.Text.Class

/-!
**What is left out of a search.**

A line of an ignore file is a pattern.  A pattern without a slash before its end matches at any
depth; with one, it matches from the directory of the file on.  A slash at the end restricts it to
directories, an exclamation mark in front takes back what earlier lines leave out, and of all lines
that match the last one counts.

Main definitions:

* `Pare.Verdict` — what ignore lines say about a path;
* `Pare.IgnoreLine`, `Pare.IgnoreLine.read` — a line of an ignore file;
* `Pare.verdictOf` — what some lines say about a path.
-/

set_option relaxedAutoImplicit false
set_option autoImplicit false

namespace Pare

/-- What ignore lines say about a path. -/
inductive Verdict where
  | leftOut
  | takenBack
deriving DecidableEq, Repr

/-- A line of an ignore file. -/
structure IgnoreLine where
  pattern : List Glob.Token
  /-- Does the line take back what earlier lines leave out? -/
  takesBack : Bool
  /-- Is the line only about directories? -/
  onlyDirectories : Bool
deriving Repr

namespace IgnoreLine

/-- A line without the blanks at its end, unless the last one is escaped. -/
def trimEnd (line : String) : String :=
  let reversed := line.toList.reverse
  if " \x5c".toList.isPrefixOf reversed then line
  else String.ofList (reversed.dropWhile Text.isBlank).reverse

/-- A text without its last character. -/
def dropLast (line : String) : String := String.ofList line.toList.dropLast

def endsWith (line tail : String) : Bool := tail.toList.isSuffixOf line.toList

/-- The pattern that a line stands for, `anchored` telling whether it is bound to its directory. -/
def spelled (anchored : Bool) (line : String) : String :=
  let free := !anchored && !line.toList.contains '/'
  let rooted := if free && line != "**" then "**/" ++ line else line
  if endsWith rooted "/**" then rooted ++ "/*" else rooted

/-- A line of an ignore file: nothing if it is a comment or says nothing, a failure if it is no
pattern. -/
def read (line : String) : Except Unit (Option IgnoreLine) := do
  if line.toList.head? == some '#' then return none
  let line := trimEnd line
  if line == "" then return none
  let escaped := "\x5c!".toList.isPrefixOf line.toList || "\x5c#".toList.isPrefixOf line.toList
  let takesBack := !escaped && line.toList.head? == some '!'
  let line := if escaped || takesBack then String.ofList (line.toList.drop 1) else line
  let anchored := line.toList.head? == some '/'
  let line := if anchored && !escaped then String.ofList (line.toList.drop 1) else line
  let onlyDirectories := endsWith line "/"
  let line := if onlyDirectories then dropLast line else line
  let line := if onlyDirectories && endsWith line "\x5c" then dropLast line else line
  match Glob.parse? (spelled anchored line) with
  | some pattern => return some ⟨pattern, takesBack, onlyDirectories⟩
  | none => throw ()

/-- Is the line about a path? -/
def applies (l : IgnoreLine) (path : String) (isDirectory : Bool) : Bool :=
  (!l.onlyDirectories || isDirectory) && Glob.isMatch l.pattern path

/-- What the line says about the paths that it is about. -/
def verdict (l : IgnoreLine) : Verdict := if l.takesBack then .takenBack else .leftOut

end IgnoreLine

/-- The lines of an ignore file that are patterns. -/
def ignoreLines (text : String) : List IgnoreLine :=
  let cs := text.toList
  let body := if cs.head? == some '\uFEFF' then String.ofList (cs.drop 1) else text
  (body.splitOn "\n").filterMap fun line => (IgnoreLine.read (dropReturn line)).toOption.join
where
  /-- A line without the carriage return at its end. -/
  dropReturn (line : String) : String :=
    if IgnoreLine.endsWith line "\r" then IgnoreLine.dropLast line else line

/-- What some lines say about a path: the last one that is about it counts. -/
def verdictOf (lines : List IgnoreLine) (path : String) (isDirectory : Bool) : Option Verdict :=
  (lines.reverse.find? fun l => l.applies path isDirectory).map IgnoreLine.verdict

end Pare
