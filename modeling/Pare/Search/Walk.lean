import Pare.Search.Ignore
import Pare.Search.Scene

/-!
**Walking a disk.**

A walk from a directory comes to all that is below it, unless it, or a directory on the way to it,
is left out.  What is left out is settled by the first of these that says something: the patterns of
the settings, ignore files, the ignore files of a repository, and whether the name is hidden.

Main definitions:

* `Pare.Search.Start` — where a walk starts;
* `Pare.Search.seenFrom` — a path as the lines of a directory see it;
* `Pare.Search.verdict` — what the ignore files on a disk say about a place;
* `Pare.Search.isSkipped` — is a place left out?
* `Pare.Search.walk` — what a walk comes to;
* `Pare.Search.Scene.ofDisk`, `Pare.Search.findFiles` — a disk as a search sees it, and a search of
  a disk.
-/

set_option relaxedAutoImplicit false
set_option autoImplicit false

namespace Pare

namespace Search

/-! ### Paths of places -/

/-- Where a walk starts: a directory, and the path that leads to it. -/
structure Start where
  path : String
  place : Place
deriving DecidableEq, Repr

/-- The path of a place at or below the start of a walk. -/
def Start.pathTo (start : Start) (place : Place) : String :=
  (place.drop start.place.length).foldl Path.join start.path

/-- A path without a dot and a slash in front. -/
def undotted (path : String) : String :=
  match path.toList with
  | '.' :: '/' :: rest => String.ofList rest
  | _ => path

/-- A text without another one in front, if that stands in front. -/
def without (front text : String) : String :=
  if front.toList.isPrefixOf text.toList then String.ofList (text.toList.drop front.length)
  else text

/-- A path as the lines of a directory see it.  Only where both are spelled alike, up to a dot and a
slash in front, is it seen from the directory on. -/
def seenFrom (directory path : String) : String :=
  let base := undotted directory
  let path := undotted (undotted path)
  if base == "." || !path.toList.contains '/' then path
  else if base.toList.isPrefixOf path.toList then without "/" (without base path)
  else path

/-- A place as a path from a directory above it. -/
def below (directory place : Place) : String := "/".intercalate (place.drop directory.length)

/-- A place as the lines of a directory above it see it.  Directories above the start of a walk see
it from themselves on, however it is spelled. -/
def Start.seenIn (start : Start) (directory place : Place) : String :=
  if start.place.isPrefixOf directory then
    seenFrom (start.pathTo directory) (start.pathTo place)
  else below directory place

/-! ### Ignore files -/

/-- The lines of the ignore file at a place below a directory. -/
def linesIn (d : Disk) (file directory : Place) : List IgnoreLine :=
  match d.find? (directory ++ file) with
  | some (.file (some text)) => ignoreLines text
  | _ => []

/-- The directories above a place, from the nearest one up. -/
def above (place : Place) : List Place :=
  ((List.range place.length).map fun n => place.take n).reverse

/-- What the ignore file in a directory says about a place. -/
def verdictIn (d : Disk) (start : Start) (place file directory : Place) : Option Verdict :=
  verdictOf (linesIn d file directory) (start.seenIn directory place) (d.isDirectory place)

def isRepository (d : Disk) (directory : Place) : Bool :=
  (d.find? (directory ++ [".git"])).isSome

/-- The directories above a place up to the top of its repository, if it is in one. -/
def repositoryAbove (d : Disk) (place : Place) : List Place :=
  let (inner, outer) := (above place).span fun q => !isRepository d q
  match outer with
  | top :: _ => inner ++ [top]
  | [] => []

/-- What the ignore files on a disk say about a place.  Nearer files come before those further up,
and plain ignore files before those of a repository. -/
def verdict (d : Disk) (start : Start) (place : Place) : Option Verdict :=
  let inRepository := repositoryAbove d place
  ((above place).findSome? (verdictIn d start place [".ignore"])).or
    ((inRepository.findSome? (verdictIn d start place [".gitignore"])).or
      (inRepository.findSome? (verdictIn d start place [".git", "info", "exclude"])))

/-! ### Walking -/

/-- The lines of the patterns of what to leave out, if they are all patterns.  A pattern is a line
that takes back, so that no sign in front of it means anything. -/
def exclusions (patterns : List String) : Option (List IgnoreLine) :=
  (patterns.mapM fun p => (IgnoreLine.read ("!" ++ p)).toOption).map fun lines =>
    lines.filterMap id

def isHidden (name : String) : Bool := name.toList.head? == some '.'

/-- Is a place left out of a walk? -/
def isSkipped (d : Disk) (excluded : List IgnoreLine) (start : Start) (place : Place) : Bool :=
  (excluded.any fun l => l.applies (start.seenIn start.place place) (d.isDirectory place)) ||
    match verdict d start place with
    | some .leftOut => true
    | some .takenBack => false
    | none => place.getLast?.any isHidden

/-- The places from a directory down to one below it. -/
def wayTo (directory place : Place) : List Place :=
  (List.range (place.length - directory.length)).map fun n => place.take (directory.length + n + 1)

/-- What a walk comes to. -/
def reached (d : Disk) (excluded : List IgnoreLine) (start : Start) : List Sighting :=
  d.entries.filterMap fun e =>
    if start.place.isPrefixOf e.1 && (wayTo start.place e.1).all fun p =>
        !isSkipped d excluded start p
    then
      match e.2 with
      | .file _ => some (.file (start.pathTo e.1))
      | .directory => some (.other (start.pathTo e.1))
    else none

/-- What a walk from a path comes to, if what is to be left out is said by patterns. -/
def walk (d : Disk) (exclude : List String) (path : String) : Except Failure (List Sighting) :=
  match Place.ofPath? path, exclusions exclude with
  | some place, some excluded => .ok (reached d excluded ⟨path, place⟩)
  | _, _ => .error (.search path "")

/-! ### Searching -/

/-- What a search can see of a disk, where some patterns say what is to be left out. -/
def Scene.ofDisk (d : Disk) (exclude : List String) : Scene where
  isFile := d.isFile
  isThere path := (d.at? path).isSome
  walk := Search.walk d exclude

/-- The files of a search of a disk from a root, in the order of their paths. -/
def findFiles (d : Disk) (config : Config) (root : String) : Except Failure (List String) :=
  find (.ofDisk d config.exclude) config root

end Search

end Pare
