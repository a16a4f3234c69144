import Pare.Path

/-!
**Files.**

A disk holds directories and files by their places below its top, which is the working directory as
well.  The text of a file is known if its bytes are text at all.

Main definitions:

* `Pare.Place` — where a directory or file is, as names from the top of a disk down;
* `Pare.Entry`, `Pare.Disk` — what a disk holds;
* `Pare.Disk.at?`, `Pare.Disk.read?` — what is at a path;
* `Pare.Disk.write?`, `Pare.Disk.create`, `Pare.Disk.remove` — disks after changes.

Main results:

* `Pare.Disk.find?_put` — what is found after something is put somewhere.
-/

set_option relaxedAutoImplicit false
set_option autoImplicit false

namespace Pare

/-- Where a directory or file is, as names from the top of a disk down. -/
abbrev Place := List String

/-- The place that parts of a path lead to, from another one; none if they lead above the top. -/
def Place.follow : List Path.Part → Place → Option Place
  | [], place => some place
  | .root :: rest, _ => follow rest []
  | .here :: rest, place => follow rest place
  | .up :: rest, place => if place.isEmpty then none else follow rest place.dropLast
  | .name text :: rest, place => follow rest (place ++ [text])

/-- The place that a path leads to, an absolute one from the top and another one from the working
directory; none for the empty path. -/
def Place.ofPath? (path : String) : Option Place :=
  if path == "" then none else Place.follow (Path.parts path) []

/-- What a disk holds. -/
inductive Entry where
  | directory
  /-- A file with its text, if its bytes are text. -/
  | file (text : Option String)
deriving DecidableEq, Repr

/-- Directories and files by their places. -/
structure Disk where
  entries : List (Place × Entry)
deriving DecidableEq, Repr

namespace Disk

/-- The disk with nothing on it. -/
def blank : Disk := ⟨[]⟩

/-! ### What is where -/

/-- What is at a place; the top is always there. -/
def find? (d : Disk) (place : Place) : Option Entry :=
  if place = [] then some .directory else d.entries.lookup place

/-- What is at a path.  A slash at the end asks for a directory. -/
def at? (d : Disk) (path : String) : Option Entry := do
  let place ← Place.ofPath? path
  let entry ← d.find? place
  let asked := (Path.segments path).getLast?.any Path.isIdle
  if asked && entry != .directory then none else some entry

/-- Is there a file at a path? -/
def isFile (d : Disk) (path : String) : Bool :=
  match d.at? path with
  | some (.file _) => true
  | _ => false

/-- The text of the file at a path, if there is one and its bytes are text. -/
def read? (d : Disk) (path : String) : Option String :=
  match d.at? path with
  | some (.file text) => text
  | _ => none

/-! ### Changes -/

/-- The disk with something put at a place. -/
def put (d : Disk) (place : Place) (entry : Entry) : Disk :=
  ⟨(place, entry) :: d.entries.filter fun e => e.1 != place⟩

/-- What is found after something is put somewhere. -/
theorem find?_put (d : Disk) (p q : Place) (entry : Entry) (h : p ≠ []) :
    (d.put p entry).find? q = if q = p then some entry else d.find? q := by
  by_cases hq : q = p
  · subst hq
    simp [find?, put, h]
  · by_cases hn : q = []
    · simp [find?, hn, Ne.symm h]
    · have hb : (q == p) = false := by simpa using hq
      simp only [find?, put, hn, hq, if_false, List.lookup_cons, hb]
      induction d.entries with
      | nil => rfl
      | cons e rest ih =>
          obtain ⟨place, found⟩ := e
          by_cases he : place = p
          · subst he
            simpa [List.lookup_cons, hb] using ih
          · simp [he, List.lookup_cons, ih]

/-- Is there a directory at a place? -/
def isDirectory (d : Disk) (place : Place) : Bool := d.find? place == some .directory

/-- The disk with a text written to a file, if the directory of the file is there and there is no
directory in its place. -/
def write? (d : Disk) (path : String) (text : String) : Option Disk := do
  let place ← Place.ofPath? path
  let asked := (Path.segments path).getLast?.any Path.isIdle
  if asked || d.isDirectory place || !d.isDirectory place.dropLast then none
  else some (d.put place (.file (some text)))

/-- The disk with a directory at a place and all directories above it. -/
def makeDirectories (d : Disk) (place : Place) : Disk :=
  ((List.range place.length).map fun n => place.take (n + 1)).foldl
    (fun d p => if (d.find? p).isSome then d else d.put p .directory) d

/-- The disk with a file at a path and all directories above it. -/
def create (d : Disk) (path : String) (text : Option String) : Disk :=
  match Place.ofPath? path with
  | some place => (d.makeDirectories place.dropLast).put place (.file text)
  | none => d

/-- The disk with a directory at a path. -/
def createDirectory (d : Disk) (path : String) : Disk :=
  match Place.ofPath? path with
  | some place => d.makeDirectories place
  | none => d

/-- The disk without what is at a path and below it. -/
def remove (d : Disk) (path : String) : Disk :=
  match Place.ofPath? path with
  | some place => ⟨d.entries.filter fun e => !place.isPrefixOf e.1⟩
  | none => d

/-- All files with text, by their paths. -/
def texts (d : Disk) : List (String × String) :=
  d.entries.filterMap fun e =>
    match e.2 with
    | .file (some text) => some ("/".intercalate e.1, text)
    | _ => none

end Disk

end Pare
