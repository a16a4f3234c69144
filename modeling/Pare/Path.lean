/-!
**Paths.**

A path is a string of segments between slashes.  Empty segments and single dots say nothing, except
for a slash or a dot in front, so different strings may have the same parts; order, relation to a
base and file names go by the parts.

Main definitions:

* `Pare.Path.Part`, `Pare.Path.parts` — the parts of a path;
* `Pare.Path.notAfter` — the order of paths by their parts;
* `Pare.Path.join`, `Pare.Path.parent`, `Pare.Path.relativeTo?` — paths from other paths;
* `Pare.Path.fileName?`, `Pare.Path.extension?` — the name of a file and its extension.
-/

set_option relaxedAutoImplicit false
set_option autoImplicit false

namespace Pare

namespace Path

/-! ### Parts -/

/-- The parts of a path. -/
inductive Part where
  /-- A slash in front. -/
  | root
  /-- A dot in front. -/
  | here
  /-- Two dots: one directory up. -/
  | up
  | name (text : String)
deriving DecidableEq, Repr

/-- The segments of a path between its slashes. -/
def segments (path : String) : List String := (path.toList.splitOn '/').map String.ofList

/-- Does a segment say nothing, unless it stands in front? -/
def isIdle (segment : String) : Bool := segment == "" || segment == "."

def isAbsolute (path : String) : Bool := path.toList.head? == some '/'

/-- The part that a segment stands for. -/
def partOf (segment : String) : Part := if segment == ".." then .up else .name segment

/-- The parts of a path. -/
def parts (path : String) : List Part :=
  let front :=
    if isAbsolute path then [Part.root]
    else if (segments path).head? == some "." then [Part.here]
    else []
  front ++ ((segments path).filter fun s => !isIdle s).map partOf

/-! ### Order -/

/-- The rank of a part among parts of other forms. -/
def Part.rank : Part → Nat
  | root => 0
  | here => 1
  | up => 2
  | name _ => 3

/-- The order of parts: by form, and names by their characters. -/
def Part.compare : Part → Part → Ordering
  | name a, name b => if a < b then .lt else if a = b then .eq else .gt
  | p, q => Ord.compare p.rank q.rank

/-- The order of lists of parts, part by part. -/
def compareParts : List Part → List Part → Ordering
  | [], [] => .eq
  | [], _ :: _ => .lt
  | _ :: _, [] => .gt
  | p :: ps, q :: qs => (p.compare q).then (compareParts ps qs)

/-- The order of paths by their parts. -/
def compare (a b : String) : Ordering := compareParts (parts a) (parts b)

/-- Does the first path not come after the second? -/
def notAfter (a b : String) : Bool := (compare a b).isLE

/-- Do two paths have the same parts? -/
def same (a b : String) : Bool := parts a == parts b

/-! ### Paths from other paths -/

/-- A path taken from a directory: itself if it is absolute. -/
def join (directory path : String) : String :=
  if isAbsolute path || directory == "" then path
  else if directory.toList.getLast? == some '/' then directory ++ path
  else directory ++ "/" ++ path

/-- Segments without the idle ones at the end. -/
def trimBack (segments : List String) : List String :=
  (segments.reverse.dropWhile isIdle).reverse

/-- A path without its last part; empty if it has but one. -/
def parent (path : String) : String :=
  let front := trimBack (segments path)
  let rest := front.dropLast
  if rest.all (· == "") && isAbsolute path then "/"
  else
    match rest with
    | "." :: _ => "/".intercalate ("." :: trimBack (rest.drop 1))
    | _ => "/".intercalate (trimBack rest)

/-- Segments without the first ones that make up some parts, and the idle ones around what is
left. -/
def dropSegments : Nat → List String → List String
  | 0, segments => segments.dropWhile isIdle
  | _ + 1, [] => []
  | n + 1, s :: rest => if isIdle s then dropSegments (n + 1) rest else dropSegments n rest

/-- What is left of a path below a base, if the base leads to it. -/
def relativeTo? (base path : String) : Option String :=
  let above := parts base
  if above.isPrefixOf (parts path) then
    if above.isEmpty then
      if (trimBack (segments path)).isEmpty then some path
      else some ("/".intercalate (trimBack (segments path)))
    else
      let named := above.filter fun p => p != .root && p != .here
      some ("/".intercalate (trimBack (dropSegments named.length (segments path))))
  else none

/-- A path as it is shown: from a base, if there is one that leads to it. -/
def shown (base : Option String) (path : String) : String :=
  match base with
  | some b => (relativeTo? b path).getD path
  | none => path

/-! ### Names of files -/

/-- The last part of a path, if it is a name. -/
def fileName? (path : String) : Option String :=
  match (parts path).getLast? with
  | some (.name text) => some text
  | _ => none

/-- The part of a name after its last dot, unless that dot comes first. -/
def extensionOf? (name : String) : Option String :=
  let reversed := name.toList.reverse
  let tail := reversed.takeWhile fun c => c != '.'
  if tail.length + 1 < reversed.length then some (String.ofList tail.reverse) else none

/-- The extension of the file that a path names. -/
def extension? (path : String) : Option String := (fileName? path).bind extensionOf?

end Path

end Pare
