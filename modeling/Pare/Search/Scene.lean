import Pare.Config

/-!
**Searching for files.**

A search starts from targets.  A target that is a file is taken as it is; below another one, the
files with a wanted extension are taken that a walk comes to.  What there is, and what a walk comes
to, is for the file system to say; the search asks it, collects what it is told, and puts it in
order.

Main definitions:

* `Pare.Search.Sighting` — something that a walk comes to;
* `Pare.Search.Scene` — what a search can see of a file system;
* `Pare.Search.filesOf` — the files of a target;
* `Pare.Search.find` — the files of a search, in the order of their paths.

Main results:

* `Pare.Search.dropRepeats_sublist` — what is left when repeated paths are dropped.
-/

set_option relaxedAutoImplicit false
set_option autoImplicit false

namespace Pare

namespace Search

/-! ### What is seen -/

/-- Something that a walk comes to. -/
inductive Sighting where
  | file (path : String)
  /-- A directory, or anything else that is no file. -/
  | other (path : String)
  /-- Something that cannot be looked at. -/
  | unreadable
deriving DecidableEq, Repr

/-- What a search can see: which paths lead to a file, which lead anywhere, and what a walk from a
path comes to, or why there is no walk. -/
structure Scene where
  isFile : String → Bool
  isThere : String → Bool
  walk : String → Except Failure (List Sighting)

/-! ### Targets -/

def targets (config : Config) (root : String) : List String :=
  if config.targets.isEmpty then [root] else config.targets.map (Path.join root)

/-- The file that something is, if it is one to take. -/
def Sighting.taken? (config : Config) : Sighting → Option String
  | file path => if config.takes path then some path else none
  | _ => none

/-- The files of a target. -/
def filesOf (scene : Scene) (config : Config) (target : String) :
    Except Failure (List String) :=
  if scene.isFile target then .ok [target]
  else if scene.isThere target then
    (scene.walk target).map fun sightings => sightings.filterMap (Sighting.taken? config)
  else .error (.search target "path does not exist")

/-! ### Searching -/

/-- Paths without those that have the same parts as the one before them. -/
def dropRepeats : List String → List String
  | [] => []
  | [p] => [p]
  | p :: q :: rest =>
      match dropRepeats (q :: rest) with
      | [] => [p]
      | r :: kept => if Path.same p r then p :: kept else p :: r :: kept

/-- When repeated paths are dropped, the others stay in their order. -/
theorem dropRepeats_sublist (paths : List String) : (dropRepeats paths).Sublist paths := by
  fun_induction dropRepeats paths with
  | case1 => exact .slnil
  | case2 p => exact .refl _
  | case3 p q rest hnil ih => exact (List.nil_sublist _).cons_cons p
  | case4 p q rest r kept hkept hsame ih =>
      rw [hkept] at ih
      exact ((List.sublist_cons_self r kept).trans ih).cons_cons p
  | case5 p q rest r kept hkept hdiffer ih =>
      rw [hkept] at ih
      exact ih.cons_cons p

/-- The files of a search from a root, in the order of their paths. -/
def find (scene : Scene) (config : Config) (root : String) : Except Failure (List String) := do
  let found ← (targets config root).mapM (filesOf scene config)
  return dropRepeats (found.flatten.mergeSort Path.notAfter)

end Search

end Pare
