import Mathlib.Data.List.Basic
import Pare.Search.Walk
import Pare.Proofs.Extensions
import Pare.Proofs.Outcome
import Pare.Proofs.Paths

/-!
**What a search finds does not depend on the order of its targets.**

Targets may repeat each other, lie inside each other, and name one file in several spellings; and
the first one that cannot be searched ends the search.  Still the order in which they are given
makes no difference: whether there is a result depends on each target by itself, and the files are
sorted by the parts of their paths, in which different spellings agree, so that what belongs
together stands side by side when repeated paths are dropped.  Which spelling of a path is kept may
depend on the order; which files are found does not.

Nothing is assumed of what a walk comes to: it may fail, meet what it cannot look at, leave out
what it likes, and come to one file twice.  A search of a disk is the case of the walk that a disk
gives.

Main definitions:

* `Pare.Search.Searchable` — a target that has files to take, or a reason why there are none;
* `Pare.Search.Supplies` — the files that a target stands for;
* `Pare.Search.Collected` — the files of some targets, once each, in the order of their paths.

Main results:

* `Pare.Search.exists_filesOf_iff`, `Pare.Search.mem_filesOf` — what a target gives;
* `Pare.Search.pairwise_dropRepeats` — sorted paths without repeats are in strict order;
* `Pare.Search.collected_of_collect` — **a search collects the files of its targets**;
* `Pare.Search.Collected.map_parts_eq` — there is one such list, but for how paths are spelled;
* `Pare.Search.find_any_order` — **the order of the targets makes no difference**.
-/

set_option relaxedAutoImplicit false
set_option autoImplicit false

namespace Pare

namespace Search

variable {scene : Scene} {config : Config}

/-! ### Targets -/

/-- A target that can be searched: a file, or something else that is there and can be walked. -/
def Searchable (scene : Scene) (target : String) : Prop :=
  scene.isFile target = true ∨
    scene.isThere target = true ∧ ∃ sightings, scene.walk target = .ok sightings

/-- The files that a target stands for. -/
inductive Supplies (scene : Scene) (config : Config) (target : String) : String → Prop
  /-- A target that is a file stands for itself, whatever its extension. -/
  | itself (hfile : scene.isFile target = true) : Supplies scene config target target
  /-- Another target stands for the files with a wanted extension that a walk from it comes to. -/
  | walked {sightings : List Sighting} {path : String} (hother : scene.isFile target = false)
      (hthere : scene.isThere target = true) (hwalk : scene.walk target = .ok sightings)
      (hseen : .file path ∈ sightings) (hwanted : config.Wants path) :
      Supplies scene config target path

/-- The files to take among what a walk comes to. -/
theorem mem_filterMap_taken? {sightings : List Sighting} {path : String} :
    path ∈ sightings.filterMap (Sighting.taken? config) ↔
      .file path ∈ sightings ∧ config.Wants path := by
  rw [List.mem_filterMap, ← Config.takes_iff]
  constructor
  · rintro ⟨sighting, hseen, htaken⟩
    cases sighting with
    | file other =>
        obtain ⟨htakes, rfl⟩ : config.takes other = true ∧ other = path := by
          simpa [Sighting.taken?] using htaken
        exact ⟨hseen, htakes⟩
    | other | unreadable => simp [Sighting.taken?] at htaken
  · rintro ⟨hseen, htakes⟩
    exact ⟨_, hseen, if_pos htakes⟩

/-- A target has a list of files exactly if it can be searched. -/
theorem exists_filesOf_iff {target : String} :
    (∃ files, filesOf scene config target = .ok files) ↔ Searchable scene target := by
  rw [Searchable, filesOf]
  cases scene.isFile target with
  | true => simp
  | false =>
      cases scene.isThere target with
      | false => simp
      | true => cases scene.walk target <;> simp [Except.map]

/-- The files of a target are those that it stands for. -/
theorem mem_filesOf {target : String} {files : List String}
    (h : filesOf scene config target = .ok files) {path : String} :
    path ∈ files ↔ Supplies scene config target path := by
  unfold filesOf at h
  -- the target is a file, or is walked, or is not there
  split at h
  case isTrue hfile =>
    obtain rfl := Except.ok.inj h
    rw [List.mem_singleton]
    constructor
    · rintro rfl
      exact .itself hfile
    · rintro (_ | ⟨hother⟩)
      · rfl
      · simp [hfile] at hother
  case isFalse hother =>
    rw [Bool.not_eq_true] at hother
    split at h
    case isFalse => cases h
    case isTrue hthere =>
      cases hwalk : scene.walk target with
      | error failure => simp [hwalk, Except.map] at h
      | ok sightings =>
          rw [hwalk] at h
          obtain rfl := Except.ok.inj h
          rw [mem_filterMap_taken?]
          constructor
          · rintro ⟨hseen, hwanted⟩
            exact .walked hother hthere hwalk hseen hwanted
          · rintro (hfile | ⟨-, -, hwalk', hseen, hwanted⟩)
            · simp [hother] at hfile
            · obtain rfl := Except.ok.inj (hwalk.symm.trans hwalk')
              exact ⟨hseen, hwanted⟩

/-! ### Paths without repeats -/

/-- Of each path, one with the same parts is kept. -/
theorem exists_mem_dropRepeats {paths : List String} {p : String} (h : p ∈ paths) :
    ∃ q ∈ dropRepeats paths, Path.parts q = Path.parts p := by
  fun_induction dropRepeats paths with
  | case1 => simp at h
  | case2 a => exact ⟨p, h, rfl⟩
  | case3 a b rest hnil ih =>
      rcases List.mem_cons.1 h with rfl | h
      · exact ⟨p, List.mem_cons_self .., rfl⟩
      · obtain ⟨q, hq, -⟩ := ih h
        simp [hnil] at hq
  | case4 a b rest r kept hkept hsame ih =>
      have hparts : Path.parts a = Path.parts r := by simpa [Path.same] using hsame
      rcases List.mem_cons.1 h with rfl | h
      · exact ⟨p, List.mem_cons_self .., rfl⟩
      · -- the one that was kept so far may be the one that makes way for `a`
        obtain ⟨q, hq, hqp⟩ := ih h
        rw [hkept] at hq
        rcases List.mem_cons.1 hq with rfl | hq
        · exact ⟨a, List.mem_cons_self .., hparts.trans hqp⟩
        · exact ⟨q, List.mem_cons_of_mem a hq, hqp⟩
  | case5 a b rest r kept hkept hdiffer ih =>
      rcases List.mem_cons.1 h with rfl | h
      · exact ⟨p, List.mem_cons_self .., rfl⟩
      · obtain ⟨q, hq, hqp⟩ := ih h
        rw [hkept] at hq
        exact ⟨q, List.mem_cons_of_mem a hq, hqp⟩

/-- Sorted paths without repeats are in strict order. -/
theorem pairwise_dropRepeats {paths : List String}
    (h : paths.Pairwise fun p q => Path.notAfter p q = true) :
    (dropRepeats paths).Pairwise fun p q => Path.compare p q = .lt := by
  fun_induction dropRepeats paths with
  | case1 => exact .nil
  | case2 p => exact List.pairwise_singleton ..
  | case3 p q rest hnil ih => exact List.pairwise_singleton ..
  | case4 p q rest r kept hkept hsame ih =>
      have hparts : Path.parts p = Path.parts r := by simpa [Path.same] using hsame
      have hstrict := ih (List.pairwise_cons.1 h).2
      rw [hkept] at hstrict
      obtain ⟨hr, hrest⟩ := List.pairwise_cons.1 hstrict
      refine List.pairwise_cons.2 ⟨fun k hk => ?_, hrest⟩
      rw [Path.compare_congr hparts]
      exact hr k hk
  | case5 p q rest r kept hkept hdiffer ih =>
      obtain ⟨hp, hsorted⟩ := List.pairwise_cons.1 h
      have hstrict := ih hsorted
      have hsub := dropRepeats_sublist (q :: rest)
      rw [hkept] at hstrict hsub
      have hne : Path.parts p ≠ Path.parts r := by simpa [Path.same] using hdiffer
      have hpr := Path.compare_eq_lt (hp r (hsub.subset (List.mem_cons_self ..))) hne
      refine List.pairwise_cons.2 ⟨fun k hk => ?_, hstrict⟩
      rcases List.mem_cons.1 hk with rfl | hk
      · exact hpr
      · exact Path.compare_lt_trans hpr ((List.pairwise_cons.1 hstrict).1 k hk)

/-! ### Collecting files -/

/-- The files of some targets, in the order of their paths. -/
def collect (scene : Scene) (config : Config) (targets : List String) :
    Except Failure (List String) := do
  let found ← targets.mapM (filesOf scene config)
  return dropRepeats (found.flatten.mergeSort Path.notAfter)

/-- A search collects the files of its targets. -/
theorem find_eq_collect (scene : Scene) (config : Config) (root : String) :
    find scene config root = collect scene config (targets config root) := rfl

/-- What a list of files has to be for some targets: in strict order of paths, made up of files that
the targets stand for, and with each of these in it, in one of its spellings. -/
structure Collected (scene : Scene) (config : Config) (targets files : List String) : Prop where
  increasing : files.Pairwise fun p q => Path.compare p q = .lt
  supplied : ∀ p ∈ files, ∃ t ∈ targets, Supplies scene config t p
  complete : ∀ t ∈ targets, ∀ p, Supplies scene config t p →
    ∃ q ∈ files, Path.parts q = Path.parts p

/-- There is a list of files exactly if each target can be searched. -/
theorem exists_collect_iff {targets : List String} :
    (∃ files, collect scene config targets = .ok files) ↔ ∀ t ∈ targets, Searchable scene t := by
  have hmapM : (∃ files, collect scene config targets = .ok files) ↔
      ∃ found, targets.mapM (filesOf scene config) = .ok found := by
    constructor
    · rintro ⟨files, h⟩
      obtain ⟨found, hfound, -⟩ := bind_eq_ok.1 h
      exact ⟨found, hfound⟩
    · rintro ⟨found, hfound⟩
      exact ⟨_, bind_eq_ok.2 ⟨found, hfound, rfl⟩⟩
  rw [hmapM, exists_mapM_iff]
  exact forall₂_congr fun t _ => exists_filesOf_iff

/-- What is collected are the files of the targets. -/
theorem collected_of_collect {targets files : List String}
    (h : collect scene config targets = .ok files) : Collected scene config targets files := by
  obtain ⟨found, hfound, h⟩ := bind_eq_ok.1 h
  obtain rfl := Except.ok.inj h
  have hmem : ∀ p, p ∈ found.flatten.mergeSort Path.notAfter ↔
      ∃ t ∈ targets, Supplies scene config t p := by
    intro p
    rw [List.mem_mergeSort, mem_flatten_of_mapM hfound]
    constructor
    · rintro ⟨t, ht, files, hfiles, hp⟩
      exact ⟨t, ht, (mem_filesOf hfiles).1 hp⟩
    · rintro ⟨t, ht, hp⟩
      obtain ⟨files, hfiles⟩ := exists_of_mapM hfound ht
      exact ⟨t, ht, files, hfiles, (mem_filesOf hfiles).2 hp⟩
  constructor
  · refine pairwise_dropRepeats (List.pairwise_mergeSort ?_ ?_ _)
    · exact fun a b c => Path.notAfter_trans
    · exact fun a b => Path.notAfter_total a b
  · intro p hp
    exact (hmem p).1 ((dropRepeats_sublist _).subset hp)
  · intro t ht p hp
    exact exists_mem_dropRepeats ((hmem p).2 ⟨t, ht, hp⟩)

/-- The same files are collected for targets in another order. -/
theorem Collected.perm {targets targets' files : List String} (h : targets.Perm targets')
    (hfiles : Collected scene config targets files) : Collected scene config targets' files where
  increasing := hfiles.increasing
  supplied := by
    intro p hp
    obtain ⟨t, ht, hsupplies⟩ := hfiles.supplied p hp
    exact ⟨t, h.mem_iff.1 ht, hsupplies⟩
  complete := fun t ht => hfiles.complete t (h.mem_iff.2 ht)

/-- A path of a list that was collected is one in every other, in one of its spellings. -/
theorem Collected.mem_map_parts {targets files files' : List String}
    (h : Collected scene config targets files) (h' : Collected scene config targets files')
    {ps : List Path.Part} (hps : ps ∈ files.map Path.parts) : ps ∈ files'.map Path.parts := by
  obtain ⟨p, hp, rfl⟩ := List.mem_map.1 hps
  obtain ⟨t, ht, hsupplies⟩ := h.supplied p hp
  exact List.mem_map.2 (h'.complete t ht p hsupplies)

/-- There is one list of the files of some targets, but for how the paths are spelled. -/
theorem Collected.map_parts_eq {targets files files' : List String}
    (h : Collected scene config targets files) (h' : Collected scene config targets files') :
    files.map Path.parts = files'.map Path.parts :=
  Path.map_parts_eq h.increasing h'.increasing fun _ =>
    ⟨h.mem_map_parts h', h'.mem_map_parts h⟩

/-! ### Searches -/

theorem targets_perm {targets' : List String} (h : config.targets.Perm targets') (root : String) :
    (targets config root).Perm (targets { config with targets := targets' } root) := by
  have hempty : config.targets.isEmpty = targets'.isEmpty := by
    rw [Bool.eq_iff_iff, List.isEmpty_iff, List.isEmpty_iff, ← List.length_eq_zero_iff,
      ← List.length_eq_zero_iff, h.length_eq]
  unfold targets
  rw [hempty]
  split
  · exact .refl _
  · exact h.map _

/-- Files that come in the order of their paths are not moved. -/
theorem find_of_pairwise (root : String) {found : List (List String)}
    (hfound : (targets config root).mapM (filesOf scene config) = .ok found)
    (hsorted : found.flatten.Pairwise fun p q => Path.notAfter p q = true) :
    find scene config root = .ok (dropRepeats found.flatten) := by
  rw [find, hfound, ok_bind, List.mergeSort_of_pairwise hsorted]
  rfl

/-- **The order of the targets makes no difference**, whatever there is, and whatever a walk from
each of them comes to.  A search has a result exactly if each of its targets is a file, or is there
and can be walked; so it has one for all orders of the targets or for none.  The result holds, once
each and in strict order of their paths, the targets that are files and the files with a wanted
extension that a walk from the other targets comes to; and for all orders of the targets it is the
same list of paths. -/
theorem find_any_order (scene : Scene) (config : Config) (root : String) {targets' : List String}
    (hperm : config.targets.Perm targets') :
    ((∃ files, find scene config root = .ok files) ↔
      ∀ t ∈ targets config root, Searchable scene t) ∧
    ((∃ files, find scene { config with targets := targets' } root = .ok files) ↔
      ∃ files, find scene config root = .ok files) ∧
    ∀ files files', find scene config root = .ok files →
      find scene { config with targets := targets' } root = .ok files' →
      Collected scene config (targets config root) files ∧
      Collected scene config (targets config root) files' ∧
      files'.map Path.parts = files.map Path.parts := by
  have hall := targets_perm hperm root
  have hother : find scene { config with targets := targets' } root =
      collect scene config (targets { config with targets := targets' } root) := rfl
  rw [find_eq_collect, hother, exists_collect_iff, exists_collect_iff]
  refine ⟨Iff.rfl, forall_congr' fun t => ?_, fun files files' h h' => ?_⟩
  · rw [hall.mem_iff]
  · have hfiles := collected_of_collect h
    have hfiles' := (collected_of_collect h').perm hall.symm
    exact ⟨hfiles, hfiles', hfiles'.map_parts_eq hfiles⟩

/-- A disk with a directory that holds a program and some other file. -/
def sourceDisk : Disk :=
  ⟨[(["s"], .directory), (["s", "a.js"], .file (some "a")), (["s", "b.ts"], .file (some "b"))]⟩

/-- The settings that name some targets and nothing else. -/
def aimedAt (targets : List String) : Config := { targets := targets }

/-- A file that is a target twice, by itself and in a directory, is found once, in the spelling that
comes first; a file that is a target needs no wanted extension. -/
theorem find_any_order_spelled :
    ["/s/b.ts", "s", "s//a.js"].Perm ["/s/b.ts", "s//a.js", "s"] ∧
    findFiles sourceDisk (aimedAt ["/s/b.ts", "s", "s//a.js"]) "" = .ok ["/s/b.ts", "s/a.js"] ∧
    findFiles sourceDisk (aimedAt ["/s/b.ts", "s//a.js", "s"]) "" = .ok ["/s/b.ts", "s//a.js"] ∧
    ["/s/b.ts", "s//a.js"].map Path.parts = ["/s/b.ts", "s/a.js"].map Path.parts := by
  have hperm : ["/s/b.ts", "s", "s//a.js"].Perm ["/s/b.ts", "s//a.js", "s"] := by decide
  have hfound : (targets (aimedAt ["/s/b.ts", "s", "s//a.js"]) "").mapM
      (filesOf (.ofDisk sourceDisk []) (aimedAt ["/s/b.ts", "s", "s//a.js"])) =
      .ok [["/s/b.ts"], ["s/a.js"], ["s//a.js"]] := rfl
  have hfound' : (targets (aimedAt ["/s/b.ts", "s//a.js", "s"]) "").mapM
      (filesOf (.ofDisk sourceDisk []) (aimedAt ["/s/b.ts", "s//a.js", "s"])) =
      .ok [["/s/b.ts"], ["s//a.js"], ["s/a.js"]] := rfl
  have hfind : findFiles sourceDisk (aimedAt ["/s/b.ts", "s", "s//a.js"]) "" =
      .ok ["/s/b.ts", "s/a.js"] := find_of_pairwise "" hfound (by decide)
  have hfind' : findFiles sourceDisk (aimedAt ["/s/b.ts", "s//a.js", "s"]) "" =
      .ok ["/s/b.ts", "s//a.js"] := find_of_pairwise "" hfound' (by decide)
  obtain ⟨-, -, hsame⟩ := find_any_order (.ofDisk sourceDisk [])
    (aimedAt ["/s/b.ts", "s", "s//a.js"]) "" hperm
  exact ⟨hperm, hfind, hfind', (hsame _ _ hfind hfind').2.2⟩

end Search

end Pare
