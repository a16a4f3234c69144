import Mathlib.Data.List.Pairwise
import Mathlib.Data.List.Perm.Basic
import Mathlib.Logic.Relation
import Pare.Proofs.Editing
import Pare.Proofs.Paths
import Pare.Proofs.Related

/-!
**Fixing many files does not depend on their order.**

Files are fixed one after the other, or at once.  At once means that the work on one file, which
looks at the file and later writes to it, may come between any two steps of the work on another one.
As long as the paths lead to different files, this makes no difference: what is looked at has not
been touched by the others, and whether a file can be written depends on the directories, which
nobody changes.  So in every interleaving the result for a file is the one that comes of fixing it
alone, on the disk as it was at first; and as the reports are put in the order of their paths, and
patches are only counted, the order of the files is lost.

Main definitions:

* `Pare.Path.Apart` — two paths that have different parts and lead to different files;
* `Pare.Plan`, `Pare.Editor.plan` — what is to be done with a file whose text is known;
* `Pare.Editor.Step`, `Pare.Editor.Completes` — one step of the work on some files, and the work
  done in some interleaving;
* `Pare.Editor.Underway` — what holds in between.

Main results:

* `Pare.Editor.fixFiles_cons` — fixing files one after the other in terms of plans;
* `Pare.Editor.completes_of_fixFiles` — one after the other is one of the interleavings;
* `Pare.Editor.Underway.step`, `Pare.Editor.Underway.run` — a step keeps what holds in between, and
  so does every interleaving;
* `Pare.Editor.Completes.alone` — what comes of a file in an interleaving comes of it alone;
* `Pare.Editor.fixFiles_any_order` — **the order of the files makes no difference**.
-/

set_option relaxedAutoImplicit false
set_option autoImplicit false

namespace Pare

/-! ### Paths of different files -/

/-- Two paths that have different parts and do not lead to the same place. -/
def Path.Apart (a b : String) : Prop :=
  Path.parts a ≠ Path.parts b ∧ (Place.ofPath? a = none ∨ Place.ofPath? a ≠ Place.ofPath? b)

instance (a b : String) : Decidable (Path.Apart a b) := inferInstanceAs (Decidable (_ ∧ _))

theorem Path.Apart.symm {a b : String} (h : Path.Apart a b) : Path.Apart b a := by
  refine ⟨h.1.symm, ?_⟩
  rcases h.2 with hnone | hne
  · cases hb : Place.ofPath? b with
    | none => exact .inl rfl
    | some place => exact .inr (by simp [hnone])
  · exact .inr hne.symm

/-- What leads to a place of the one does not lead to a place of the other. -/
theorem Path.Apart.ofPath?_ne {a b : String} (h : Path.Apart a b) {place : Place}
    (ha : Place.ofPath? a = some place) : Place.ofPath? b ≠ some place := by
  intro hb
  rcases h.2 with hnone | hne
  · simp [hnone] at ha
  · exact hne (ha.trans hb.symm)

/-! ### Disks that agree on a file -/

namespace Disk

/-- Two disks have the same at the place that a path leads to. -/
def Agree (path : String) (d d' : Disk) : Prop :=
  ∀ place, Place.ofPath? path = some place → d.find? place = d'.find? place

variable {path : String} {d d' : Disk}

theorem Agree.trans {d'' : Disk} (h : Agree path d d') (h' : Agree path d' d'') :
    Agree path d d'' := fun place hplace => (h place hplace).trans (h' place hplace)

theorem Agree.read?_eq (h : Agree path d d') : d.read? path = d'.read? path := by
  have hat : d.at? path = d'.at? path := by
    unfold at?
    cases hplace : Place.ofPath? path with
    | none => rfl
    | some place => simp only [Option.bind_eq_bind, Option.bind_some, h place hplace]
  unfold read?
  rw [hat]

/-- Whether a file can be written depends on the directories only. -/
theorem write?_cases (d d' : Disk) (path text : String)
    (hdirectories : ∀ place, d.isDirectory place = d'.isDirectory place) :
    (d.write? path text = none ∧ d'.write? path text = none) ∨
      ∃ place, Place.ofPath? path = some place ∧ place ≠ [] ∧ d.isDirectory place = false ∧
        d.write? path text = some (d.put place (.file (some text))) ∧
        d'.write? path text = some (d'.put place (.file (some text))) := by
  cases hwrite : d.write? path text with
  | none =>
      refine .inl ⟨rfl, ?_⟩
      unfold write? at hwrite ⊢
      cases hplace : Place.ofPath? path with
      | none => rfl
      | some place => simpa [hplace, hdirectories] using hwrite
  | some after =>
      obtain ⟨place, hplace, hne, -, rfl⟩ := exists_put_of_write? hwrite
      -- a text was written, so no directory was in the way
      have hfree : d.isDirectory place = false := by
        unfold write? at hwrite
        simp only [hplace, Option.bind_eq_bind, Option.bind_some] at hwrite
        split at hwrite
        · cases hwrite
        · simp_all
      refine .inr ⟨place, hplace, hne, hfree, rfl, ?_⟩
      unfold write? at hwrite ⊢
      simp only [hplace, Option.bind_eq_bind, Option.bind_some, hdirectories] at hwrite ⊢
      split at hwrite
      · cases hwrite
      · rename_i hcan
        rw [if_neg hcan]

end Disk

/-! ### Reports on files -/

/-- A report on a text bears the path that was given. -/
theorem Linter.path_of_lintText {linter : Linter} {read : Reader} {path text : String}
    {report : FileReport} (h : (linter.lintText read path text).run = .ok (.ok report)) :
    report.path = path := by
  unfold Linter.lintText at h
  cases hctx : read text with
  | none =>
      rw [hctx] at h
      cases h
  | some ctx =>
      rw [hctx] at h
      obtain ⟨found, -, h⟩ := run_bind_eq_ok.1 h
      rw [← run_pure_eq_ok.1 h]
      rfl

/-! ### Plans -/

/-- What is to be done with a file whose text is known. -/
inductive Plan where
  /-- Nothing: what comes of it is known. -/
  | settled (result : Except Failure FileFix)
  /-- A text is to be written, and what comes of it if that succeeds. -/
  | pending (text : String) (fix : FileFix)

/-- What comes of a plan for a file, and the disk after it. -/
def Plan.carryOut (plan : Plan) (path : String) (d : Disk) : Except Failure FileFix × Disk :=
  match plan with
  | .settled result => (result, d)
  | .pending text fix =>
      match d.write? path text with
      | none => (.error (.access path), d)
      | some after => (.ok fix, after)

namespace Plan

variable {plan : Plan} {path : String} {d d' : Disk}

/-- Carrying out a plan for a file changes nothing elsewhere. -/
theorem find?_carryOut {place : Place} (h : Place.ofPath? path ≠ some place) :
    (plan.carryOut path d).2.find? place = d.find? place := by
  cases plan with
  | settled result => rfl
  | pending text fix =>
      rcases Disk.write?_cases d d path text (fun _ => rfl) with
        ⟨hnone, -⟩ | ⟨p, hp, hne, -, hwrite, -⟩
      · simp only [carryOut, hnone]
      · have hother : place ≠ p := by
          rintro rfl
          exact h hp
        simp only [carryOut, hwrite, Disk.find?_put d p place _ hne, if_neg hother]

/-- Carrying out a plan makes and removes no directories. -/
theorem isDirectory_carryOut (place : Place) :
    (plan.carryOut path d).2.isDirectory place = d.isDirectory place := by
  cases plan with
  | settled result => rfl
  | pending text fix =>
      rcases Disk.write?_cases d d path text (fun _ => rfl) with
        ⟨hnone, -⟩ | ⟨p, -, hne, hfree, hwrite, -⟩
      · simp only [carryOut, hnone]
      · simp only [carryOut, hwrite, Disk.isDirectory, Disk.find?_put d p place _ hne]
        split
        · rename_i heq
          subst heq
          simpa [Disk.isDirectory] using hfree.symm
        · rfl

/-- Where the directories are the same, carrying out a plan for a file has the same result, and the
disks go on to agree on the file. -/
theorem carryOut_agree (hdirectories : ∀ place, d.isDirectory place = d'.isDirectory place)
    (h : Disk.Agree path d d') :
    (plan.carryOut path d).1 = (plan.carryOut path d').1 ∧
      Disk.Agree path (plan.carryOut path d).2 (plan.carryOut path d').2 := by
  cases plan with
  | settled result => exact ⟨rfl, h⟩
  | pending text fix =>
      rcases Disk.write?_cases d d' path text hdirectories with
        ⟨hnone, hnone'⟩ | ⟨p, hp, hne, -, hwrite, hwrite'⟩
      · simpa only [carryOut, hnone, hnone', true_and] using h
      · simp only [carryOut, hwrite, hwrite', true_and]
        intro place hplace
        rw [Disk.find?_put d p place _ hne, Disk.find?_put d' p place _ hne, h place hplace]

end Plan

namespace Editor

/-- What is to be done with a file, from its text. -/
def plan (e : Editor) (linter : Linter) (read : Reader) (path : String) :
    Option String → Except Fault Plan
  | none => return .settled (.error (.access path))
  | some text => do
      match ← fix? read linter.rule text (max e.maxPasses 1) with
      | none => return .settled (.error (.malformed path none))
      | some fixed =>
          let left := linter.report path fixed.source fixed.remaining
          if !fixed.isChanged then return .settled (.ok ⟨.unchanged, 0, left⟩)
          else
            match e.choose path with
            | .error failure => return .settled (.error failure)
            | .ok .written => return .pending fixed.text ⟨.written, fixed.applied, left⟩
            | .ok outcome => do
                let report ← (linter.lintText read path text).run
                return .settled (report.map fun report => ⟨outcome, fixed.applied, report⟩)

variable {e : Editor} {linter : Linter} {read : Reader}

/-- Fixing a file is making a plan for it and carrying it out. -/
theorem map_outcome_fixFile (d : Disk) (path : String) :
    Work.outcome <$> (e.fixFile linter read d path).run =
      (fun plan => plan.carryOut path d) <$> e.plan linter read path (d.read? path) := by
  rw [fixFile, work, StateT.run_bind, ExceptT.run_bind, Work.run_readFile]
  -- one case for each way through the work on a file
  cases d.read? path with
  | none => rfl
  | some text =>
      simp only [ok_bind, plan]
      cases fix? read linter.rule text (max e.maxPasses 1) with
      | error fault => rfl
      | ok outcome =>
          cases outcome with
          | none => rfl
          | some fixed =>
              simp only [Work.ofFaulty_ok_bind, ok_bind]
              cases fixed.isChanged with
              | false => rfl
              | true =>
                  cases e.choose path with
                  | error failure => rfl
                  | ok outcome =>
                      simp only [Work.ofResult_ok_bind, Bool.not_true, if_neg Bool.false_ne_true]
                      cases outcome with
                      | written =>
                          simp only [StateT.run_bind, ExceptT.run_bind, Work.run_writeFile, pure,
                            Except.pure, Functor.map, Except.map, Plan.carryOut]
                          cases d.write? path fixed.text <;> rfl
                      | _ =>
                          simp only [StateT.run_bind, ExceptT.run_bind, Work.run_ofAttempt]
                          cases (linter.lintText read path text).run with
                          | error fault => rfl
                          | ok report => cases report <;> rfl

/-- Fixing files one after the other is making a plan for each and carrying it out. -/
theorem fixFiles_cons (d : Disk) (path : String) (rest : List String) :
    e.fixFiles linter read d (path :: rest) = (do
      let plan ← e.plan linter read path (d.read? path)
      let (results, last) ← e.fixFiles linter read (plan.carryOut path d).2 rest
      return ((plan.carryOut path d).1 :: results, last)) := by
  let next : Except Failure FileFix × Disk →
      Except Fault (List (Except Failure FileFix) × Disk) := fun made => do
    let (results, last) ← e.fixFiles linter read made.2 rest
    return (made.1 :: results, last)
  calc e.fixFiles linter read d (path :: rest)
      = (Work.outcome <$> (e.fixFile linter read d path).run) >>= next := by
        rw [bind_map_left, fixFiles]
    _ = ((fun plan => plan.carryOut path d) <$>
          e.plan linter read path (d.read? path)) >>= next := by
        rw [map_outcome_fixFile]
    _ = _ := by rw [bind_map_left]

/-- Fixing one file is making a plan for it and carrying it out. -/
theorem fixFiles_singleton {d after : Disk} {path : String} {result : Except Failure FileFix} :
    e.fixFiles linter read d [path] = .ok ([result], after) ↔
      ∃ plan, e.plan linter read path (d.read? path) = .ok plan ∧
        plan.carryOut path d = (result, after) := by
  rw [fixFiles_cons]
  cases e.plan linter read path (d.read? path) with
  | error fault =>
      constructor
      · intro h
        cases h
      · rintro ⟨plan, hplan, -⟩
        cases hplan
  | ok plan =>
      constructor
      · intro h
        obtain ⟨hresult, hafter⟩ := Prod.mk.inj (Except.ok.inj h)
        exact ⟨plan, rfl, Prod.ext (List.cons.inj hresult).1 hafter⟩
      · rintro ⟨plan', hplan, hcarry⟩
        obtain rfl := Except.ok.inj hplan
        simp only [ok_bind, hcarry]
        rfl

/-- What is reported about a file bears its path. -/
theorem path_of_fixFiles {d after : Disk} {path : String} {fix : FileFix}
    (h : e.fixFiles linter read d [path] = .ok ([.ok fix], after)) : fix.report.path = path := by
  have hfile : ∃ disk, (e.fixFile linter read d path).run = .ok (.ok (fix, disk)) := by
    cases hrun : (e.fixFile linter read d path).run with
    | error fault =>
        rw [fixFiles, hrun] at h
        cases h
    | ok result =>
        rw [fixFiles, hrun] at h
        cases result with
        | error failure => cases h
        | ok made =>
            have hresult := (Prod.mk.inj (Except.ok.inj h)).1
            obtain rfl := Except.ok.inj (List.cons.inj hresult).1
            exact ⟨made.2, rfl⟩
  obtain ⟨disk, hfile⟩ := hfile
  obtain ⟨text, fixed, -, -, hcourse⟩ := course_of_fixFile hfile
  cases hcourse with
  | unchanged => rfl
  | written => rfl
  | kept _ _ _ hreport => exact Linter.path_of_lintText hreport

/-- Over a sound reader, there is a plan for every file. -/
theorem exists_plan (hread : read.Faithful) (hsound : read.Sound linter.rule) (path : String)
    (text? : Option String) : ∃ plan, e.plan linter read path text? = .ok plan := by
  cases text? with
  | none => exact ⟨_, rfl⟩
  | some text =>
      cases hctx : read text with
      | none =>
          have hfix : fix? read linter.rule text (max e.maxPasses 1) = .ok none :=
            fix?_eq_none_iff.2 hctx
          exact ⟨_, by rw [plan, hfix, ok_bind]; rfl⟩
      | some ctx =>
          have hprogram : read text ≠ none := by simp [hctx]
          obtain ⟨fixed, hfix⟩ := exists_fix? hread hsound hprogram (max e.maxPasses 1)
          obtain ⟨found, hfound, -⟩ := hsound text ctx hctx
          have hlint : (linter.lintText read path text).run =
              .ok (.ok (linter.report path ctx.source found)) := by
            simp only [Linter.lintText, hctx, hfound]
            rfl
          simp only [plan, hfix, ok_bind, hlint]
          split
          · exact ⟨_, rfl⟩
          · split <;> exact ⟨_, rfl⟩

/-- Where there is a plan for each of some files that lie apart, fixing them has a result. -/
theorem exists_fixFiles {d : Disk} {files : List String} (happart : files.Pairwise Path.Apart)
    (hplans : ∀ path ∈ files, ∃ plan, e.plan linter read path (d.read? path) = .ok plan) :
    ∃ results last, e.fixFiles linter read d files = .ok (results, last) := by
  induction files generalizing d with
  | nil => exact ⟨[], d, rfl⟩
  | cons path rest ih =>
      rw [List.pairwise_cons] at happart
      rw [List.forall_mem_cons] at hplans
      obtain ⟨hpath, happart⟩ := happart
      obtain ⟨⟨plan, hplan⟩, hplans⟩ := hplans
      -- the other files are still as they were
      have hrest : ∀ other ∈ rest, ∃ plan', e.plan linter read other
          ((plan.carryOut path d).2.read? other) = .ok plan' := by
        intro other hother
        have hagree : Disk.Agree other (plan.carryOut path d).2 d := fun place hplace =>
          Plan.find?_carryOut ((hpath other hother).symm.ofPath?_ne hplace)
        exact hagree.read?_eq ▸ hplans other hother
      obtain ⟨results, last, hfix⟩ := ih happart hrest
      exact ⟨_, last, by rw [fixFiles_cons, hplan, ok_bind, hfix, ok_bind]; rfl⟩

/-! ### Interleavings -/

/-- How far the work on a file is. -/
inductive Stage where
  /-- The file has not been looked at. -/
  | waiting
  /-- It is known what is to be done with the file. -/
  | planned (plan : Plan)
  /-- It has been done, and this is what came of it. -/
  | done (result : Except Failure FileFix)

/-- The work on one file. -/
structure Job where
  path : String
  stage : Stage

/-- One step of the work on some files: one of them is looked at, or what is to be done with it is
done. -/
inductive Step (e : Editor) (linter : Linter) (read : Reader) :
    Disk × List Job → Disk × List Job → Prop
  | look {d : Disk} {path : String} {plan : Plan} (before after : List Job)
      (hplan : e.plan linter read path (d.read? path) = .ok plan) :
      Step e linter read (d, before ++ ⟨path, .waiting⟩ :: after)
        (d, before ++ ⟨path, .planned plan⟩ :: after)
  | carryOut {d : Disk} {path : String} {plan : Plan} (before after : List Job) :
      Step e linter read (d, before ++ ⟨path, .planned plan⟩ :: after)
        ((plan.carryOut path d).2, before ++ ⟨path, .done (plan.carryOut path d).1⟩ :: after)

/-- In some interleaving, the work on some files comes to these results and this disk. -/
def Completes (e : Editor) (linter : Linter) (read : Reader) (d : Disk) (files : List String)
    (results : List (Except Failure FileFix)) (last : Disk) : Prop :=
  ∃ jobs, Relation.ReflTransGen (Step e linter read) (d, files.map (⟨·, .waiting⟩)) (last, jobs) ∧
    jobs.map Job.stage = results.map .done

/-- One after the other is one of the interleavings. -/
theorem completes_of_fixFiles {d last : Disk} {files : List String}
    {results : List (Except Failure FileFix)}
    (h : e.fixFiles linter read d files = .ok (results, last)) :
    Completes e linter read d files results last := by
  -- the files that are done stand in front of those that wait
  suffices hfront : ∀ front : List Job, ∃ jobs,
      Relation.ReflTransGen (Step e linter read) (d, front ++ files.map (⟨·, .waiting⟩))
        (last, front ++ jobs) ∧ jobs.map Job.stage = results.map .done from hfront []
  intro front
  induction files generalizing d results front with
  | nil =>
      obtain ⟨rfl, rfl⟩ := Prod.mk.inj (Except.ok.inj h)
      exact ⟨[], .refl, rfl⟩
  | cons path rest ih =>
      rw [fixFiles_cons] at h
      obtain ⟨plan, hplan, h⟩ := bind_eq_ok.1 h
      obtain ⟨⟨results', last'⟩, hrest, h⟩ := bind_eq_ok.1 h
      obtain ⟨rfl, rfl⟩ := Prod.mk.inj (Except.ok.inj h)
      obtain ⟨jobs, hrun, hstages⟩ := ih hrest (front ++ [⟨path, .done (plan.carryOut path d).1⟩])
      refine ⟨⟨path, .done (plan.carryOut path d).1⟩ :: jobs, ?_, by simp [hstages]⟩
      rw [List.append_assoc, List.append_assoc] at hrun
      exact .head (.look front _ hplan) (.head (.carryOut front _) hrun)

/-! ### What holds in between -/

/-- How the work on a file stands: the file is as it was at first until what is to be done with it
has been done, and then it is as if it had been fixed alone. -/
def Job.Stands (e : Editor) (linter : Linter) (read : Reader) (d₀ d : Disk) (job : Job) : Prop :=
  match job.stage with
  | .waiting => Disk.Agree job.path d d₀
  | .planned plan =>
      e.plan linter read job.path (d₀.read? job.path) = .ok plan ∧ Disk.Agree job.path d d₀
  | .done result => ∃ after, e.fixFiles linter read d₀ [job.path] = .ok ([result], after) ∧
      Disk.Agree job.path d after

/-- What holds while the work on some files is under way. -/
structure Underway (e : Editor) (linter : Linter) (read : Reader) (d₀ : Disk) (files : List String)
    (s : Disk × List Job) : Prop where
  /-- There is work on every file. -/
  paths : s.2.map Job.path = files
  /-- The work on each stands as it should. -/
  stands : ∀ job ∈ s.2, job.Stands e linter read d₀ s.1
  /-- Nothing has changed where no path leads. -/
  elsewhere : ∀ place, (∀ path ∈ files, Place.ofPath? path ≠ some place) →
    s.1.find? place = d₀.find? place
  /-- The directories are those that were there. -/
  directories : ∀ place, s.1.isDirectory place = d₀.isDirectory place

/-- How the work on a file stands depends only on what the disk has there. -/
theorem Job.Stands.frame {d₀ d d' : Disk} {job : Job} (hsame : Disk.Agree job.path d' d)
    (h : job.Stands e linter read d₀ d) : job.Stands e linter read d₀ d' := by
  unfold Job.Stands at h ⊢
  split
  · rename_i hstage
    simp only [hstage] at h
    exact hsame.trans h
  · rename_i hstage
    simp only [hstage] at h
    exact ⟨h.1, hsame.trans h.2⟩
  · rename_i hstage
    simp only [hstage] at h
    obtain ⟨after, hfix, hagree⟩ := h
    exact ⟨after, hfix, hsame.trans hagree⟩

variable {d₀ : Disk} {files : List String} {s t : Disk × List Job}

/-- The start of the work. -/
theorem Underway.start (d₀ : Disk) (files : List String) :
    Underway e linter read d₀ files (d₀, files.map (⟨·, .waiting⟩)) where
  paths := by simp [Function.comp_def]
  stands := by
    intro job hjob
    obtain ⟨path, -, rfl⟩ := List.mem_map.1 hjob
    exact fun _ _ => rfl
  elsewhere := fun _ _ => rfl
  directories := fun _ => rfl

/-- A path in the middle leads elsewhere than those around it. -/
theorem apart_of_pairwise {before after : List Job} {job : Job}
    (h : ((before ++ job :: after).map Job.path).Pairwise Path.Apart) {other : Job}
    (hother : other ∈ before ++ after) : Path.Apart job.path other.path := by
  rw [List.map_append, List.map_cons, List.pairwise_middle Path.Apart.symm, List.pairwise_cons,
    ← List.map_append] at h
  exact h.1 other.path (List.mem_map_of_mem hother)

/-- A step keeps what holds in between. -/
theorem Underway.step (happart : files.Pairwise Path.Apart)
    (h : Underway e linter read d₀ files s) (hstep : Step e linter read s t) :
    Underway e linter read d₀ files t := by
  obtain ⟨hpaths, hstands, helsewhere, hdirectories⟩ := h
  cases hstep with
  | @look d path plan before after hplan =>
      simp only [List.forall_mem_append, List.forall_mem_cons] at hstands
      obtain ⟨hbefore, hjob, hafter⟩ := hstands
      -- nothing has changed at the path yet, so the plan is the one that would be made alone
      have hagree : Disk.Agree path d d₀ := hjob
      refine ⟨by simpa using hpaths, ?_, helsewhere, hdirectories⟩
      simp only [List.forall_mem_append, List.forall_mem_cons]
      exact ⟨hbefore, ⟨hagree.read?_eq ▸ hplan, hagree⟩, hafter⟩
  | @carryOut d path plan before after =>
      -- the other paths lead elsewhere, so all that is known of their jobs still holds
      have hmiddle : ∀ other ∈ before ++ after, Path.Apart path other.path := by
        rw [← hpaths] at happart
        exact fun other hother => apart_of_pairwise happart hother
      have hframe : ∀ other ∈ before ++ after, other.Stands e linter read d₀ d →
          other.Stands e linter read d₀ (plan.carryOut path d).2 := by
        intro other hother
        refine Job.Stands.frame fun place hplace => Plan.find?_carryOut ?_
        exact (hmiddle other hother).symm.ofPath?_ne hplace
      simp only [List.forall_mem_append, List.forall_mem_cons] at hstands hframe
      obtain ⟨hbefore, ⟨hplan, hagree⟩, hafter⟩ := hstands
      obtain ⟨hresult, hsame⟩ := plan.carryOut_agree hdirectories hagree
      refine ⟨by simpa using hpaths, ?_, ?_, ?_⟩
      · simp only [List.forall_mem_append, List.forall_mem_cons]
        refine ⟨fun job hjob => hframe.1 job hjob (hbefore job hjob), ?_,
          fun job hjob => hframe.2 job hjob (hafter job hjob)⟩
        have hcarry : plan.carryOut path d₀ =
            ((plan.carryOut path d).1, (plan.carryOut path d₀).2) := Prod.ext hresult.symm rfl
        exact ⟨_, fixFiles_singleton.2 ⟨plan, hplan, hcarry⟩, hsame⟩
      · intro place hplace
        have hmem : path ∈ files := hpaths ▸ by simp
        rw [Plan.find?_carryOut (hplace path hmem)]
        exact helsewhere place hplace
      · intro place
        rw [Plan.isDirectory_carryOut]
        exact hdirectories place

/-- Every interleaving keeps what holds in between. -/
theorem Underway.run (happart : files.Pairwise Path.Apart)
    (h : Underway e linter read d₀ files s)
    (hrun : Relation.ReflTransGen (Step e linter read) s t) :
    Underway e linter read d₀ files t := by
  induction hrun with
  | refl => exact h
  | tail _ hstep ih => exact ih.step happart hstep

/-! ### What comes of it -/

variable {last last' : Disk} {files' : List String}
  {results results' : List (Except Failure FileFix)}

/-- In every interleaving, the result for a file is the one that comes of fixing it alone, and so is
what the disk has there. -/
theorem Completes.alone (happart : files.Pairwise Path.Apart)
    (h : Completes e linter read d₀ files results last) :
    List.Forall₂ (fun path result => ∃ after, e.fixFiles linter read d₀ [path] =
      .ok ([result], after) ∧ Disk.Agree path last after) files results := by
  obtain ⟨jobs, hrun, hstages⟩ := h
  have hunder := (Underway.start d₀ files).run happart hrun
  have hdone : List.Forall₂ (fun job result => job.stage = .done result) jobs results := by
    have hsame : List.Forall₂ (· = ·) (jobs.map Job.stage) (results.map .done) :=
      hstages ▸ List.forall₂_refl _
    rwa [List.forall₂_map_left_iff, List.forall₂_map_right_iff] at hsame
  have hpaths : jobs.map Job.path = files := hunder.paths
  rw [← hpaths, List.forall₂_map_left_iff]
  refine ((List.forall₂_and_left _ _).2 ⟨hunder.stands, hdone⟩).imp ?_
  rintro job result ⟨hstands, hstage⟩
  simpa only [Job.Stands, hstage] using hstands

/-- In every interleaving, the disk is as it was where no path leads. -/
theorem Completes.find?_elsewhere (happart : files.Pairwise Path.Apart)
    (h : Completes e linter read d₀ files results last) {place : Place}
    (hplace : ∀ path ∈ files, Place.ofPath? path ≠ some place) :
    last.find? place = d₀.find? place := by
  obtain ⟨jobs, hrun, -⟩ := h
  exact ((Underway.start d₀ files).run happart hrun).elsewhere place hplace

/-- Neither the order nor the interleaving makes a difference to the disk. -/
theorem Completes.find?_eq (hperm : files.Perm files') (happart : files.Pairwise Path.Apart)
    (h : Completes e linter read d₀ files results last)
    (h' : Completes e linter read d₀ files' results' last') (place : Place) :
    last'.find? place = last.find? place := by
  have happart' : files'.Pairwise Path.Apart := hperm.pairwise happart Path.Apart.symm
  by_cases hplace : ∃ path ∈ files, Place.ofPath? path = some place
  · obtain ⟨path, hmem, hplace⟩ := hplace
    obtain ⟨result, -, after, hfix, hagree⟩ := exists_of_mem_of_forall₂ (h.alone happart) hmem
    obtain ⟨result', -, after', hfix', hagree'⟩ :=
      exists_of_mem_of_forall₂ (h'.alone happart') (hperm.mem_iff.1 hmem)
    obtain ⟨-, rfl⟩ := Prod.mk.inj (Except.ok.inj (hfix'.symm.trans hfix))
    rw [hagree place hplace, hagree' place hplace]
  · push Not at hplace
    rw [h.find?_elsewhere happart hplace,
      h'.find?_elsewhere happart' fun path hmem => hplace path (hperm.mem_iff.2 hmem)]

/-- Neither the order nor the interleaving makes a difference to what comes of each file. -/
theorem Completes.perm (hperm : files.Perm files') (happart : files.Pairwise Path.Apart)
    (h : Completes e linter read d₀ files results last)
    (h' : Completes e linter read d₀ files' results' last') : results.Perm results' := by
  have happart' : files'.Pairwise Path.Apart := hperm.pairwise happart Path.Apart.symm
  -- which result a file has alone is a function of the file
  let R : String → Except Failure FileFix → Prop := fun path result =>
    ∃ after, e.fixFiles linter read d₀ [path] = .ok ([result], after)
  have hunique : Relator.RightUnique R := by
    rintro path result result' ⟨after, hfix⟩ ⟨after', hfix'⟩
    have heq := (Prod.mk.inj (Except.ok.inj (hfix.symm.trans hfix'))).1
    exact (List.cons.inj heq).1
  have halone : List.Forall₂ R files results :=
    (h.alone happart).imp fun path result ⟨after, hfix, _⟩ => ⟨after, hfix⟩
  have halone' : List.Forall₂ R files' results' :=
    (h'.alone happart').imp fun path result ⟨after, hfix, _⟩ => ⟨after, hfix⟩
  obtain ⟨moved, hmoved, hsame⟩ := List.perm_comp_forall₂ hperm halone'
  rwa [List.right_unique_forall₂' hunique halone hmoved]

end Editor

/-! ### What is told about all files -/

namespace FixRun

variable {results results' : List (Except Failure FileFix)}

/-- The patches that count are those of the files that were written. -/
theorem applied_ofResults (results : List (Except Failure FileFix)) :
    (ofResults results).applied = (((results.filterMap Except.toOption).filter
      fun f => f.outcome = .written).map FileFix.applied).sum := by
  suffices hsum : ∀ (fixes : List FileFix) (count : Nat),
      fixes.foldl (fun count f => count + f.written) count =
        count + ((fixes.filter fun f => f.outcome = .written).map FileFix.applied).sum by
    exact (hsum _ 0).trans (Nat.zero_add _)
  intro fixes
  induction fixes with
  | nil => exact fun count => rfl
  | cons f fixes ih =>
      intro count
      rw [List.foldl_cons, ih, FileFix.written, List.filter_cons]
      by_cases hwritten : f.outcome = .written
      · simp [hwritten, Nat.add_assoc]
      · simp [hwritten]

/-- Every file has a report or a failure. -/
theorem length_ofResults (results : List (Except Failure FileFix)) :
    (ofResults results).run.reports.length + (ofResults results).run.failures.length =
      results.length := by
  simp only [ofResults, LintRun.ofResults, List.length_mergeSort]
  induction results with
  | nil => rfl
  | cons result rest ih =>
      cases result with
      | error failure =>
          simp only [List.map_cons, Except.map, List.filterMap_cons, Except.toOption,
            List.length_cons] at ih ⊢
          omega
      | ok fix =>
          simp only [List.map_cons, Except.map, List.filterMap_cons, Except.toOption,
            List.length_cons] at ih ⊢
          omega

/-- Reports come in the order of their paths. -/
theorem pairwise_reports (results : List (Except Failure FileFix)) :
    (ofResults results).run.reports.Pairwise fun a b => Path.notAfter a.path b.path = true := by
  simp only [ofResults, LintRun.ofResults]
  refine List.pairwise_mergeSort ?_ ?_ _
  · exact fun a b c => Path.notAfter_trans
  · exact fun a b => Path.notAfter_total a.path b.path

theorem mem_reports {report : FileReport} (h : report ∈ (ofResults results).run.reports) :
    ∃ fix, .ok fix ∈ results ∧ fix.report = report := by
  obtain ⟨result, hmem, hreport⟩ := List.mem_filterMap.1 (List.mem_mergeSort.1 h)
  obtain ⟨made, hmade, rfl⟩ := List.mem_map.1 hmem
  cases made with
  | error failure => cases hreport
  | ok fix => exact ⟨fix, hmade, Option.some.inj hreport⟩

theorem perm_reports (h : results.Perm results') :
    (ofResults results).run.reports.Perm (ofResults results').run.reports :=
  (List.mergeSort_perm _ _).trans
    (((h.map _).filterMap _).trans (List.mergeSort_perm _ _).symm)

theorem perm_failures (h : results.Perm results') :
    (ofResults results).run.failures.Perm (ofResults results').run.failures :=
  (h.map _).filterMap _

theorem applied_eq_of_perm (h : results.Perm results') :
    (ofResults results').applied = (ofResults results).applied := by
  rw [applied_ofResults, applied_ofResults]
  exact (((h.symm.filterMap _).filter _).map _).sum_nat

/-- Where reports whose paths have the same parts are the same, their order is that of the
paths. -/
theorem reports_eq_of_perm (h : results.Perm results')
    (hsame : ∀ f g, .ok f ∈ results → .ok g ∈ results →
      Path.parts f.report.path = Path.parts g.report.path → f.report = g.report) :
    (ofResults results').run.reports = (ofResults results).run.reports := by
  refine List.Perm.eq_of_pairwise ?_ (pairwise_reports _) (pairwise_reports _)
    (perm_reports h.symm)
  intro a b ha hb hab hba
  obtain ⟨f, hf, rfl⟩ := mem_reports ha
  obtain ⟨g, hg, rfl⟩ := mem_reports hb
  exact hsame f g (h.mem_iff.2 hf) hg (Path.parts_eq_of_notAfter hab hba)

end FixRun

namespace Editor

variable {e : Editor} {linter : Linter} {read : Reader} {d₀ last : Disk} {files : List String}
  {results : List (Except Failure FileFix)}

/-- Reports on files that lie apart are the same where their paths have the same parts. -/
theorem Completes.report_eq (happart : files.Pairwise Path.Apart)
    (h : Completes e linter read d₀ files results last) {f g : FileFix} (hf : .ok f ∈ results)
    (hg : .ok g ∈ results) (hparts : Path.parts f.report.path = Path.parts g.report.path) :
    f.report = g.report := by
  have halone := (h.alone happart).flip
  obtain ⟨path, hpath, after, hfix, -⟩ := exists_of_mem_of_forall₂ halone hf
  obtain ⟨path', hpath', after', hfix', -⟩ := exists_of_mem_of_forall₂ halone hg
  rw [path_of_fixFiles hfix, path_of_fixFiles hfix'] at hparts
  by_cases hsame : path = path'
  · subst hsame
    have hresult := (Prod.mk.inj (Except.ok.inj (hfix.symm.trans hfix'))).1
    rw [Except.ok.inj (List.cons.inj hresult).1]
  · have : Std.Symm Path.Apart := ⟨fun _ _ => Path.Apart.symm⟩
    exact absurd hparts (happart.forall hpath hpath' hsame).1

/-- **The order of the files makes no difference.**  Let some files have paths with different parts
and lie in different places.  Fixing them has a result, if the reader is sound; and if it has one,
then so it does in every other order.  And when they are fixed in any order, one after the other or
with the work on them interleaved, everything on the disk comes out the same, the same number of
patches counts as applied, namely those of the files that were written, the reports are the same
list, in the order of their paths, and the failures are the same up to their order.  There is one
report or one failure for each file. -/
theorem fixFiles_any_order (e : Editor) (linter : Linter) (read : Reader) (d : Disk)
    {files files' : List String} (hperm : files.Perm files')
    (happart : files.Pairwise Path.Apart) :
    (read.Faithful → read.Sound linter.rule →
      ∃ results last, e.fixFiles linter read d files = .ok (results, last)) ∧
    ∀ results last, e.fixFiles linter read d files = .ok (results, last) →
      (FixRun.ofResults results).applied = (((results.filterMap Except.toOption).filter
        fun f => f.outcome = .written).map FileFix.applied).sum ∧
      (FixRun.ofResults results).run.reports.Pairwise
        (fun a b => Path.notAfter a.path b.path = true) ∧
      (FixRun.ofResults results).run.reports.length +
        (FixRun.ofResults results).run.failures.length = files.length ∧
      (∃ results' last', e.fixFiles linter read d files' = .ok (results', last') ∧
        Completes e linter read d files' results' last') ∧
      ∀ results' last', Completes e linter read d files' results' last' →
        (∀ place, last'.find? place = last.find? place) ∧
        (FixRun.ofResults results').applied = (FixRun.ofResults results).applied ∧
        (FixRun.ofResults results').run.reports = (FixRun.ofResults results).run.reports ∧
        (FixRun.ofResults results').run.failures.Perm (FixRun.ofResults results).run.failures := by
  constructor
  · intro hread hsound
    exact exists_fixFiles happart fun path _ => exists_plan hread hsound path _
  intro results last hfix
  have hdone := completes_of_fixFiles hfix
  have halone := hdone.alone happart
  have happart' : files'.Pairwise Path.Apart := hperm.pairwise happart Path.Apart.symm
  refine ⟨FixRun.applied_ofResults results, FixRun.pairwise_reports results, ?_, ?_, ?_⟩
  · rw [FixRun.length_ofResults, halone.length_eq]
  · have hplans : ∀ path ∈ files', ∃ plan, e.plan linter read path (d.read? path) = .ok plan := by
      intro path hpath
      obtain ⟨result, -, after, hsingle, -⟩ :=
        exists_of_mem_of_forall₂ halone (hperm.mem_iff.2 hpath)
      obtain ⟨plan, hplan, -⟩ := fixFiles_singleton.1 hsingle
      exact ⟨plan, hplan⟩
    obtain ⟨results', last', hfix'⟩ := exists_fixFiles happart' hplans
    exact ⟨results', last', hfix', completes_of_fixFiles hfix'⟩
  · intro results' last' hdone'
    have hresults : results.Perm results' := hdone.perm hperm happart hdone'
    exact ⟨hdone.find?_eq hperm happart hdone', FixRun.applied_eq_of_perm hresults,
      FixRun.reports_eq_of_perm hresults fun f g => hdone.report_eq happart,
      FixRun.perm_failures hresults.symm⟩

/-- A disk with a file to fix, one that cannot be written, and one that is no program. -/
def mixedDisk : Disk :=
  ⟨[(["a"], .file (some "((b))")), (["d", "e"], .file (some "(b)")), (["m"], .file (some "!!"))]⟩

set_option maxRecDepth 20000 in
/-- Of three files, one is fixed, whatever happens to the others before, in between or after: one is
no program, and one cannot be written. -/
theorem fixFiles_any_order_mixed :
    ["m", "d/e", "a"].Perm ["a", "d/e", "m"] ∧
    ["m", "d/e", "a"].Pairwise Path.Apart ∧
    ∀ results last, Completes ⟨false, none, 10⟩ ⟨{}, .warning⟩ readGrouped mixedDisk
        ["a", "d/e", "m"] results last →
      last.find? ["a"] = some (.file (some "b")) ∧
      last.find? ["d", "e"] = some (.file (some "(b)")) ∧
      (FixRun.ofResults results).applied = 2 ∧
      (FixRun.ofResults results).run.reports = [⟨"a", []⟩] ∧
      (FixRun.ofResults results).run.failures.Perm
        [.malformed "m" none, .access "d/e"] := by
  have hperm : ["m", "d/e", "a"].Perm ["a", "d/e", "m"] := by decide
  have happart : ["m", "d/e", "a"].Pairwise Path.Apart := by
    have hm : Path.parts "m" = [.name "m"] := by cbv
    have he : Path.parts "d/e" = [.name "d", .name "e"] := by cbv
    have ha : Path.parts "a" = [.name "a"] := by cbv
    simp [Path.Apart, Place.ofPath?, Place.follow, hm, he, ha]
  have hfix : fixFiles ⟨false, none, 10⟩ ⟨{}, .warning⟩ readGrouped mixedDisk
      ["m", "d/e", "a"] = .ok ([.error (.malformed "m" none), .error (.access "d/e"),
        .ok ⟨.written, 2, ⟨"a", []⟩⟩], ⟨[(["a"], .file (some "b")),
          (["d", "e"], .file (some "(b)")), (["m"], .file (some "!!"))]⟩) := by cbv
  refine ⟨hperm, happart, fun results last hdone => ?_⟩
  obtain ⟨hfind, happlied, hreports, hfailures⟩ :=
    ((fixFiles_any_order ⟨false, none, 10⟩ ⟨{}, .warning⟩ readGrouped mixedDisk hperm
      happart).2 _ _ hfix).2.2.2.2 results last hdone
  exact ⟨(hfind ["a"]).trans rfl, (hfind ["d", "e"]).trans rfl, happlied, hreports.trans (by cbv),
    hfailures⟩

end Editor

end Pare
