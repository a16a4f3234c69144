import Pare.Editor
import Pare.Proofs.Passes
import Pare.Proofs.Steps

/-!
**What an editor says is what is on the disk.**

An editor comes to its report on a file in two ways.  Where it has written the fixed text, or there
was nothing to fix, it reports what the run of passes has left over; where it has kept its hands off
the file, it looks through the old text again.  Both are the report on the text that is on the disk
afterwards: the run of passes never reports anything but what the rule says about its own text.
Everything else on the disk stays as it was, and after a failure all of it.

Main definitions:

* `Pare.Editor.Course` — the courses that fixing a file can take, and what comes of each.

Main results:

* `Pare.Disk.read?_of_write?`, `Pare.Disk.at?_of_write?` — what is on a disk after writing a file;
* `Pare.Editor.course_of_fixFile`, `Pare.Editor.cause_of_fixFile` — fixing a file takes one of the
  courses, or fails for one of its causes;
* `Pare.Editor.fixFile_reports_disk` — **a report tells what is on the disk, and only a file that
  was written has changed**.
-/

set_option relaxedAutoImplicit false
set_option autoImplicit false

namespace Pare

/-! ### Writing a file -/

namespace Disk

variable {d after : Disk} {path text : String}

/-- Writing puts a file at the place of the path. -/
theorem exists_put_of_write? (h : d.write? path text = some after) :
    ∃ place, Place.ofPath? path = some place ∧ place ≠ [] ∧
      (Path.segments path).getLast?.any Path.isIdle = false ∧
      after = d.put place (.file (some text)) := by
  obtain ⟨place, hplace, h⟩ := Option.bind_eq_some_iff.1 h
  dsimp only at h
  split at h
  · cases h
  · rename_i hfree
    simp only [Bool.or_eq_true, not_or, Bool.not_eq_true] at hfree
    obtain ⟨⟨hasked, hdirectory⟩, -⟩ := hfree
    refine ⟨place, hplace, ?_, hasked, (Option.some.inj h).symm⟩
    -- the working directory is a directory, so no file is written in its place
    rintro rfl
    simp [isDirectory, find?] at hdirectory

/-- A file that was written has the text. -/
theorem read?_of_write? (h : d.write? path text = some after) : after.read? path = some text := by
  obtain ⟨place, hplace, hne, hasked, rfl⟩ := exists_put_of_write? h
  simp [read?, at?, hplace, find?_put d place place _ hne, hasked]

/-- Writing changes nothing at paths that lead elsewhere. -/
theorem at?_of_write? (h : d.write? path text = some after) {other : String}
    (hother : Place.ofPath? other ≠ Place.ofPath? path) : after.at? other = d.at? other := by
  obtain ⟨place, hplace, hne, -, rfl⟩ := exists_put_of_write? h
  unfold at?
  cases hq : Place.ofPath? other with
  | none => rfl
  | some q =>
      have hqp : q ≠ place := by
        rintro rfl
        exact hother (hq.trans hplace.symm)
      simp only [Option.bind_eq_bind, Option.bind_some, find?_put d place q _ hne, if_neg hqp]

end Disk

/-! ### Reports -/

/-- Looking through a text fails only where it is no program. -/
theorem Linter.lintText_eq_error {linter : Linter} {read : Reader} {path text : String}
    {failure : Failure} (h : (linter.lintText read path text).run = .ok (.error failure)) :
    failure = .malformed path none ∧ read text = none := by
  unfold Linter.lintText at h
  cases hctx : read text with
  | none =>
      rw [hctx] at h
      exact ⟨(Except.error.inj (Except.ok.inj h)).symm, rfl⟩
  | some ctx =>
      rw [hctx] at h
      obtain h | ⟨found, -, h⟩ := run_bind_eq_error.1 h
      · exact absurd h (Attempt.run_ofFaulty_ne_error _ _)
      · cases h

/-- The report on a program is that on what the rule says about it. -/
theorem Linter.lintText_eq_ok {linter : Linter} {read : Reader} {text : String} {ctx : Context}
    {found : List Detection} (hread : read text = some ctx)
    (hrun : linter.rule.run ctx = .ok found) (path : String) :
    (linter.lintText read path text).run = .ok (.ok (linter.report path ctx.source found)) := by
  simp only [Linter.lintText, hread]
  exact run_bind_eq_ok.2 ⟨found, Attempt.run_ofFaulty_eq_ok.2 hrun, rfl⟩

/-- What a current state reports is the report on its text. -/
theorem Fixed.Current.lintText_eq_ok {read : Reader} {linter : Linter} {s : Fixed}
    (h : s.Current read linter.rule) (path : String) :
    (linter.lintText read path s.text).run =
      .ok (.ok (linter.report path s.source s.remaining)) := by
  obtain ⟨ctx, hctx, hsource, hrun⟩ := h
  rw [← hsource]
  exact Linter.lintText_eq_ok hctx hrun path

/-! ### Runs that apply nothing -/

/-- A run makes no pass, or it applies something. -/
theorem Fixed.eq_or_applied_lt_of_passes {read : Reader} {rule : Rule} {bound : Nat} {s t : Fixed}
    (h : passes read rule bound s = .ok t) : t = s ∨ s.applied < t.applied := by
  induction bound generalizing s with
  | zero => exact .inl (Except.ok.inj h).symm
  | succ bound ih =>
      obtain ⟨next, hpass, h⟩ := bind_eq_ok.1 h
      cases next with
      | none => exact .inl (Except.ok.inj h).symm
      | some u =>
          obtain ⟨-, count, -, -, hcount, -, -, -, -, happlied, -⟩ := pass?_eq_some hpass
          rcases ih h with rfl | hlt
          · exact .inr (by omega)
          · exact .inr (by omega)

/-- Where nothing was applied, the text is the old one. -/
theorem text_of_fix? {read : Reader} {rule : Rule} {text : String} {bound : Nat} {r : Fixed}
    (hread : read.Faithful) (h : fix? read rule text bound = .ok (some r)) (hnone : r.applied = 0) :
    r.text = text := by
  obtain ⟨s, hstart, hpasses⟩ := fix?_eq_some_iff.1 h
  obtain ⟨-, htext, -, -⟩ := Fixed.current_start? hread hstart
  rcases Fixed.eq_or_applied_lt_of_passes hpasses with rfl | hlt
  · exact htext
  · omega

/-! ### The courses of fixing a file -/

namespace Editor

variable {e : Editor} {linter : Linter} {read : Reader} {d after : Disk} {path : String}

/-- The courses that fixing a file can take, from a text and what the passes make of it. -/
inductive Course (e : Editor) (linter : Linter) (read : Reader) (d : Disk) (path text : String)
    (fixed : Fixed) : FileFix → Disk → Prop
  /-- There was nothing to fix. -/
  | unchanged (hnone : fixed.applied = 0) :
      Course e linter read d path text fixed
        ⟨.unchanged, 0, linter.report path fixed.source fixed.remaining⟩ d
  /-- The fixed text was written. -/
  | written {after : Disk} (hsome : 0 < fixed.applied)
      (hwrite : d.write? path fixed.text = some after) :
      Course e linter read d path text fixed
        ⟨.written, fixed.applied, linter.report path fixed.source fixed.remaining⟩ after
  /-- The fixed text was not written, and the old one was looked through again. -/
  | kept {outcome : Outcome} {report : FileReport} (hsome : 0 < fixed.applied)
      (hchosen : e.choose path = .ok outcome) (hnot : outcome ≠ .written)
      (hreport : (linter.lintText read path text).run = .ok (.ok report)) :
      Course e linter read d path text fixed ⟨outcome, fixed.applied, report⟩ d

/-- Fixing a file takes one of the courses. -/
theorem course_of_fixFile {fix : FileFix}
    (h : (e.fixFile linter read d path).run = .ok (.ok (fix, after))) :
    ∃ text fixed, d.read? path = some text ∧
      fix? read linter.rule text (max e.maxPasses 1) = .ok (some fixed) ∧
      Course e linter read d path text fixed fix after := by
  rw [fixFile, work] at h
  -- nothing is done to the disk before a text is written
  obtain ⟨text, _, hstep, hgo⟩ := Work.run_bind_eq_ok.1 h
  obtain ⟨htext, rfl⟩ := Work.readFile_eq_ok.1 hstep
  obtain ⟨found, _, hstep, hgo⟩ := Work.run_bind_eq_ok.1 hgo
  obtain ⟨hfix, rfl⟩ := Work.ofFaulty_eq_ok.1 hstep
  cases found with
  | none => exact absurd hgo Work.fail_ne_ok
  | some fixed =>
      refine ⟨text, fixed, htext, hfix, ?_⟩
      dsimp only at hgo
      split at hgo
      · rename_i hsame
        obtain ⟨rfl, rfl⟩ := Work.run_pure_eq_ok.1 hgo
        exact .unchanged (by simpa [Fixed.isChanged] using hsame)
      · rename_i hchanged
        have hsome : 0 < fixed.applied := by
          simpa [Fixed.isChanged, Nat.pos_iff_ne_zero] using hchanged
        obtain ⟨chosen, _, hstep, hgo⟩ := Work.run_bind_eq_ok.1 hgo
        obtain ⟨hchosen, rfl⟩ := Work.ofAttempt_eq_ok.1 hstep
        rw [Attempt.run_ofResult_eq_ok] at hchosen
        split at hgo
        · obtain ⟨_, _, hwrite, hgo⟩ := Work.run_bind_eq_ok.1 hgo
          obtain ⟨rfl, rfl⟩ := Work.run_pure_eq_ok.1 hgo
          exact .written hsome (Work.writeFile_eq_ok.1 hwrite)
        · rename_i hnot
          obtain ⟨report, _, hstep, hgo⟩ := Work.run_bind_eq_ok.1 hgo
          obtain ⟨hreport, rfl⟩ := Work.ofAttempt_eq_ok.1 hstep
          obtain ⟨rfl, rfl⟩ := Work.run_pure_eq_ok.1 hgo
          exact .kept hsome hchosen hnot hreport

/-- Where fixing a file fails, it cannot be read or written, is no program, or nobody answers.
Whatever the cause, it comes before anything has been done to the disk. -/
theorem cause_of_fixFile {setback : Setback}
    (h : (e.fixFile linter read d path).run = .ok (.error setback)) :
    setback.disk = d ∧
      (setback.failure = .access path ∧
          (d.read? path = none ∨ ∃ text, d.write? path text = none) ∨
        setback.failure = .malformed path none ∧
          (∃ text, d.read? path = some text ∧ read text = none) ∨
        e.choose path = .error setback.failure) := by
  rw [fixFile, work] at h
  obtain hstep | ⟨text, d', hstep, h⟩ := Work.run_bind_eq_error.1 h
  · obtain ⟨hnone, rfl⟩ := Work.readFile_eq_error.1 hstep
    exact ⟨rfl, .inl ⟨rfl, .inl hnone⟩⟩
  obtain ⟨htext, rfl⟩ := Work.readFile_eq_ok.1 hstep
  -- fixing a text has no failure of its own, but it may find no program
  obtain hstep | ⟨found, d', hstep, h⟩ := Work.run_bind_eq_error.1 h
  · exact absurd hstep (Work.ofFaulty_ne_error _)
  obtain ⟨hfix, rfl⟩ := Work.ofFaulty_eq_ok.1 hstep
  cases found with
  | none =>
      obtain rfl := Work.fail_eq_error.1 h
      exact ⟨rfl, .inr (.inl ⟨rfl, text, htext, fix?_eq_none_iff.1 hfix⟩)⟩
  | some fixed =>
      dsimp only at h
      split at h
      · exact absurd h (Work.run_pure_ne_error _)
      · obtain hstep | ⟨chosen, d', hstep, h⟩ := Work.run_bind_eq_error.1 h
        · obtain ⟨hchosen, hdisk⟩ := Work.ofAttempt_eq_error.1 hstep
          exact ⟨hdisk, .inr (.inr (Attempt.run_ofResult_eq_error.1 hchosen))⟩
        obtain ⟨-, rfl⟩ := Work.ofAttempt_eq_ok.1 hstep
        split at h
        · -- writing is the last step that can fail, and then it has not written
          obtain hstep | ⟨-, last, -, h⟩ := Work.run_bind_eq_error.1 h
          · obtain ⟨hnone, rfl⟩ := Work.writeFile_eq_error.1 hstep
            exact ⟨rfl, .inl ⟨rfl, .inr ⟨_, hnone⟩⟩⟩
          · exact absurd h (Work.run_pure_ne_error _)
        · obtain hstep | ⟨report, d', -, h⟩ := Work.run_bind_eq_error.1 h
          · obtain ⟨hreport, hdisk⟩ := Work.ofAttempt_eq_error.1 hstep
            obtain ⟨hcause, hnone⟩ := Linter.lintText_eq_error hreport
            exact ⟨hdisk, .inr (.inl ⟨hcause, text, htext, hnone⟩)⟩
          · exact absurd h (Work.run_pure_ne_error _)

/-- A file is written only on one course, and only that one changes the disk. -/
theorem Course.disk {text : String} {fixed : Fixed} {fix : FileFix}
    (h : Course e linter read d path text fixed fix after) :
    fix.outcome ≠ .written ∧ after = d ∨
      fix.outcome = .written ∧ 0 < fix.applied ∧ fix.applied = fixed.applied ∧
        d.write? path fixed.text = some after := by
  cases h with
  | unchanged => exact .inl ⟨by simp, rfl⟩
  | written hsome hwrite => exact .inr ⟨rfl, hsome, rfl, hwrite⟩
  | kept _ _ hnot => exact .inl ⟨hnot, rfl⟩

/-- On every course the report is that on the text on the disk. -/
theorem Course.report (hread : read.Faithful) {text : String} {fixed : Fixed} {fix : FileFix}
    (htext : d.read? path = some text)
    (hfix : fix? read linter.rule text (max e.maxPasses 1) = .ok (some fixed))
    (h : Course e linter read d path text fixed fix after) :
    ∃ content, after.read? path = some content ∧
      (linter.lintText read path content).run = .ok (.ok fix.report) := by
  have hleft := (current_of_fix? hread hfix).lintText_eq_ok path
  cases h with
  | unchanged hnone =>
      refine ⟨text, htext, ?_⟩
      rwa [text_of_fix? hread hfix hnone] at hleft
  | written _ hwrite => exact ⟨fixed.text, Disk.read?_of_write? hwrite, hleft⟩
  | kept _ _ _ hreport => exact ⟨text, htext, hreport⟩

/-- **A report tells what is on the disk, and only a file that was written has changed.**  When an
editor is done with a file, its report is that on the text that the file now has.  The disk is
another one only where the outcome says so; then the file has the text that the passes have come to
from the old one, and patches were applied.  Nothing that a path to another place leads to has
changed.  A failure has one of four causes, and the disk that it leaves is the old one. -/
theorem fixFile_reports_disk (hread : read.Faithful) (e : Editor) (linter : Linter) (d : Disk)
    (path : String) :
    (∀ fix after, (e.fixFile linter read d path).run = .ok (.ok (fix, after)) →
      (∃ content, after.read? path = some content ∧
        (linter.lintText read path content).run = .ok (.ok fix.report)) ∧
      (fix.outcome ≠ .written → after = d) ∧
      (fix.outcome = .written → 0 < fix.applied ∧ ∃ text fixed, d.read? path = some text ∧
        fix? read linter.rule text (max e.maxPasses 1) = .ok (some fixed) ∧
        after.read? path = some fixed.text ∧ fix.applied = fixed.applied) ∧
      ∀ other, Place.ofPath? other ≠ Place.ofPath? path → after.at? other = d.at? other) ∧
    ∀ failure after, (e.fixFile linter read d path).run = .ok (.error ⟨failure, after⟩) →
      after = d ∧ e.fixFiles linter read d [path] = .ok ([.error failure], d) ∧
        (failure = .access path ∧ (d.read? path = none ∨ ∃ text, d.write? path text = none) ∨
          failure = .malformed path none ∧ (∃ text, d.read? path = some text ∧ read text = none) ∨
          e.choose path = .error failure) := by
  constructor
  · intro fix after h
    obtain ⟨text, fixed, htext, hfix, hcourse⟩ := course_of_fixFile h
    refine ⟨hcourse.report hread htext hfix, ?_⟩
    obtain ⟨hnot, rfl⟩ | ⟨hwritten, hpos, happlied, hwrite⟩ := hcourse.disk
    · exact ⟨fun _ => rfl, fun hwritten => absurd hwritten hnot, fun _ _ => rfl⟩
    · exact ⟨fun hnot => absurd hwritten hnot,
        fun _ => ⟨hpos, text, fixed, htext, hfix, Disk.read?_of_write? hwrite, happlied⟩,
        fun other hother => Disk.at?_of_write? hwrite hother⟩
  · intro failure after h
    obtain ⟨hdisk, hcause⟩ := cause_of_fixFile h
    obtain rfl : after = d := hdisk
    refine ⟨rfl, ?_, hcause⟩
    simp only [fixFiles, h]
    rfl

/-- A disk with a file in which a name stands in two pairs of parentheses. -/
def groupedDisk : Disk := ⟨[(["a"], .file (some "((b))"))]⟩

set_option maxRecDepth 20000 in
/-- The file is written, and there is nothing left to report on it.  Where somebody would have to
answer first, and nobody does, the disk stays. -/
theorem fixFile_reports_disk_grouped :
    (∃ fix after, (fixFile ⟨false, none, 10⟩ ⟨{}, .warning⟩ readGrouped groupedDisk "a").run =
        .ok (.ok (fix, after)) ∧ fix.outcome = .written ∧ after.read? "a" = some "b" ∧
      (Linter.lintText ⟨{}, .warning⟩ readGrouped "a" "b").run = .ok (.ok fix.report)) ∧
    (fixFile ⟨false, some nobody, 10⟩ ⟨{}, .warning⟩ readGrouped groupedDisk "a").run =
        .ok (.error ⟨.unanswered, groupedDisk⟩) ∧
      fixFiles ⟨false, some nobody, 10⟩ ⟨{}, .warning⟩ readGrouped groupedDisk ["a"] =
        .ok ([.error .unanswered], groupedDisk) := by
  have hrun : (fixFile ⟨false, none, 10⟩ ⟨{}, .warning⟩ readGrouped groupedDisk "a").run =
      .ok (.ok (⟨.written, 2, ⟨"a", []⟩⟩, ⟨[(["a"], .file (some "b"))]⟩)) := by cbv
  have hfail : (fixFile ⟨false, some nobody, 10⟩ ⟨{}, .warning⟩ readGrouped groupedDisk
      "a").run = .ok (.error ⟨.unanswered, groupedDisk⟩) := by cbv
  obtain ⟨hok, -⟩ := fixFile_reports_disk faithful_readGrouped ⟨false, none, 10⟩ ⟨{}, .warning⟩
    groupedDisk "a"
  obtain ⟨-, herror⟩ := fixFile_reports_disk faithful_readGrouped ⟨false, some nobody, 10⟩
    ⟨{}, .warning⟩ groupedDisk "a"
  obtain ⟨⟨content, hcontent, hreport⟩, -⟩ := hok _ _ hrun
  have hread : Disk.read? ⟨[(["a"], .file (some "b"))]⟩ "a" = some "b" := by cbv
  obtain rfl : content = "b" := Option.some.inj (hcontent.symm.trans hread)
  exact ⟨⟨_, _, hrun, rfl, hread, hreport⟩, hfail, (herror _ _ hfail).2.1⟩

end Editor

end Pare
