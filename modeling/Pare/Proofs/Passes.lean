import Mathlib
import Pare.Fix
import Pare.Grammar
import Pare.Proofs.Outcome

/-!
**Passes compose.**

Fixing is a run of passes, and a run can be cut anywhere: what was fixed so far is a text like any
other, and fixing that text from scratch goes on exactly where the run was cut.  The reason is that
a state never runs ahead of its text: what it reports is what the rule reports on the text as it is
now.  That is the invariant of a run; one pass keeps it, and so does every run.

A run ends before its bound only where no pass is left to make, so there the text is a fixed point.

Main definitions:

* `Pare.Reader.Faithful` — a reader whose sources carry the text that was read;
* `Pare.Reader.Sound` — a reader on whose contexts neither the rule nor a pass breaks down;
* `Pare.Fixed.Current` — a state that reports what the rule reports on its text;
* `Pare.Fixed.after` — a state with the work of an earlier run counted in.

Main results:

* `Pare.faithful_ofText?` — the sources that the program reads carry their texts;
* `Pare.Fixed.current_pass?`, `Pare.Fixed.current_passes` — passes keep a state current;
* `Pare.Fixed.passes_after` — what was done before a run does not change the run;
* `Pare.Fixed.pass?_eq_none_of_passes` — a run that ends early has no pass left to make;
* `Pare.fix?_composes` — **fixing composes and ends in a fixed point**.
-/

set_option relaxedAutoImplicit false
set_option autoImplicit false

namespace Pare

/-! ### Readers -/

/-- A reader whose sources carry the text that was read. -/
def Reader.Faithful (read : Reader) : Prop :=
  ∀ text ctx, read text = some ctx → ctx.source.text = text

/-- The reader of the program itself is one. -/
theorem faithful_ofText? : Reader.Faithful Context.ofText? := by
  intro text ctx h
  obtain ⟨program, -, rfl⟩ := Option.map_eq_some_iff.1 h
  rfl

/-- A reader on whose contexts neither the rule nor the merging of its patches breaks down. -/
def Reader.Sound (read : Reader) (rule : Rule) : Prop :=
  ∀ text ctx, read text = some ctx →
    Succeeds (rule.run ctx) fun found =>
      Succeeds (mergePatches text (found.filterMap Detection.patch)) fun _ => True

namespace Fixed

variable {read : Reader} {rule : Rule}

/-! ### One pass -/

/-- What a pass that is made does. -/
theorem pass?_eq_some {s t : Fixed} (h : s.pass? read rule = .ok (some t)) :
    ∃ next count ctx, mergePatches s.text s.patches = .ok (next, count) ∧ count ≠ 0 ∧
      next ≠ s.text ∧ read next = some ctx ∧ rule.run ctx = .ok t.remaining ∧
      t.source = ctx.source ∧ t.applied = s.applied + count ∧ t.rounds = s.rounds + 1 := by
  unfold pass? at h
  split at h
  · cases h
  · obtain ⟨⟨next, count⟩, hmerge, h⟩ := bind_eq_ok.1 h
    dsimp only at h
    split at h
    · cases h
    · rename_i hnew
      cases hread : read next with
      | none =>
          rw [hread] at h
          cases h
      | some ctx =>
          rw [hread] at h
          obtain ⟨found, hrun, h⟩ := bind_eq_ok.1 h
          obtain rfl := Option.some.inj (Except.ok.inj h)
          simp only [Bool.or_eq_true, decide_eq_true_eq, not_or] at hnew
          exact ⟨next, count, ctx, hmerge, hnew.1, hnew.2, hread, hrun, rfl, rfl, rfl⟩

/-! ### States that are up to date -/

/-- A state that reports what the rule reports on its text. -/
def Current (read : Reader) (rule : Rule) (s : Fixed) : Prop :=
  ∃ ctx, read s.text = some ctx ∧ ctx.source = s.source ∧ rule.run ctx = .ok s.remaining

theorem current_start? {text : String} {s : Fixed} (hread : read.Faithful)
    (h : start? read rule text = .ok (some s)) :
    s.Current read rule ∧ s.text = text ∧ s.applied = 0 ∧ s.rounds = 0 := by
  unfold start? at h
  cases hctx : read text with
  | none =>
      rw [hctx] at h
      cases h
  | some ctx =>
      rw [hctx] at h
      obtain ⟨found, hrun, h⟩ := bind_eq_ok.1 h
      obtain rfl := Option.some.inj (Except.ok.inj h)
      have htext : ctx.source.text = text := hread text ctx hctx
      exact ⟨⟨ctx, (congrArg read htext).trans hctx, rfl, hrun⟩, htext, rfl, rfl⟩

/-- A pass brings a state up to date. -/
theorem current_pass? {s t : Fixed} (hread : read.Faithful)
    (h : s.pass? read rule = .ok (some t)) : t.Current read rule := by
  obtain ⟨next, _, ctx, -, -, -, hctx, hrun, hsource, -, -⟩ := pass?_eq_some h
  have htext : t.text = next := by
    rw [text, hsource]
    exact hread next ctx hctx
  exact ⟨ctx, (congrArg read htext).trans hctx, hsource.symm, hrun⟩

/-- A run keeps a state up to date. -/
theorem current_passes {bound : Nat} {s t : Fixed} (hread : read.Faithful)
    (hs : s.Current read rule) (h : passes read rule bound s = .ok t) : t.Current read rule := by
  induction bound generalizing s with
  | zero =>
      obtain rfl := Except.ok.inj h
      exact hs
  | succ bound ih =>
      obtain ⟨next, hpass, h⟩ := bind_eq_ok.1 h
      cases next with
      | none =>
          obtain rfl := Except.ok.inj h
          exact hs
      | some u => exact ih (current_pass? hread hpass) h

/-! ### Work done before -/

/-- A state with the work of an earlier run counted in. -/
def after (s r : Fixed) : Fixed :=
  { s with applied := r.applied + s.applied, rounds := r.rounds + s.rounds }

/-- A state as it is at the start of a run. -/
def fresh (s : Fixed) : Fixed := { s with applied := 0, rounds := 0 }

/-- Work done before does not change a pass. -/
theorem pass?_after (s r : Fixed) :
    (s.after r).pass? read rule = (s.pass? read rule).map (Option.map fun t => t.after r) := by
  have hpatches : (s.after r).patches = s.patches := rfl
  have htext : (s.after r).text = s.text := rfl
  -- the counts are not looked at on any of the ways out of a pass
  unfold pass?
  rw [hpatches, htext]
  split
  · rfl
  · cases mergePatches s.text s.patches with
    | error e => rfl
    | ok outcome =>
        obtain ⟨next, count⟩ := outcome
        simp only [bind, Except.bind]
        split
        · rfl
        · cases read next with
          | none => rfl
          | some ctx =>
              dsimp only
              cases rule.run ctx with
              | error e => rfl
              | ok found => simp [after, Except.map, pure, Except.pure, Nat.add_assoc]

/-- Work done before does not change a run. -/
theorem passes_after (bound : Nat) (s r : Fixed) :
    passes read rule bound (s.after r) = (passes read rule bound s).map fun t => t.after r := by
  induction bound generalizing s with
  | zero => rfl
  | succ bound ih =>
      simp only [passes, pass?_after]
      cases s.pass? read rule with
      | error e => rfl
      | ok next =>
          cases next with
          | none => rfl
          | some t => simpa [bind, Except.bind, Except.map] using ih t

/-! ### Runs that end early -/

/-- A run makes at most as many passes as its bound, and where it makes fewer, none is left. -/
theorem pass?_eq_none_of_passes {bound : Nat} {s t : Fixed}
    (h : passes read rule bound s = .ok t) :
    t.rounds ≤ s.rounds + bound ∧
      (t.rounds < s.rounds + bound → t.pass? read rule = .ok none) := by
  induction bound generalizing s with
  | zero =>
      obtain rfl := Except.ok.inj h
      omega
  | succ bound ih =>
      obtain ⟨next, hpass, h⟩ := bind_eq_ok.1 h
      cases next with
      | none =>
          obtain rfl := Except.ok.inj h
          exact ⟨by omega, fun _ => hpass⟩
      | some u =>
          obtain ⟨-, -, -, -, -, -, -, -, -, -, hrounds⟩ := pass?_eq_some hpass
          obtain ⟨hle, hend⟩ := ih h
          exact ⟨by omega, fun hlt => hend (by omega)⟩

end Fixed

/-! ### Fixing a text -/

section

variable {read : Reader} {rule : Rule} {text : String}

/-- Fixing has no result exactly where the text is no program. -/
theorem fix?_eq_none_iff {bound : Nat} :
    fix? read rule text bound = .ok none ↔ read text = none := by
  unfold fix? Fixed.start?
  cases hctx : read text with
  | none => exact ⟨fun _ => rfl, fun _ => rfl⟩
  | some ctx =>
      simp only [reduceCtorEq, iff_false]
      intro h
      obtain ⟨start, hstart, h⟩ := bind_eq_ok.1 h
      obtain ⟨found, -, hfound⟩ := bind_eq_ok.1 hstart
      obtain rfl := Except.ok.inj hfound
      obtain ⟨r, -, h⟩ := bind_eq_ok.1 h
      cases h

/-- Fixing is a run of passes from the state before any pass. -/
theorem fix?_eq_some_iff {bound : Nat} {r : Fixed} :
    fix? read rule text bound = .ok (some r) ↔
      ∃ s, Fixed.start? read rule text = .ok (some s) ∧ s.passes read rule bound = .ok r := by
  unfold fix?
  constructor
  · intro h
    obtain ⟨start, hstart, h⟩ := bind_eq_ok.1 h
    cases start with
    | none => cases h
    | some s =>
        obtain ⟨t, hrun, h⟩ := bind_eq_ok.1 h
        obtain rfl := Option.some.inj (Except.ok.inj h)
        exact ⟨s, hstart, hrun⟩
  · rintro ⟨s, hstart, hrun⟩
    simp only [hstart, bind, Except.bind, hrun]
    rfl

/-- A current state is where fixing its text starts, its counts apart. -/
theorem Fixed.Current.start? {s : Fixed} (h : s.Current read rule) :
    Fixed.start? read rule s.text = .ok (some s.fresh) := by
  obtain ⟨ctx, hctx, hsource, hrun⟩ := h
  simp only [Fixed.start?, hctx, hrun, hsource]
  rfl

/-- What fixing has reached is current. -/
theorem current_of_fix? (hread : read.Faithful) {bound : Nat} {r : Fixed}
    (h : fix? read rule text bound = .ok (some r)) : r.Current read rule := by
  obtain ⟨s, hstart, hrun⟩ := fix?_eq_some_iff.1 h
  exact Fixed.current_passes hread (Fixed.current_start? hread hstart).1 hrun

/-- Fixing on from a current state is fixing its text, with the work done before counted in. -/
theorem passes_eq_ok_iff_fix? {s : Fixed} (hs : s.Current read rule) {bound : Nat} {t : Fixed} :
    s.passes read rule bound = .ok t ↔
      ∃ r, fix? read rule s.text bound = .ok (some r) ∧ t = r.after s := by
  -- the state is where fixing its text starts, after the work of the state itself
  have hrun : s.passes read rule bound =
      (s.fresh.passes read rule bound).map fun t => t.after s :=
    Fixed.passes_after bound s.fresh s
  constructor
  · intro h
    rw [hrun] at h
    cases hfresh : s.fresh.passes read rule bound with
    | error e =>
        rw [hfresh] at h
        cases h
    | ok r =>
        rw [hfresh] at h
        exact ⟨r, fix?_eq_some_iff.2 ⟨s.fresh, hs.start?, hfresh⟩, (Except.ok.inj h).symm⟩
  · rintro ⟨r, hfix, rfl⟩
    obtain ⟨u, hstart, hpasses⟩ := fix?_eq_some_iff.1 hfix
    rw [hs.start?] at hstart
    obtain rfl := Option.some.inj (Except.ok.inj hstart)
    rw [hrun, hpasses]
    rfl

/-- A pass from a current state over a sound reader does not break down. -/
theorem Fixed.Current.exists_pass? {s : Fixed} (hsound : read.Sound rule)
    (hs : s.Current read rule) : ∃ next, s.pass? read rule = .ok next := by
  obtain ⟨ctx, hctx, hsource, hrun⟩ := hs
  obtain ⟨found, hfound, outcome, hmerge, -⟩ := hsound s.text ctx hctx
  obtain rfl := Except.ok.inj (hrun.symm.trans hfound)
  have hpatches : mergePatches s.text s.patches = .ok outcome := hmerge
  unfold Fixed.pass?
  split
  · exact ⟨_, rfl⟩
  · simp only [hpatches, bind, Except.bind]
    split
    · exact ⟨_, rfl⟩
    · cases hnext : read outcome.1 with
      | none => exact ⟨_, rfl⟩
      | some next =>
          obtain ⟨again, hagain, -⟩ := hsound outcome.1 next hnext
          simp only [hagain]
          exact ⟨_, rfl⟩

/-- A run from a current state over a sound reader does not break down. -/
theorem Fixed.Current.exists_passes {s : Fixed} (hread : read.Faithful) (hsound : read.Sound rule)
    (hs : s.Current read rule) (bound : Nat) : ∃ t, s.passes read rule bound = .ok t := by
  induction bound generalizing s with
  | zero => exact ⟨s, rfl⟩
  | succ bound ih =>
      obtain ⟨next, hpass⟩ := hs.exists_pass? hsound
      cases next with
      | none => exact ⟨s, Fixed.passes_of_pass?_eq_none hpass (bound + 1)⟩
      | some t =>
          obtain ⟨u, hu⟩ := ih (Fixed.current_pass? hread hpass)
          exact ⟨u, by simpa only [Fixed.passes, hpass, bind, Except.bind] using hu⟩

/-- Over a sound reader, fixing a program has a result. -/
theorem exists_fix? (hread : read.Faithful) (hsound : read.Sound rule) (htext : read text ≠ none)
    (bound : Nat) : ∃ r, fix? read rule text bound = .ok (some r) := by
  obtain ⟨ctx, hctx⟩ := Option.ne_none_iff_exists'.1 htext
  obtain ⟨found, hrun, -⟩ := hsound text ctx hctx
  have hstart : Fixed.start? read rule text = .ok (some ⟨ctx.source, 0, 0, found⟩) := by
    simp only [Fixed.start?, hctx, hrun]
    rfl
  obtain ⟨r, hr⟩ := (Fixed.current_start? hread hstart).1.exists_passes hread hsound bound
  exact ⟨r, fix?_eq_some_iff.2 ⟨_, hstart, hr⟩⟩

/-- Making `n + m` passes is making `n` passes and then fixing the outcome with `m` passes. -/
theorem fix?_add (hread : read.Faithful) {n m : Nat} {r : Fixed} :
    fix? read rule text (n + m) = .ok (some r) ↔
      ∃ r₁ r₂, fix? read rule text n = .ok (some r₁) ∧
        fix? read rule r₁.text m = .ok (some r₂) ∧ r = r₂.after r₁ := by
  rw [fix?_eq_some_iff]
  constructor
  · rintro ⟨s, hstart, hrun⟩
    rw [Fixed.passes_add] at hrun
    obtain ⟨r₁, hfirst, hrun⟩ := bind_eq_ok.1 hrun
    have hfix := fix?_eq_some_iff.2 ⟨s, hstart, hfirst⟩
    obtain ⟨r₂, hsecond, hr⟩ := (passes_eq_ok_iff_fix? (current_of_fix? hread hfix)).1 hrun
    exact ⟨r₁, r₂, hfix, hsecond, hr⟩
  · rintro ⟨r₁, r₂, hfix, hsecond, hr⟩
    obtain ⟨s, hstart, hfirst⟩ := fix?_eq_some_iff.1 hfix
    refine ⟨s, hstart, ?_⟩
    rw [Fixed.passes_add]
    exact bind_eq_ok.2 ⟨r₁, hfirst,
      (passes_eq_ok_iff_fix? (current_of_fix? hread hfix)).2 ⟨r₂, hsecond, hr⟩⟩

/-- Over a sound reader, fixing a program in two runs and fixing it in one all have a result. -/
theorem exists_fix?_add (hread : read.Faithful) (hsound : read.Sound rule)
    (htext : read text ≠ none) (n m : Nat) :
    ∃ r₁ r₂, fix? read rule text n = .ok (some r₁) ∧
      fix? read rule r₁.text m = .ok (some r₂) ∧
      fix? read rule text (n + m) = .ok (some (r₂.after r₁)) := by
  obtain ⟨r, hr⟩ := exists_fix? hread hsound htext (n + m)
  obtain ⟨r₁, r₂, hfirst, hsecond, rfl⟩ := (fix?_add hread).1 hr
  exact ⟨r₁, r₂, hfirst, hsecond, hr⟩

/-- Where fixing ended before its bound, fixing the outcome makes no pass. -/
theorem fix?_of_rounds_lt (hread : read.Faithful) {n : Nat} {r₁ : Fixed}
    (h : fix? read rule text n = .ok (some r₁)) (hlt : r₁.rounds < n) (m : Nat) :
    ∃ r₂, fix? read rule r₁.text m = .ok (some r₂) ∧ r₁ = r₂.after r₁ := by
  obtain ⟨s, hstart, hpasses⟩ := fix?_eq_some_iff.1 h
  obtain ⟨-, -, -, hzero⟩ := Fixed.current_start? hread hstart
  have hnone := (Fixed.pass?_eq_none_of_passes hpasses).2 (by omega)
  exact (passes_eq_ok_iff_fix? (current_of_fix? hread h)).1
    (Fixed.passes_of_pass?_eq_none hnone m)

end

/-- **Fixing composes and ends in a fixed point.**  Let a reader carry the texts it reads.
Fixing has no result exactly where the text is no program.  What it has reached is a program, what
it reports there is what the rule reports, and if it ended before its bound, fixing once more
changes nothing.  Making `n + m` passes is making `n` passes and then fixing the outcome with `m`
passes, the counts added up; and where neither the rule nor a pass breaks down on what is read, all
three runs have a result for every program. -/
theorem fix?_composes {read : Reader} (hread : read.Faithful) (rule : Rule) (text : String) :
    (∀ n, fix? read rule text n = .ok none ↔ read text = none) ∧
      (∀ n r₁, fix? read rule text n = .ok (some r₁) →
        (∃ ctx, read r₁.text = some ctx ∧ rule.run ctx = .ok r₁.remaining) ∧
          (r₁.rounds < n → ∀ m, ∃ r₂, fix? read rule r₁.text m = .ok (some r₂) ∧
            r₂.applied = 0 ∧ r₂.rounds = 0 ∧ r₂.text = r₁.text)) ∧
      (∀ n m r, fix? read rule text (n + m) = .ok (some r) ↔
        ∃ r₁ r₂, fix? read rule text n = .ok (some r₁) ∧
          fix? read rule r₁.text m = .ok (some r₂) ∧ r.source = r₂.source ∧
          r.remaining = r₂.remaining ∧ r.applied = r₁.applied + r₂.applied ∧
          r.rounds = r₁.rounds + r₂.rounds) ∧
      (read.Sound rule → read text ≠ none → ∀ n m, ∃ r₁ r₂ r,
        fix? read rule text n = .ok (some r₁) ∧ fix? read rule r₁.text m = .ok (some r₂) ∧
          fix? read rule text (n + m) = .ok (some r) ∧ r.text = r₂.text ∧
          r.remaining = r₂.remaining ∧ r.applied = r₁.applied + r₂.applied ∧
          r.rounds = r₁.rounds + r₂.rounds) := by
  refine ⟨fun n => fix?_eq_none_iff, ?_, ?_, ?_⟩
  · intro n r₁ hfix
    obtain ⟨ctx, hctx, -, hrun⟩ := current_of_fix? hread hfix
    refine ⟨⟨ctx, hctx, hrun⟩, fun hlt m => ?_⟩
    obtain ⟨r₂, hagain, hsame⟩ := fix?_of_rounds_lt hread hfix hlt m
    have happlied := congrArg Fixed.applied hsame
    have hrounds := congrArg Fixed.rounds hsame
    simp only [Fixed.after] at happlied hrounds
    exact ⟨r₂, hagain, by omega, by omega, (congrArg Fixed.text hsame).symm⟩
  · intro n m r
    rw [fix?_add hread]
    constructor
    · rintro ⟨r₁, r₂, hfirst, hsecond, rfl⟩
      exact ⟨r₁, r₂, hfirst, hsecond, rfl, rfl, rfl, rfl⟩
    · rintro ⟨r₁, r₂, hfirst, hsecond, hsource, hremaining, happlied, hrounds⟩
      refine ⟨r₁, r₂, hfirst, hsecond, ?_⟩
      cases r
      simp_all only [Fixed.after]
  · intro hsound htext n m
    obtain ⟨r₁, r₂, hfirst, hsecond, hall⟩ := exists_fix?_add hread hsound htext n m
    exact ⟨r₁, r₂, _, hfirst, hsecond, hall, rfl, rfl, rfl, rfl⟩

/-! ### A name in parentheses -/

/-- The name `b` in so many parentheses. -/
def grouped (depth : Nat) : Context where
  tree := ⟨#[
    ⟨.program [1], .upTo 0 (2 * depth + 1), none⟩,
    ⟨.expressionStatement 2, .upTo 0 (2 * depth + 1), some 0⟩,
    ⟨.identifier "b", .upTo depth (depth + 1), some 1⟩]⟩
  source := ⟨String.ofList (List.replicate depth '(' ++ 'b' :: List.replicate depth ')'),
    ((List.range depth).map (fun i => Token.mk .punctuator "(" (.upTo i (i + 1))) ++
      Token.mk .word "b" (.upTo depth (depth + 1)) ::
      (List.range depth).map fun i =>
        Token.mk .punctuator ")" (.upTo (depth + 1 + i) (depth + 2 + i))).toArray, #[]⟩

/-- A reader of the name in at most two pairs of parentheses. -/
def readGrouped : Reader := fun text =>
  [grouped 2, grouped 1, grouped 0].find? fun ctx => ctx.source.text == text

theorem eq_grouped_of_readGrouped {text : String} {ctx : Context}
    (h : readGrouped text = some ctx) :
    (ctx = grouped 2 ∨ ctx = grouped 1 ∨ ctx = grouped 0) ∧ ctx.source.text = text := by
  have hmem := List.mem_of_find?_eq_some h
  have htext := List.find?_some h
  exact ⟨by simpa using hmem, by simpa using htext⟩

theorem faithful_readGrouped : readGrouped.Faithful :=
  fun _ _ h => (eq_grouped_of_readGrouped h).2

set_option maxRecDepth 20000 in
theorem sound_readGrouped : readGrouped.Sound {} := by
  intro text ctx h
  obtain ⟨hctx, rfl⟩ := eq_grouped_of_readGrouped h
  -- evaluated by equations of the library that no smaller import has together
  rcases hctx with rfl | rfl | rfl
  · exact ⟨[⟨2, .parens, .upTo 1 4, some ⟨⟨.upTo 1 2, ""⟩, [⟨.upTo 3 4, ""⟩]⟩⟩], by cbv,
      ("(b)", 1), by cbv, trivial⟩
  · exact ⟨[⟨2, .parens, .upTo 0 3, some ⟨⟨.upTo 0 1, ""⟩, [⟨.upTo 2 3, ""⟩]⟩⟩], by cbv,
      ("b", 1), by cbv, trivial⟩
  · exact ⟨[], by cbv, ("b", 0), by cbv, trivial⟩

set_option maxRecDepth 20000 in
/-- Two pairs of parentheses are peeled off in two passes, made in one run or in two, and fixing
what is left changes nothing. -/
theorem fix?_composes_grouped :
    (∃ r₁ r₂ r, fix? readGrouped {} "((b))" 1 = .ok (some r₁) ∧
      fix? readGrouped {} r₁.text 1 = .ok (some r₂) ∧
      fix? readGrouped {} "((b))" 2 = .ok (some r) ∧ r.text = r₂.text ∧
      r.remaining = r₂.remaining ∧ r.applied = r₁.applied + r₂.applied ∧
      r.rounds = r₁.rounds + r₂.rounds) ∧
      ∃ r₂, fix? readGrouped {} "b" 5 = .ok (some r₂) ∧ r₂.applied = 0 ∧ r₂.rounds = 0 ∧
        r₂.text = "b" := by
  obtain ⟨-, hend, -, hruns⟩ := fix?_composes faithful_readGrouped {} "((b))"
  have hfix : fix? readGrouped {} "((b))" 3 = .ok (some ⟨(grouped 0).source, 2, 2, []⟩) := by cbv
  exact ⟨hruns sound_readGrouped (by decide +kernel) 1 1, (hend 3 _ hfix).2 (by decide) 5⟩

end Pare
