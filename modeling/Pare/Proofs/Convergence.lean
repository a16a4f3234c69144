import Pare.Proofs.Passes
import Pare.Proofs.Reports

/-!
**Fixing converges.**

Neither the length of a text nor the number of reports goes down with every pass: a deletion may
leave a space, a value may get parentheses, and taking away one pair of parentheses may uncover
another.  What does go down is the number of characters that are not blank, by at least two for
every patch that is applied.  So no text comes back during fixing, and after as many passes as there
are pairs of such characters nothing is left to apply.

Main definitions:

* `Pare.Reader.WellFormed` — a reader that returns only well-formed contexts of the texts it reads.

Main results:

* `Pare.Reader.WellFormed.sound` — over such a reader nothing breaks down;
* `Pare.Reader.WellFormed.exists_fix?_add` — so fixing in two runs has a result, that of one run;
* `Pare.Fixed.Current.ink_pass?` — what one pass takes away;
* `Pare.Fixed.Current.ink_passes`, `Pare.Fixed.Current.exists_trail` — what a run takes away, and
  that the texts on its way are all different;
* `Pare.fix?_converges` — **fixing converges**.
-/

set_option relaxedAutoImplicit false
set_option autoImplicit false

namespace Pare

open Text (ink)

/-- A reader that returns only well-formed contexts of the texts it reads. -/
def Reader.WellFormed (read : Reader) : Prop :=
  ∀ text ctx, read text = some ctx → ctx.source.text = text ∧ ctx.WellFormed

namespace Reader.WellFormed

variable {read : Reader}

theorem faithful (h : read.WellFormed) : read.Faithful :=
  fun text ctx hctx => (h text ctx hctx).1

/-- The patches that the rule offers on a text that was read fit it and take away characters. -/
theorem patches (h : read.WellFormed) {rule : Rule} {text : String} {ctx : Context}
    (hctx : read text = some ctx) {found : List Detection} (hrun : rule.run ctx = .ok found) :
    ∀ p ∈ found.filterMap Detection.patch, Placed text.toList 0 p.edits ∧
      inkGained p.edits + 2 ≤ inkLost text.toList p.edits := by
  intro p hp
  obtain ⟨d, hd, hpatch⟩ := List.mem_filterMap.1 hp
  obtain ⟨rfl, hwf⟩ := h text ctx hctx
  obtain ⟨reports, hreports, hsound⟩ := Rule.run_repairs hwf rule
  obtain rfl := Except.ok.inj (hrun.symm.trans hreports)
  exact ⟨(hsound d hd p hpatch).placed, (hsound d hd p hpatch).saves⟩

/-- Over such a reader nothing breaks down. -/
theorem sound (h : read.WellFormed) (rule : Rule) : read.Sound rule := by
  intro text ctx hctx
  obtain ⟨found, hrun, -⟩ := Rule.run_repairs (h text ctx hctx).2 rule
  refine ⟨found, hrun, _, mergePatches_eq_ok fun p hp => ?_, trivial⟩
  exact (h.patches hctx hrun p hp).1

/-- Over such a reader, making `n` passes, fixing the outcome with `m` passes, and making `n + m`
passes all have a result for every program, the same one but for the counts. -/
theorem exists_fix?_add (h : read.WellFormed) (rule : Rule) {text : String}
    (htext : read text ≠ none) (n m : Nat) :
    ∃ r₁ r₂, fix? read rule text n = .ok (some r₁) ∧
      fix? read rule r₁.text m = .ok (some r₂) ∧
      fix? read rule text (n + m) = .ok (some (r₂.after r₁)) :=
  Pare.exists_fix?_add h.faithful (h.sound rule) htext n m

end Reader.WellFormed

/-! ### What a pass takes away -/

/-- Patches that take away two characters each take away twice their number together. -/
theorem inkGained_flatMap_le {cs : List Char} {patches : List Patch}
    (h : ∀ p ∈ patches, inkGained p.edits + 2 ≤ inkLost cs p.edits) :
    inkGained (patches.flatMap Patch.edits) + 2 * patches.length ≤
      inkLost cs (patches.flatMap Patch.edits) := by
  induction patches with
  | nil => simp [inkGained, inkLost]
  | cons p patches ih =>
      have hp := h p (List.mem_cons_self ..)
      have hrest := ih fun q hq => h q (List.mem_cons_of_mem p hq)
      simp only [inkGained, inkLost] at hp hrest
      simp only [inkGained, inkLost, List.flatMap_cons, List.map_append, List.sum_append,
        List.length_cons]
      omega

/-- Merging patches that take away two characters each. -/
theorem ink_mergePatches {text out : String} {patches : List Patch} {count : Nat}
    (hplaced : ∀ p ∈ patches, Placed text.toList 0 p.edits)
    (hsaves : ∀ p ∈ patches, inkGained p.edits + 2 ≤ inkLost text.toList p.edits)
    (h : mergePatches text patches = .ok (out, count)) :
    ink out.toList + 2 * count ≤ ink text.toList := by
  rw [mergePatches_eq_ok hplaced] at h
  obtain ⟨rfl, rfl⟩ := Prod.mk.inj (Except.ok.inj h)
  have hall := placed_accepted hplaced
  have hbalance := ink_rewritten (Text.isBoundary_zero _) (Text.isBoundary_byteSize _)
    (Nat.zero_le _) hall fun e he => (hall.boundary e he).2.le_byteSize
  have hless := inkGained_flatMap_le fun p hp => hsaves p (mem_of_mem_accepted hp)
  rw [Text.slice_whole] at hbalance
  rw [String.toList_ofList]
  omega

namespace Fixed.Current

variable {read : Reader} {rule : Rule} {s t : Fixed}

/-- One pass takes away two characters for every patch that it applies, and it applies some. -/
theorem ink_pass? (hread : read.WellFormed) (hs : s.Current read rule)
    (h : s.pass? read rule = .ok (some t)) :
    s.applied < t.applied ∧ t.rounds = s.rounds + 1 ∧
      ink t.text.toList + 2 * t.applied ≤ ink s.text.toList + 2 * s.applied := by
  obtain ⟨next, count, ctx, hmerge, hcount, -, hctx, -, hsource, happlied, hrounds⟩ :=
    pass?_eq_some h
  obtain ⟨now, hnow, -, hrun⟩ := hs
  have hink := ink_mergePatches (fun p hp => (hread.patches hnow hrun p hp).1)
    (fun p hp => (hread.patches hnow hrun p hp).2) hmerge
  have htext : t.text = next := by
    rw [text, hsource]
    exact (hread next ctx hctx).1
  rw [htext]
  exact ⟨by omega, hrounds, by omega⟩

/-- A run takes away two characters for every patch that it applies; it applies one in each pass,
and none only if it makes no pass. -/
theorem ink_passes (hread : read.WellFormed) {bound : Nat} (hs : s.Current read rule)
    (h : passes read rule bound s = .ok t) :
    (t = s ∨ s.applied < t.applied) ∧ t.rounds + s.applied ≤ s.rounds + t.applied ∧
      ink t.text.toList + 2 * t.applied ≤ ink s.text.toList + 2 * s.applied := by
  induction bound generalizing s with
  | zero =>
      obtain rfl := Except.ok.inj h
      exact ⟨.inl rfl, Nat.le_refl _, Nat.le_refl _⟩
  | succ bound ih =>
      obtain ⟨next, hpass, h⟩ := bind_eq_ok.1 h
      cases next with
      | none =>
          obtain rfl := Except.ok.inj h
          exact ⟨.inl rfl, Nat.le_refl _, Nat.le_refl _⟩
      | some u =>
          obtain ⟨happlied, hrounds, hink⟩ := hs.ink_pass? hread hpass
          obtain ⟨hrun, hrounds', hink'⟩ := ih (current_pass? hread.faithful hpass) h
          refine ⟨.inr ?_, by omega, by omega⟩
          rcases hrun with rfl | hlt
          · exact happlied
          · omega

/-- The states on the way of a run have fewer and fewer characters that are not blank. -/
theorem exists_trail (hread : read.WellFormed) (bound : Nat) (hs : s.Current read rule) :
    ∃ states, s.trail read rule bound = .ok states ∧
      (∀ u ∈ states, ink u.text.toList ≤ ink s.text.toList) ∧
      states.Pairwise fun u v => ink v.text.toList < ink u.text.toList := by
  induction bound generalizing s with
  | zero => exact ⟨[s], rfl, by simp, List.pairwise_singleton ..⟩
  | succ bound ih =>
      obtain ⟨next, hpass⟩ := hs.exists_pass? (hread.sound rule)
      cases next with
      | none =>
          refine ⟨[s], ?_, by simp, List.pairwise_singleton ..⟩
          rw [trail, hpass, ok_bind]
          rfl
      | some u =>
          obtain ⟨happlied, -, hink⟩ := hs.ink_pass? hread hpass
          obtain ⟨states, htrail, hbelow, hdown⟩ := ih (current_pass? hread.faithful hpass)
          -- each state is below the first one of the rest, which the pass has made smaller
          have hlater : ∀ v ∈ states, ink v.text.toList < ink s.text.toList := by
            intro v hv
            have := hbelow v hv
            omega
          refine ⟨s :: states, ?_, ?_, List.pairwise_cons.2 ⟨hlater, hdown⟩⟩
          · rw [trail, hpass, ok_bind]
            simp only [htrail, ok_bind]
            rfl
          · intro v hv
            rcases List.mem_cons.1 hv with rfl | hv
            · exact Nat.le_refl _
            · exact Nat.le_of_lt (hlater v hv)

end Fixed.Current

/-! ### Fixing a text -/

/-- **Fixing converges.**  Let a reader return only well-formed contexts.  For every program and
every bound fixing has a result, with at least two characters fewer for every patch applied, blanks
not counted.  So no text comes back on the way, something was applied exactly if the text is another
one, and a bound beyond half the number of characters is not reached. -/
theorem fix?_converges {read : Reader} (hread : read.WellFormed) (rule : Rule) {text : String}
    (htext : read text ≠ none) (bound : Nat) :
    ∃ r, fix? read rule text bound = .ok (some r) ∧
      ink r.text.toList + 2 * r.applied ≤ ink text.toList ∧
      (∃ start states, Fixed.start? read rule text = .ok (some start) ∧
        start.trail read rule bound = .ok states ∧ states.getLast? = some r ∧
        (states.map Fixed.text).Nodup) ∧
      (r.isChanged = true ↔ r.text ≠ text) ∧
      (ink text.toList / 2 < bound → r.rounds < bound) := by
  obtain ⟨r, hfix⟩ := exists_fix? hread.faithful (hread.sound rule) htext bound
  obtain ⟨start, hstart, hpasses⟩ := fix?_eq_some_iff.1 hfix
  obtain ⟨hcurrent, hsame, hzero, hfirst⟩ := Fixed.current_start? hread.faithful hstart
  obtain ⟨hchanged, hrounds, hink⟩ := hcurrent.ink_passes hread hpasses
  obtain ⟨states, htrail, -, hdown⟩ := hcurrent.exists_trail hread bound
  obtain ⟨last, hlast, hend⟩ := Fixed.getLast?_of_trail htrail
  obtain rfl := Except.ok.inj (hpasses.symm.trans hend)
  rw [hsame, hzero] at hink
  refine ⟨r, hfix, by omega, ⟨start, states, hstart, htrail, hlast, ?_⟩, ?_, by omega⟩
  · -- texts on the way hold less and less, so no two of them are equal
    refine List.pairwise_map.2 (hdown.imp ?_)
    intro u v hlt heq
    rw [heq] at hlt
    exact Nat.lt_irrefl _ hlt
  · -- what was applied has taken characters away, and without a pass the text is the same
    rw [Fixed.isChanged, decide_eq_true_eq]
    constructor
    · rintro happlied rfl
      omega
    · intro hne
      rcases hchanged with rfl | hlt
      · exact absurd hsame hne
      · omega

/-! ### A name in parentheses -/

set_option maxRecDepth 20000 in
theorem wellFormed_grouped {depth : Nat} (h : depth = 2 ∨ depth = 1 ∨ depth = 0) :
    (grouped depth).WellFormed := by
  rcases h with rfl | rfl | rfl <;> decide

theorem wellFormed_readGrouped : readGrouped.WellFormed := by
  intro text ctx h
  obtain ⟨hctx, htext⟩ := eq_grouped_of_readGrouped h
  refine ⟨htext, ?_⟩
  rcases hctx with rfl | rfl | rfl
  · exact wellFormed_grouped (.inl rfl)
  · exact wellFormed_grouped (.inr (.inl rfl))
  · exact wellFormed_grouped (.inr (.inr rfl))

/-- Two pairs of parentheses are gone before the third pass. -/
theorem fix?_converges_grouped :
    ∃ r, fix? readGrouped {} "((b))" 3 = .ok (some r) ∧ ink r.text.toList + 2 * r.applied ≤ 5 ∧
      (r.isChanged = true ↔ r.text ≠ "((b))") ∧ r.rounds < 3 := by
  obtain ⟨r, hfix, hink, -, hchanged, hbound⟩ :=
    fix?_converges wellFormed_readGrouped {} (show readGrouped "((b))" ≠ none by decide +kernel) 3
  exact ⟨r, hfix, hink, hchanged, hbound (by decide +kernel)⟩

end Pare
