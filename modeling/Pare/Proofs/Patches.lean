import Mathlib.Data.List.Pairwise
import Mathlib.Tactic.ByContra
import Mathlib.Tactic.Push
import Pare.Proofs.Merging

/-!
**What becomes a patch, and what the order of patches is worth.**

Some edits become a patch unless two of them overlap.  Only neighbours are compared, after a sort by
start and then by stop, and edits may be empty, stand at the end of another one or share a place; so
it takes an argument that this finds every pair that overlaps, and no other.  The edits of a patch
are made in a single walk with offsets into the unedited text; that is the same as replacing one
range after the other, from the last to the first, since each replacement leaves all text before it
where it was.

A pass sorts its patches before it looks at them.  Where no two of them have the same span, there is
one way only to sort them, so a pass cannot tell in which order they were given.

Main definitions:

* `Pare.Edit.Overlaps` — neither of two edits ends at or before the start of the other;
* `Pare.Edit.apply` — the text after one edit by itself.

Main results:

* `Pare.areApart_iff` — comparing neighbours compares all;
* `Pare.areApart_mergeSort_iff` — sorted edits are apart if no two of them overlap;
* `Pare.Patch.span_of_apart` — a patch reaches from its first edit to its last one;
* `Pare.foldrM_edit_apply_eq_ok` — edits that fit, made one at a time from the last to the first;
* `Pare.Patch.ofEdits?_collects` — **edits become a patch unless two overlap, and the patch is its
  edits made one at a time**;
* `Pare.mergePatches_any_order` — **the order in which patches are given makes no difference**.
-/

set_option relaxedAutoImplicit false
set_option autoImplicit false

namespace Pare

open Text (IsBoundary slice)

/-! ### Edits that overlap -/

/-- Neither of two edits ends at or before the start of the other. -/
def Edit.Overlaps (a b : Edit) : Prop :=
  ¬ a.span.stop ≤ b.span.start ∧ ¬ b.span.stop ≤ a.span.start

theorem Edit.Overlaps.symm {a b : Edit} (h : a.Overlaps b) : b.Overlaps a := ⟨h.2, h.1⟩

/-- Comparing neighbours compares all. -/
theorem areApart_iff {edits : List Edit} :
    areApart edits = true ↔ edits.Pairwise fun a b => a.span.stop ≤ b.span.start := by
  constructor
  · exact pairwise_of_areApart
  · intro h
    induction edits with
    | nil => rfl
    | cons a edits ih =>
        cases edits with
        | nil => rfl
        | cons b rest =>
            obtain ⟨ha, hrest⟩ := List.pairwise_cons.1 h
            simp only [areApart, Bool.and_eq_true, decide_eq_true_eq]
            exact ⟨ha b (List.mem_cons_self ..), ih hrest⟩

/-- Of two edits in the order of their places, the first ends where the second starts, or before,
unless they overlap. -/
theorem Edit.stop_le_start_iff {a b : Edit} (h : a.notAfter b = true) :
    a.span.stop ≤ b.span.start ↔ ¬ a.Overlaps b := by
  have ha := a.span.start_le_stop
  have hb := b.span.start_le_stop
  rw [Edit.notAfter, Span.notAfter_iff] at h
  rw [Edit.Overlaps]
  omega

/-- Sorted edits are apart exactly if no two of those that were given overlap. -/
theorem areApart_mergeSort_iff {edits : List Edit} :
    areApart (edits.mergeSort Edit.notAfter) = true ↔
      edits.Pairwise fun a b => ¬ a.Overlaps b := by
  have hsorted : (edits.mergeSort Edit.notAfter).Pairwise fun a b => a.notAfter b = true :=
    Span.pairwise_mergeSort Edit.span edits
  have hsymm : ∀ {a b : Edit}, ¬ a.Overlaps b → ¬ b.Overlaps a := fun h h' => h h'.symm
  have hperm : (edits.mergeSort Edit.notAfter).Perm edits := List.mergeSort_perm ..
  rw [areApart_iff, ← hperm.pairwise_iff hsymm]
  constructor
  · intro h
    exact (h.and hsorted).imp fun hab => (Edit.stop_le_start_iff hab.2).1 hab.1
  · intro h
    exact (h.and hsorted).imp fun hab => (Edit.stop_le_start_iff hab.2).2 hab.1

/-- Two edits of a list overlap. -/
theorem not_pairwise_overlaps_iff {edits : List Edit} :
    ¬ (edits.Pairwise fun a b => ¬ a.Overlaps b) ↔
      ∃ (i j : Nat) (a b : Edit),
        i ≠ j ∧ edits[i]? = some a ∧ edits[j]? = some b ∧ a.Overlaps b := by
  rw [List.pairwise_iff_getElem]
  constructor
  · intro h
    push Not at h
    obtain ⟨i, j, hi, hj, hlt, hover⟩ := h
    exact ⟨i, j, edits[i], edits[j], Nat.ne_of_lt hlt, List.getElem?_eq_getElem hi,
      List.getElem?_eq_getElem hj, hover⟩
  · rintro ⟨i, j, a, b, hne, ha, hb, hover⟩ hall
    obtain ⟨hi, rfl⟩ := List.getElem?_eq_some_iff.1 ha
    obtain ⟨hj, rfl⟩ := List.getElem?_eq_some_iff.1 hb
    rcases Nat.lt_or_gt_of_ne hne with hlt | hlt
    · exact hall i j hi hj hlt hover
    · exact hall j i hj hi hlt hover.symm

/-! ### Edits that become a patch -/

namespace Patch

theorem edits_ne_nil (p : Patch) : p.edits ≠ [] := List.cons_ne_nil _ _

theorem ofEdits?_eq_none_iff {edits : List Edit} :
    ofEdits? edits = none ↔ edits = [] ∨ areApart (edits.mergeSort Edit.notAfter) = false := by
  have hnil : edits.mergeSort Edit.notAfter = [] ↔ edits = [] := by
    rw [← List.length_eq_zero_iff, List.length_mergeSort, List.length_eq_zero_iff]
  rw [← hnil, ofEdits?]
  cases edits.mergeSort Edit.notAfter with
  | nil => simp
  | cons first others => simp

/-- What becomes a patch are the edits, sorted and apart. -/
theorem edits_of_ofEdits? {edits : List Edit} {p : Patch} (h : ofEdits? edits = some p) :
    p.edits = edits.mergeSort Edit.notAfter ∧ areApart p.edits = true := by
  unfold ofEdits? at h
  split at h
  · cases h
  · rename_i first others hsorted
    split at h
    · rename_i hapart
      obtain rfl := Option.some.inj h
      exact ⟨hsorted.symm, hapart⟩
    · cases h

/-- A span that grows to cover edits behind its start keeps its start. -/
theorem start_foldl_cover {edits : List Edit} {acc : Span}
    (h : ∀ e ∈ edits, acc.start ≤ e.span.start) :
    (edits.foldl (fun acc e => acc.cover e.span) acc).start = acc.start := by
  induction edits generalizing acc with
  | nil => rfl
  | cons e edits ih =>
      have hstart : (acc.cover e.span).start = acc.start := by
        have := h e (List.mem_cons_self ..)
        rw [Span.start_cover]
        omega
      rw [List.foldl_cons, ih, hstart]
      intro f hf
      rw [hstart]
      exact h f (List.mem_cons_of_mem e hf)

/-- A patch whose edits are apart reaches from the first one to the last one. -/
theorem span_of_apart {p : Patch}
    (h : p.edits.Pairwise fun a b => a.span.stop ≤ b.span.start) :
    p.span.start = p.first.span.start ∧
      p.span.stop = (p.edits.getLast p.edits_ne_nil).span.stop := by
  constructor
  · refine start_foldl_cover fun e he => ?_
    have hfirst := (List.pairwise_cons.1 h).1 e he
    have := p.first.span.start_le_stop
    omega
  · have hlast : (p.edits.getLast p.edits_ne_nil).span.stop ≤ p.span.stop :=
      (span_of_mem (List.getLast_mem _)).2
    obtain ⟨e, he, hstop⟩ := p.exists_stop
    -- the edit at which the span ends is the last one, or it ends before the last one starts
    rw [← List.dropLast_concat_getLast p.edits_ne_nil] at h he
    rcases List.mem_append.1 he with he | he
    · have hbefore := (List.pairwise_append.1 h).2.2 e he _ (List.mem_singleton_self _)
      have := (p.edits.getLast p.edits_ne_nil).span.start_le_stop
      omega
    · rw [List.mem_singleton.1 he] at hstop
      exact hstop

end Patch

/-! ### One edit at a time -/

/-- The text after one edit by itself; a fault if the edit does not fit the text. -/
def Edit.apply (e : Edit) (text : String) : Except Fault String := do
  let front ← Text.upTo text.toList e.span.start
  let back ← Text.beyond text.toList e.span.stop
  return String.ofList (front ++ e.text.toList ++ back)

/-- One edit takes a piece out of a text and puts its own text in the place. -/
theorem Edit.apply_append {e : Edit} {front gone back : List Char}
    (hstart : Text.byteSize front = e.span.start)
    (hstop : e.span.start + Text.byteSize gone = e.span.stop) :
    e.apply (String.ofList (front ++ gone ++ back)) =
      .ok (String.ofList (front ++ e.text.toList ++ back)) := by
  have hfront : Text.upTo (front ++ gone ++ back) e.span.start = .ok front := by
    rw [Text.upTo, ← hstart, List.append_assoc, Text.splitAt?_byteSize_append]
  have hback : Text.beyond (front ++ gone ++ back) e.span.stop = .ok back := by
    rw [Text.beyond, Text.beyond?_eq, ← hstop, ← hstart, ← Text.byteSize_append,
      Text.splitAt?_byteSize_append]
    rfl
  rw [Edit.apply, String.toList_ofList, hfront, hback]
  rfl

/-- Edits that fit, made one at a time from the last to the first, make the text that they make
together. -/
theorem foldrM_edit_apply_eq_ok {text : String} {edits : List Edit}
    (h : Placed text.toList 0 edits) :
    edits.foldrM Edit.apply text =
      .ok (String.ofList (rewritten text.toList 0 edits (Text.byteSize text.toList))) := by
  induction edits with
  | nil =>
      rw [rewritten_nil, Text.slice_whole, String.ofList_toList]
      rfl
  | cons e rest ih =>
      obtain ⟨hfrom, hto⟩ := h.head_boundary
      have hspan := e.span.start_le_stop
      have hzero := Text.isBoundary_zero text.toList
      have hend := Text.isBoundary_byteSize text.toList
      have hrest : Placed text.toList 0 rest :=
        ⟨h.tail.boundary, fun _ _ => Nat.zero_le _, h.tail.apart⟩
      -- the later edits leave all text up to the end of `e` where it was
      have hkeep := rewritten_append hzero hto hend (Nat.zero_le _) hto.le_byteSize
        (placed_nil _ _) (by simp) h.tail
      rw [List.nil_append, rewritten_nil,
        ← Text.slice_append hzero hfrom hto (Nat.zero_le _) hspan] at hkeep
      have hfront : Text.byteSize (slice text.toList 0 e.span.start) = e.span.start :=
        Text.byteSize_slice hzero hfrom (Nat.zero_le _)
      have hgone : e.span.start + Text.byteSize (slice text.toList e.span.start e.span.stop) =
          e.span.stop := by
        rw [Text.byteSize_slice hfrom hto hspan]
        omega
      rw [List.foldrM_cons, ih hrest, ok_bind, hkeep, Edit.apply_append hfront hgone,
        rewritten_cons]

/-! ### Patches from edits -/

/-- **Edits become a patch unless two of them overlap, and the patch is its edits made one at a
time.**  No patch comes of some edits exactly if there are none, or if at two different positions of
the list stand edits that overlap.  Otherwise the patch holds the given edits, in the order of their
places, each ending at or before the start of all later ones, and it reaches from the start of the
first to the stop of the last.  Where the edits fit a text, the patch has a result there, which is
also what comes of replacing the ranges one at a time, from the last to the first. -/
theorem Patch.ofEdits?_collects (edits : List Edit) :
    (Patch.ofEdits? edits = none ↔ edits = [] ∨
      ∃ (i j : Nat) (a b : Edit), i ≠ j ∧ edits[i]? = some a ∧ edits[j]? = some b ∧ a.Overlaps b) ∧
    ∀ p, Patch.ofEdits? edits = some p →
      p.edits.Perm edits ∧
      (p.edits.Pairwise fun a b => a.notAfter b = true) ∧
      (p.edits.Pairwise fun a b => a.span.stop ≤ b.span.start) ∧
      p.span.start = p.first.span.start ∧
      p.span.stop = (p.edits.getLast p.edits_ne_nil).span.stop ∧
      ∀ text : String,
        (∀ e ∈ edits, IsBoundary text.toList e.span.start ∧ IsBoundary text.toList e.span.stop) →
        ∃ out, p.apply text = .ok out ∧ p.edits.foldrM Edit.apply text = .ok out := by
  constructor
  · rw [Patch.ofEdits?_eq_none_iff, ← not_pairwise_overlaps_iff, ← areApart_mergeSort_iff,
      Bool.not_eq_true]
  · intro p hp
    obtain ⟨hedits, hchecked⟩ := Patch.edits_of_ofEdits? hp
    have hperm : p.edits.Perm edits := by
      rw [hedits]
      exact List.mergeSort_perm ..
    have hapart := areApart_iff.1 hchecked
    obtain ⟨hstart, hstop⟩ := Patch.span_of_apart hapart
    refine ⟨hperm, ?_, hapart, hstart, hstop, fun text hfits => ?_⟩
    · rw [hedits]
      exact Span.pairwise_mergeSort Edit.span edits
    · have hplaced : Placed text.toList 0 p.edits :=
        ⟨fun e he => hfits e (hperm.mem_iff.1 he), fun _ _ => Nat.zero_le _, hapart⟩
      exact ⟨_, Patch.apply_eq_ok hplaced, foldrM_edit_apply_eq_ok hplaced⟩

/-- Edits of `aéb`, not in the order of their places: the removal of the last character, and two
insertions at the end of a replacement of the second. -/
def accentEdits : List Edit :=
  [⟨.upTo 3 4, ""⟩, ⟨.point 3, "x"⟩, ⟨.upTo 1 3, "e"⟩, ⟨.point 3, "y"⟩]

set_option maxRecDepth 20000 in
/-- Insertions at one place, which is also the end of a range and the start of another, do not
overlap with anything. -/
theorem Patch.ofEdits?_collects_accent : ∃ p, Patch.ofEdits? accentEdits = some p ∧
    p.edits.Perm accentEdits ∧ p.span.start = 1 ∧ p.span.stop = 4 ∧
    p.apply "aéb" = .ok "aexy" ∧ p.edits.foldrM Edit.apply "aéb" = .ok "aexy" := by
  have hfits : ∀ e ∈ accentEdits,
      IsBoundary "aéb".toList e.span.start ∧ IsBoundary "aéb".toList e.span.stop := by
    decide +kernel
  have hmade : Patch.ofEdits? accentEdits =
      some ⟨⟨.upTo 1 3, "e"⟩, [⟨.point 3, "x"⟩, ⟨.point 3, "y"⟩, ⟨.upTo 3 4, ""⟩]⟩ := by cbv
  obtain ⟨hperm, -, -, hstart, hstop, happly⟩ :=
    (Patch.ofEdits?_collects accentEdits).2 _ hmade
  obtain ⟨out, hout, hone⟩ := happly "aéb" hfits
  have hrun : (⟨⟨.upTo 1 3, "e"⟩, [⟨.point 3, "x"⟩, ⟨.point 3, "y"⟩, ⟨.upTo 3 4, ""⟩]⟩ :
      Patch).apply "aéb" = .ok "aexy" := by cbv
  obtain rfl := Except.ok.inj (hrun.symm.trans hout)
  exact ⟨_, hmade, hperm, hstart, hstop, hrun, hone⟩

/-! ### The order of patches -/

/-- What is accepted of some patches does not depend on their order, if patches of one span are the
same. -/
theorem accepted_eq_of_perm {patches patches' : List Patch} (h : patches.Perm patches')
    (hsame : ∀ p ∈ patches, ∀ q ∈ patches, p.span = q.span → p = q) :
    accepted patches' = accepted patches :=
  congrArg (acceptApart none) (Span.mergeSort_eq_of_perm Patch.span h hsame)

/-- **The order in which patches are given makes no difference.**  Let no two patches have the same
span.  Then a pass over them in any order comes out the same, with the same patches accepted; and if
they fit the text, it has a result: the text and the number of patches that were applied. -/
theorem mergePatches_any_order (text : String) {patches patches' : List Patch}
    (hperm : patches.Perm patches')
    (hspans : patches.Pairwise fun p q => p.span ≠ q.span) :
    accepted patches' = accepted patches ∧
    mergePatches text patches' = mergePatches text patches ∧
    ((∀ p ∈ patches, p.Made) →
      (∀ p ∈ patches, ∀ e ∈ p.edits,
        IsBoundary text.toList e.span.start ∧ IsBoundary text.toList e.span.stop) →
      ∃ out count, mergePatches text patches = .ok (out, count) ∧
        mergePatches text patches' = .ok (out, count)) := by
  have hsame : ∀ p ∈ patches, ∀ q ∈ patches, p.span = q.span → p = q := by
    intro p hp q hq hspan
    by_contra hne
    have : Std.Symm fun p q : Patch => p.span ≠ q.span := ⟨fun _ _ => Ne.symm⟩
    exact hspans.forall hp hq hne hspan
  have haccepted := accepted_eq_of_perm hperm hsame
  have hmerge : mergePatches text patches' = mergePatches text patches := by
    simp only [mergePatches, haccepted]
  refine ⟨haccepted, hmerge, fun hmade hfits => ?_⟩
  have hresult := mergePatches_eq_ok fun p hp => (hmade p hp).placed (hfits p hp)
  exact ⟨_, _, hresult, hmerge.trans hresult⟩

set_option maxRecDepth 20000 in
/-- Of four patches that touch and overlap, the same two are applied when they come the other way
round. -/
theorem mergePatches_any_order_accent :
    accentPatches.Perm accentPatches.reverse ∧
    (accentPatches.Pairwise fun p q => p.span ≠ q.span) ∧
    accepted accentPatches.reverse = accepted accentPatches ∧
    mergePatches "ab(é)cd" accentPatches = .ok ("abécyz", 2) ∧
    mergePatches "ab(é)cd" accentPatches.reverse = .ok ("abécyz", 2) := by
  have hperm : accentPatches.Perm accentPatches.reverse := (List.reverse_perm _).symm
  have hspans : accentPatches.Pairwise fun p q => p.span ≠ q.span := by decide +kernel
  have hmerge : mergePatches "ab(é)cd" accentPatches = .ok ("abécyz", 2) := by cbv
  obtain ⟨haccepted, -, hresult⟩ := mergePatches_any_order "ab(é)cd" hperm hspans
  obtain ⟨out, count, hout, hout'⟩ := hresult made_accentPatches fits_accentPatches
  exact ⟨hperm, hspans, haccepted, hmerge, hout'.trans (hout.symm.trans hmerge)⟩

/-- Of two patches with one span, the one that is given first is applied. -/
example : mergePatches "ab" [.single ⟨.upTo 0 1, "x"⟩, .single ⟨.upTo 0 1, "y"⟩] = .ok ("xb", 1) ∧
    mergePatches "ab" [.single ⟨.upTo 0 1, "y"⟩, .single ⟨.upTo 0 1, "x"⟩] = .ok ("yb", 1) := by
  constructor <;> cbv

end Pare
