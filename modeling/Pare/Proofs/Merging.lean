import Mathlib
import Pare.Proofs.Outcome
import Pare.Proofs.Planning

/-!
**One pass is its patches one at a time.**

A pass sorts the patches it is given, accepts each unless it touches one accepted before, and makes
all edits of the accepted ones in a single walk over the text.  That walk uses offsets into the
unedited text throughout.  Applied one at a time, from the last to the first, the same patches leave
the same text: what a patch changes lies behind all earlier ones, so their offsets stay valid.

Main definitions:

* `Pare.Patch.Made` — a patch made in one of the two ways to make one;
* `Pare.decisions` — the patches of a pass with the decision on each of them.

Main results:

* `Pare.map_fst_decisions`, `Pare.filter_decisions` — every patch is decided on, and those decided
  for are the accepted ones;
* `Pare.touches_of_rejected` — a patch is rejected only for touching one accepted before;
* `Pare.rewritten_append` — edits on both sides of an offset are made apart from each other;
* `Pare.Patch.apply_append` — a patch inside a front part of a text leaves the rest alone;
* `Pare.foldrM_apply_eq_ok` — patches that are apart, applied from the last to the first;
* `Pare.mergePatches_eq_foldrM` — **a pass is its accepted patches applied one at a time**.
-/

set_option relaxedAutoImplicit false
set_option autoImplicit false

namespace Pare

open Text (IsBoundary slice)

/-! ### How patches are made -/

/-- A patch made in one of the two ways to make one: from a single edit, or as the group of some
edits. -/
inductive Patch.Made : Patch → Prop
  | single (e : Edit) : Made (.single e)
  | group {edits : List Edit} {p : Patch} (h : Patch.ofEdits? edits = some p) : Made p

/-- Edits of which each ends at or before the start of the next one are apart altogether. -/
theorem pairwise_of_areApart {edits : List Edit} (h : areApart edits = true) :
    edits.Pairwise fun a b => a.span.stop ≤ b.span.start := by
  induction edits with
  | nil => exact .nil
  | cons a edits ih =>
      cases edits with
      | nil => exact List.pairwise_singleton ..
      | cons b rest =>
          simp only [areApart, Bool.and_eq_true, decide_eq_true_eq] at h
          obtain ⟨hab, hrest⟩ := h
          have hpair := ih hrest
          have hb := b.span.start_le_stop
          refine List.pairwise_cons.2 ⟨fun c hc => ?_, hpair⟩
          rcases List.mem_cons.1 hc with rfl | hc
          · exact hab
          · have := (List.pairwise_cons.1 hpair).1 c hc
            omega

/-- The edits of a patch are apart, however it was made. -/
theorem Patch.Made.apart {p : Patch} (h : p.Made) :
    p.edits.Pairwise fun a b => a.span.stop ≤ b.span.start := by
  cases h with
  | single e => exact List.pairwise_singleton ..
  | group h =>
      unfold Patch.ofEdits? at h
      split at h
      · cases h
      · split at h
        · rename_i hapart
          obtain rfl := Option.some.inj h
          exact pairwise_of_areApart hapart
        · cases h

theorem Patch.Made.placed {cs : List Char} {p : Patch} (h : p.Made)
    (hfits : ∀ e ∈ p.edits, IsBoundary cs e.span.start ∧ IsBoundary cs e.span.stop) :
    Placed cs 0 p.edits :=
  ⟨hfits, fun _ _ => Nat.zero_le _, h.apart⟩

/-! ### Decisions -/

/-- The patches of a pass with the decision on each of them, where `reach` is the stop of the last
one accepted. -/
def decisions : Option Nat → List Patch → List (Patch × Bool)
  | _, [] => []
  | reach, r :: rest =>
      if reach.any fun stop => r.span.start ≤ stop then (r, false) :: decisions reach rest
      else (r, true) :: decisions (some r.span.stop) rest

/-- Every patch is decided on, in order. -/
theorem map_fst_decisions (reach : Option Nat) (patches : List Patch) :
    (decisions reach patches).map Prod.fst = patches := by
  induction patches generalizing reach with
  | nil => rfl
  | cons r rest ih =>
      rw [decisions]
      split
      · rw [List.map_cons, ih]
      · rw [List.map_cons, ih]

/-- The patches decided for are the accepted ones. -/
theorem filter_decisions (reach : Option Nat) (patches : List Patch) :
    ((decisions reach patches).filter Prod.snd).map Prod.fst = acceptApart reach patches := by
  induction patches generalizing reach with
  | nil => rfl
  | cons r rest ih =>
      rw [decisions, acceptApart]
      split
      · rw [List.filter_cons_of_neg (by simp), ih]
      · rw [List.filter_cons_of_pos rfl, List.map_cons, ih]

/-- A patch is rejected only for touching one accepted before, or for starting within `reach`. -/
theorem touches_of_rejected {reach : Option Nat} {patches : List Patch}
    (hsorted : patches.Pairwise fun p q => p.span.start ≤ q.span.start)
    {front back : List (Patch × Bool)} {p : Patch}
    (h : decisions reach patches = front ++ (p, false) :: back) :
    (∃ a, (a, true) ∈ front ∧ a.span.start ≤ p.span.start ∧ p.span.start ≤ a.span.stop) ∨
      ∃ stop, reach = some stop ∧ p.span.start ≤ stop := by
  induction patches generalizing reach front with
  | nil => simp [decisions] at h
  | cons r rest ih =>
      obtain ⟨hfirst, hrest⟩ := List.pairwise_cons.1 hsorted
      rw [decisions] at h
      split at h
      · rename_i htouches
        cases front with
        | nil =>
            -- `r` itself is the rejected patch, and `reach` is why
            obtain ⟨hhead, -⟩ := List.cons.inj h
            obtain rfl := (Prod.mk.inj hhead).1
            cases reach with
            | none => simp at htouches
            | some stop => exact .inr ⟨stop, rfl, by simpa using htouches⟩
        | cons q front =>
            obtain ⟨rfl, htail⟩ := List.cons.inj h
            rcases ih hrest htail with ⟨a, ha, htouch⟩ | hreach
            · exact .inl ⟨a, List.mem_cons_of_mem _ ha, htouch⟩
            · exact .inr hreach
      · cases front with
        | nil => simp at h
        | cons q front =>
            obtain ⟨rfl, htail⟩ := List.cons.inj h
            rcases ih hrest htail with ⟨a, ha, htouch⟩ | ⟨stop, hstop, hle⟩
            · exact .inl ⟨a, List.mem_cons_of_mem _ ha, htouch⟩
            · -- `r` is the one accepted before, and it does not start later
              obtain rfl := Option.some.inj hstop
              have hmem : p ∈ rest := by
                rw [← map_fst_decisions (some r.span.stop) rest, htail]
                simp
              exact .inl ⟨r, List.mem_cons_self .., hfirst p hmem, hle⟩

/-- The patches of a pass in the order of their places. -/
theorem pairwise_sorted (patches : List Patch) :
    (patches.mergeSort Patch.notAfter).Pairwise fun p q => p.span.start ≤ q.span.start := by
  refine (Span.pairwise_mergeSort Patch.span patches).imp fun {p q} hpq => ?_
  rw [Span.notAfter_iff] at hpq
  omega

/-! ### Edits on both sides of an offset -/

theorem placed_nil (cs : List Char) (start : Nat) : Placed cs start [] :=
  ⟨by simp, by simp, .nil⟩

/-- Edits on both sides of an offset are made apart from each other. -/
theorem rewritten_append {cs : List Char} {start mid stop : Nat} {es fs : List Edit}
    (hstart : IsBoundary cs start) (hmid : IsBoundary cs mid) (hstop : IsBoundary cs stop)
    (hle : start ≤ mid) (hle' : mid ≤ stop) (hes : Placed cs start es)
    (hbefore : ∀ e ∈ es, e.span.stop ≤ mid) (hfs : Placed cs mid fs) :
    rewritten cs start (es ++ fs) stop = rewritten cs start es mid ++ rewritten cs mid fs stop := by
  induction es generalizing start with
  | nil =>
      cases fs with
      | nil => exact (Text.slice_append hstart hmid hstop hle hle').symm
      | cons f fs =>
          have hkept := Text.slice_append hstart hmid hfs.head_boundary.1 hle hfs.head_after
          rw [List.nil_append, rewritten_cons, rewritten_cons, rewritten_nil, ← hkept]
          simp only [List.append_assoc]
  | cons e es ih =>
      have hend := hbefore e (List.mem_cons_self ..)
      have hrest := ih hes.head_boundary.2 hend hes.tail fun f hf =>
        hbefore f (List.mem_cons_of_mem e hf)
      rw [List.cons_append, rewritten_cons, rewritten_cons, hrest]
      simp only [List.append_assoc]

/-- A boundary of a text that lies in a front part is a boundary of the front part. -/
theorem isBoundary_front {front back : List Char} {n : Nat} (h : IsBoundary (front ++ back) n)
    (hle : n ≤ Text.byteSize front) : IsBoundary front n := by
  obtain ⟨f, b, hsplit, rfl⟩ := Text.isBoundary_iff.1 h
  obtain ⟨mid, rfl, -⟩ := Text.exists_append_of_byteSize_le hsplit.symm hle
  exact Text.isBoundary_iff.2 ⟨f, mid, rfl, rfl⟩

theorem isBoundary_append {front : List Char} {n : Nat} (h : IsBoundary front n)
    (back : List Char) : IsBoundary (front ++ back) n := by
  obtain ⟨f, b, rfl, rfl⟩ := Text.isBoundary_iff.1 h
  exact Text.isBoundary_iff.2 ⟨f, b ++ back, by simp, rfl⟩

/-- A piece of a front part is the same piece of the whole. -/
theorem slice_front {front : List Char} {a b : Nat} (ha : IsBoundary front a)
    (hb : IsBoundary front b) (hab : a ≤ b) (back : List Char) :
    slice (front ++ back) a b = slice front a b := by
  obtain ⟨f, g, hcs, hf, hsize⟩ := Text.cut?_eq_some_iff.1 (Text.cut?_eq_slice ha hb hab)
  refine Text.slice_eq f (g ++ back) ?_ hf hsize
  rw [← List.append_assoc, ← hcs]

/-- What edits make of a front part does not depend on the rest. -/
theorem rewritten_front {front : List Char} {start stop : Nat} {es : List Edit}
    (hstart : IsBoundary front start) (hstop : IsBoundary front stop) (hle : start ≤ stop)
    (h : Placed front start es) (hbefore : ∀ e ∈ es, e.span.stop ≤ stop) (back : List Char) :
    rewritten (front ++ back) start es stop = rewritten front start es stop := by
  induction es generalizing start with
  | nil => exact slice_front hstart hstop hle back
  | cons e es ih =>
      obtain ⟨hfrom, hto⟩ := h.head_boundary
      have hrest := ih hto (hbefore e (List.mem_cons_self ..)) h.tail fun f hf =>
        hbefore f (List.mem_cons_of_mem e hf)
      rw [rewritten_cons, rewritten_cons, hrest, slice_front hstart hfrom h.head_after]

/-- A patch inside a front part of a text leaves the rest alone. -/
theorem Patch.apply_append {front back : List Char} {p : Patch} (h : Placed front 0 p.edits) :
    p.apply (String.ofList (front ++ back)) =
      .ok (String.ofList (rewritten front 0 p.edits (Text.byteSize front) ++ back)) := by
  have hbefore : ∀ e ∈ p.edits, e.span.stop ≤ Text.byteSize front :=
    fun e he => (h.boundary e he).2.le_byteSize
  have hwide : Placed (front ++ back) 0 p.edits :=
    ⟨fun e he => ⟨isBoundary_append (h.boundary e he).1 back,
      isBoundary_append (h.boundary e he).2 back⟩, h.after, h.apart⟩
  have hmid : IsBoundary (front ++ back) (Text.byteSize front) :=
    isBoundary_append (Text.isBoundary_byteSize front) back
  have hsplit := rewritten_append (Text.isBoundary_zero _) hmid (Text.isBoundary_byteSize _)
    (Nat.zero_le _) hmid.le_byteSize hwide hbefore (placed_nil _ _)
  have hback : slice (front ++ back) (Text.byteSize front) (Text.byteSize (front ++ back)) = back :=
    Text.slice_eq front [] (by simp) rfl (by simp)
  rw [Patch.apply_eq_ok (by rwa [String.toList_ofList]), String.toList_ofList]
  rw [List.append_nil] at hsplit
  rw [hsplit, rewritten_nil, hback, rewritten_front (Text.isBoundary_zero _)
    (Text.isBoundary_byteSize _) (Nat.zero_le _) h hbefore]

/-! ### Patches one at a time -/

/-- A span that grows to cover edits ends where it did before or where one of them does. -/
theorem Span.stop_foldl_cover (edits : List Edit) (acc : Span) :
    (edits.foldl (fun acc e => acc.cover e.span) acc).stop = acc.stop ∨
      ∃ e ∈ edits, (edits.foldl (fun acc e => acc.cover e.span) acc).stop = e.span.stop := by
  induction edits generalizing acc with
  | nil => exact .inl rfl
  | cons f edits ih =>
      rw [List.foldl_cons]
      rcases ih (acc.cover f.span) with h | ⟨e, he, h⟩
      · rw [h, Span.stop_cover]
        rcases Nat.le_total acc.stop f.span.stop with hle | hle
        · exact .inr ⟨f, List.mem_cons_self .., Nat.max_eq_right hle⟩
        · exact .inl (Nat.max_eq_left hle)
      · exact .inr ⟨e, List.mem_cons_of_mem f he, h⟩

/-- A patch ends where one of its edits does. -/
theorem Patch.exists_stop (p : Patch) : ∃ e ∈ p.edits, p.span.stop = e.span.stop := by
  rcases Span.stop_foldl_cover p.others p.first.span with h | ⟨e, he, h⟩
  · exact ⟨p.first, List.mem_cons_self .., h⟩
  · exact ⟨e, List.mem_cons_of_mem p.first he, h⟩

/-- Patches that are apart, applied from the last to the first, make all their edits. -/
theorem foldrM_apply_eq_ok {text : String} {patches : List Patch}
    (hplaced : ∀ p ∈ patches, Placed text.toList 0 p.edits)
    (hapart : patches.Pairwise fun p q => p.span.stop < q.span.start) :
    patches.foldrM (fun p text => p.apply text) text =
      .ok (String.ofList (rewritten text.toList 0 (patches.flatMap Patch.edits)
        (Text.byteSize text.toList))) := by
  induction patches with
  | nil =>
      rw [List.flatMap_nil, rewritten_nil, Text.slice_whole, String.ofList_toList]
      rfl
  | cons p rest ih =>
      obtain ⟨hfirst, hrest⟩ := List.pairwise_cons.1 hapart
      have hp := hplaced p (List.mem_cons_self ..)
      have hlater : ∀ q ∈ rest, Placed text.toList 0 q.edits :=
        fun q hq => hplaced q (List.mem_cons_of_mem p hq)
      -- cut the text where `p` ends: all other edits lie behind the cut
      obtain ⟨last, hlast, hstop⟩ := p.exists_stop
      have hmid : IsBoundary text.toList p.span.stop := by
        rw [hstop]
        exact (hp.boundary last hlast).2
      have hbefore : ∀ e ∈ p.edits, e.span.stop ≤ p.span.stop :=
        fun e he => (Patch.span_of_mem he).2
      have hbehind : Placed text.toList p.span.stop (rest.flatMap Patch.edits) := by
        refine ⟨?_, ?_, edits_pairwise (fun _ _ hlt => Nat.le_of_lt hlt) hrest fun q hq =>
          (hlater q hq).apart⟩
        · intro e he
          obtain ⟨q, hq, he⟩ := List.mem_flatMap.1 he
          exact (hlater q hq).boundary e he
        · intro e he
          obtain ⟨q, hq, he⟩ := List.mem_flatMap.1 he
          exact Nat.le_of_lt (Nat.lt_of_lt_of_le (hfirst q hq) (Patch.span_of_mem he).1)
      obtain ⟨front, back, htext, hfront⟩ := Text.isBoundary_iff.1 hmid
      have hwhole : slice text.toList 0 p.span.stop = front :=
        Text.slice_eq [] back (by simpa using htext) rfl (by simpa using hfront)
      have hinside : Placed front 0 p.edits := by
        refine ⟨fun e he => ?_, hp.after, hp.apart⟩
        have hin := hbefore e he
        have hspan := e.span.start_le_stop
        rw [htext] at hp
        exact ⟨isBoundary_front (hp.boundary e he).1 (by omega),
          isBoundary_front (hp.boundary e he).2 (by omega)⟩
      have hzero := Text.isBoundary_zero text.toList
      have hend := Text.isBoundary_byteSize text.toList
      -- the later patches keep the front, and `p` keeps what they leave behind it
      have hkeep := rewritten_append hzero hmid hend (Nat.zero_le _) hmid.le_byteSize
        (placed_nil _ _) (by simp) hbehind
      have hboth := rewritten_append hzero hmid hend (Nat.zero_le _) hmid.le_byteSize hp hbefore
        hbehind
      have hsame := rewritten_front (Text.isBoundary_zero front) (Text.isBoundary_byteSize front)
        (Nat.zero_le _) hinside (fun e he => (hinside.boundary e he).2.le_byteSize) back
      rw [List.nil_append, rewritten_nil, hwhole] at hkeep
      rw [← htext, hfront] at hsame
      rw [List.foldrM_cons, ih hlater hrest, ok_bind, List.flatMap_cons, hboth, hkeep,
        Patch.apply_append hinside, hfront, hsame]

/-! ### A pass -/

/-- **A pass is its accepted patches applied one at a time.**  For patches that were made in one of
the two ways and fit the text, a pass has a result.  In the order of their places, where equal
places keep the order given, each patch is accepted or not; accepted patches are strictly apart, and
a patch that is not accepted starts inside or at the end of one that was accepted before it.  The
outcome is what the accepted patches leave when they are applied by themselves from the last to the
first, and their number.  So something is applied wherever there is a patch, and one patch by itself
is applied as it is. -/
theorem mergePatches_eq_foldrM {text : String} {patches : List Patch}
    (hmade : ∀ p ∈ patches, p.Made)
    (hfits : ∀ p ∈ patches, ∀ e ∈ p.edits,
      IsBoundary text.toList e.span.start ∧ IsBoundary text.toList e.span.stop) :
    ∃ (decided : List (Patch × Bool)) (chosen : List Patch) (out : String),
      decided.map Prod.fst = patches.mergeSort Patch.notAfter ∧
      (decided.filter Prod.snd).map Prod.fst = chosen ∧
      mergePatches text patches = .ok (out, chosen.length) ∧
      chosen.Pairwise (fun a b => a.span.stop < b.span.start) ∧
      (∀ front p back, decided = front ++ (p, false) :: back →
        ∃ a, (a, true) ∈ front ∧ a.span.start ≤ p.span.start ∧ p.span.start ≤ a.span.stop) ∧
      chosen.foldrM (fun p text => p.apply text) text = .ok out ∧
      (patches ≠ [] → 1 ≤ chosen.length) ∧
      ∀ p, patches = [p] → ∃ alone, p.apply text = .ok alone ∧
        mergePatches text [p] = .ok (alone, 1) := by
  have hplaced : ∀ p ∈ patches, Placed text.toList 0 p.edits :=
    fun p hp => (hmade p hp).placed (hfits p hp)
  have hone := foldrM_apply_eq_ok (fun p hp => hplaced p (mem_of_mem_accepted hp))
    (accepted_apart patches)
  refine ⟨decisions none (patches.mergeSort Patch.notAfter), accepted patches, _,
    map_fst_decisions .., filter_decisions .., mergePatches_eq_ok hplaced, accepted_apart patches,
    ?_, hone, ?_, ?_⟩
  · intro front p back hsplit
    rcases touches_of_rejected (pairwise_sorted patches) hsplit with htouch | ⟨stop, hstop, -⟩
    · exact htouch
    · cases hstop
  · intro hne
    rw [accepted]
    cases hsorted : patches.mergeSort Patch.notAfter with
    | nil =>
        have hlength : (patches.mergeSort Patch.notAfter).length = patches.length :=
          List.length_mergeSort patches
        rw [hsorted] at hlength
        exact absurd (List.length_eq_zero_iff.1 hlength.symm) hne
    | cons p rest => simp [acceptApart]
  · rintro p rfl
    have hchosen : accepted [p] = [p] := by simp [accepted, acceptApart]
    have happly := Patch.apply_eq_ok (hplaced p (List.mem_singleton.2 rfl))
    refine ⟨_, happly, ?_⟩
    rw [mergePatches_eq_ok hplaced, hchosen, List.flatMap_singleton]
    rfl

/-! ### Patches that touch and overlap -/

/-- The removal of the parentheses of `ab(é)cd`. -/
def ungroupAccent : Patch := ⟨⟨.upTo 2 3, ""⟩, [⟨.upTo 5 6, ""⟩]⟩

/-- Patches of `ab(é)cd`, not in the order of their places: two that are apart, one that touches the
first of them, and one inside it. -/
def accentPatches : List Patch :=
  [.single ⟨.upTo 7 8, "yz"⟩, .single ⟨.upTo 6 7, "x"⟩, .single ⟨.upTo 3 5, "e"⟩, ungroupAccent]

theorem made_ungroupAccent : ungroupAccent.Made :=
  .group (Patch.ofEdits?_pair (a := ⟨.upTo 2 3, ""⟩) (b := ⟨.upTo 5 6, ""⟩) (by decide))

theorem made_accentPatches : ∀ p ∈ accentPatches, p.Made := by
  intro p hp
  simp only [accentPatches, List.mem_cons, List.not_mem_nil, or_false] at hp
  rcases hp with rfl | rfl | rfl | rfl
  · exact .single _
  · exact .single _
  · exact .single _
  · exact made_ungroupAccent

theorem fits_accentPatches : ∀ p ∈ accentPatches, ∀ e ∈ p.edits,
    IsBoundary "ab(é)cd".toList e.span.start ∧ IsBoundary "ab(é)cd".toList e.span.stop := by
  decide +kernel

set_option maxRecDepth 20000 in
/-- Two of the four patches are applied, in one pass or one at a time. -/
theorem mergePatches_eq_foldrM_accent :
    mergePatches "ab(é)cd" accentPatches = .ok ("abécyz", 2) ∧
      ∃ chosen : List Patch, chosen.length = 2 ∧
        chosen.Pairwise (fun a b => a.span.stop < b.span.start) ∧
        chosen.foldrM (fun p text => p.apply text) "ab(é)cd" = .ok "abécyz" := by
  have hmerge : mergePatches "ab(é)cd" accentPatches = .ok ("abécyz", 2) := by
    -- evaluated by equations of the library that no smaller import has together
    cbv
  obtain ⟨decided, chosen, out, -, -, hout, hapart, -, hone, -⟩ :=
    mergePatches_eq_foldrM made_accentPatches fits_accentPatches
  obtain ⟨rfl, hcount⟩ := Prod.mk.inj (Except.ok.inj (hmerge.symm.trans hout))
  exact ⟨hmerge, chosen, hcount.symm, hapart, hone⟩

end Pare
