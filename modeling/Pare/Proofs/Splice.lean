import Mathlib.Algebra.GroupWithZero.Nat
import Pare.Edit
import Pare.Proofs.Boundary

/-!
**The text after edits.**

`Pare.splice` makes edits from left to right and breaks down where one does not fit.  For edits that
fit, it is a plain function of the text: what is kept, the new text, what is kept, and so on.  This
module defines that function from one offset to another, so that a splice can be taken apart at
every edit, and shows that what a pass accepts always fits if each of its patches does.

Main definitions:

* `Pare.Placed` — edits on boundaries, in order and apart, from an offset on;
* `Pare.rewritten` — the text between two offsets with the edits between them made;
* `Pare.inkLost`, `Pare.inkGained` — how many characters that are not blank the edits take away
  and bring in.

Main results:

* `Pare.splice_eq_rewritten` — for edits that fit, `splice` is `rewritten`;
* `Pare.rewritten_append_cons` — a splice can be taken apart at each of its edits;
* `Pare.ink_rewritten` — the balance of characters that are not blank;
* `Pare.accepted_apart`, `Pare.accepted_edits_pairwise` — accepted patches are strictly apart, and
  so are the edits of different ones;
* `Pare.mergePatches_eq_ok` — a pass over patches that fit has a result.
-/

set_option relaxedAutoImplicit false
set_option autoImplicit false

namespace Pare

open Text (IsBoundary slice ink)

/-! ### Edits that fit -/

/-- Edits that can be made together from an offset on: on boundaries of the text, not before the
offset, and each ending at or before the start of the later ones. -/
structure Placed (cs : List Char) (start : Nat) (edits : List Edit) : Prop where
  boundary : ∀ e ∈ edits, IsBoundary cs e.span.start ∧ IsBoundary cs e.span.stop
  after : ∀ e ∈ edits, start ≤ e.span.start
  apart : edits.Pairwise fun a b => a.span.stop ≤ b.span.start

namespace Placed

variable {cs : List Char} {start : Nat} {e : Edit} {rest : List Edit}

/-- What follows an edit fits from the stop of the edit on. -/
theorem tail (h : Placed cs start (e :: rest)) : Placed cs e.span.stop rest where
  boundary := fun f hf => h.boundary f (List.mem_cons_of_mem e hf)
  after := (List.pairwise_cons.1 h.apart).1
  apart := (List.pairwise_cons.1 h.apart).2

theorem head_boundary (h : Placed cs start (e :: rest)) :
    IsBoundary cs e.span.start ∧ IsBoundary cs e.span.stop :=
  h.boundary e (List.mem_cons_self ..)

theorem head_after (h : Placed cs start (e :: rest)) : start ≤ e.span.start :=
  h.after e (List.mem_cons_self ..)

/-- The edits at the front of edits that fit do so by themselves. -/
theorem left {es fs : List Edit} (h : Placed cs start (es ++ fs)) : Placed cs start es where
  boundary := fun f hf => h.boundary f (List.mem_append_left fs hf)
  after := fun f hf => h.after f (List.mem_append_left fs hf)
  apart := (List.pairwise_append.1 h.apart).1

theorem right {es fs : List Edit} (h : Placed cs start (es ++ fs)) : Placed cs start fs where
  boundary := fun f hf => h.boundary f (List.mem_append_right es hf)
  after := fun f hf => h.after f (List.mem_append_right es hf)
  apart := (List.pairwise_append.1 h.apart).2.1

/-- Edits that fit stand in the order of their places. -/
theorem ordered {edits : List Edit} (h : Placed cs start edits) :
    edits.Pairwise fun a b => a.notAfter b = true := by
  refine h.apart.imp fun {a b} hab => Span.notAfter_iff.2 ?_
  have ha := a.span.start_le_stop
  have hb := b.span.start_le_stop
  omega

end Placed

/-! ### The text they make -/

/-- The text between two offsets with the edits between them made. -/
def rewritten (cs : List Char) : Nat → List Edit → Nat → List Char
  | start, [], stop => slice cs start stop
  | start, e :: rest, stop =>
      slice cs start e.span.start ++ e.text.toList ++ rewritten cs e.span.stop rest stop

@[simp] theorem rewritten_nil (cs : List Char) (start stop : Nat) :
    rewritten cs start [] stop = slice cs start stop := rfl

@[simp] theorem rewritten_cons (cs : List Char) (start : Nat) (e : Edit) (rest : List Edit)
    (stop : Nat) : rewritten cs start (e :: rest) stop =
      slice cs start e.span.start ++ e.text.toList ++ rewritten cs e.span.stop rest stop := rfl

/-- Between two boundaries strictly in order something is kept. -/
theorem slice_ne_nil {cs : List Char} {a b : Nat} (ha : IsBoundary cs a) (hb : IsBoundary cs b)
    (hab : a < b) : slice cs a b ≠ [] := by
  intro hnil
  have hsize := Text.byteSize_slice ha hb (Nat.le_of_lt hab)
  rw [hnil, Text.byteSize_nil] at hsize
  omega

/-- A piece that is not empty starts as every longer piece from its start on. -/
theorem head?_slice {cs : List Char} {a b c : Nat} (ha : IsBoundary cs a) (hb : IsBoundary cs b)
    (hc : IsBoundary cs c) (hab : a < b) (hbc : b ≤ c) :
    (slice cs a b).head? = (slice cs a c).head? := by
  have hjoin := Text.slice_append ha hb hc (Nat.le_of_lt hab) hbc
  have hkept : (slice cs a b).head?.isSome = true := by
    simpa using slice_ne_nil ha hb hab
  rw [← hjoin, List.head?_append, Option.or_of_isSome hkept]

/-- A piece that is not empty ends as every longer piece up to its end. -/
theorem getLast?_slice {cs : List Char} {a b c : Nat} (ha : IsBoundary cs a) (hb : IsBoundary cs b)
    (hc : IsBoundary cs c) (hab : a ≤ b) (hbc : b < c) :
    (slice cs b c).getLast? = (slice cs a c).getLast? := by
  have hjoin := Text.slice_append ha hb hc hab (Nat.le_of_lt hbc)
  have hkept : (slice cs b c).getLast?.isSome = true := by
    simpa using slice_ne_nil hb hc hbc
  rw [← hjoin, List.getLast?_append, Option.or_of_isSome hkept]

/-- For edits that fit, splicing has a result, and it is the text with the edits made. -/
theorem splice_eq_rewritten {cs : List Char} {start : Nat} {edits : List Edit}
    (hstart : IsBoundary cs start) (h : Placed cs start edits) :
    splice cs start edits = .ok (rewritten cs start edits (Text.byteSize cs)) := by
  induction edits generalizing start with
  | nil => exact Text.beyond_eq_ok hstart
  | cons e rest ih =>
      obtain ⟨hfrom, hto⟩ := h.head_boundary
      simp only [splice, Text.between_eq_ok hstart hfrom h.head_after, ih hto h.tail]
      rfl

/-- A splice can be taken apart at each of its edits. -/
theorem rewritten_append_cons (cs : List Char) (before : List Edit) (e : Edit)
    (after : List Edit) (start stop : Nat) :
    rewritten cs start (before ++ e :: after) stop =
      rewritten cs start before e.span.start ++ e.text.toList ++
        rewritten cs e.span.stop after stop := by
  induction before generalizing start with
  | nil => simp
  | cons f before ih => simp [ih]

/-! ### The balance of characters that are not blank -/

/-- How many characters that are not blank the edits take away. -/
def inkLost (cs : List Char) (edits : List Edit) : Nat :=
  (edits.map fun e => ink (slice cs e.span.start e.span.stop)).sum

/-- How many characters that are not blank the edits bring in. -/
def inkGained (edits : List Edit) : Nat := (edits.map fun e => ink e.text.toList).sum

/-- What is there afterwards and what was lost is what was there before and what was gained. -/
theorem ink_rewritten {cs : List Char} {start : Nat} {edits : List Edit} {stop : Nat}
    (hstart : IsBoundary cs start) (hstop : IsBoundary cs stop) (hle : start ≤ stop)
    (h : Placed cs start edits) (hbound : ∀ e ∈ edits, e.span.stop ≤ stop) :
    ink (rewritten cs start edits stop) + inkLost cs edits =
      ink (slice cs start stop) + inkGained edits := by
  induction edits generalizing start with
  | nil => simp [inkLost, inkGained]
  | cons e rest ih =>
      obtain ⟨hfrom, hto⟩ := h.head_boundary
      have hin : e.span.stop ≤ stop := hbound e (List.mem_cons_self ..)
      have hspan := e.span.start_le_stop
      have hrest := ih hto hin h.tail fun f hf => hbound f (List.mem_cons_of_mem e hf)
      -- the piece is what is kept before the first edit, what that edit takes away, and the rest
      have hkept := Text.slice_append hstart hfrom hstop h.head_after (by omega)
      have hcut := Text.slice_append hfrom hto hstop hspan hin
      rw [rewritten_cons, ← hkept, ← hcut]
      simp only [inkLost, inkGained, List.map_cons, List.sum_cons, Text.ink_append] at hrest ⊢
      omega

/-! ### What a pass accepts -/

/-- A span that grows to cover edits includes what it was and the span of each of them. -/
theorem Span.foldl_cover (edits : List Edit) (acc : Span) :
    (edits.foldl (fun acc e => acc.cover e.span) acc).start ≤ acc.start ∧
      acc.stop ≤ (edits.foldl (fun acc e => acc.cover e.span) acc).stop ∧
      ∀ e ∈ edits, (edits.foldl (fun acc e => acc.cover e.span) acc).start ≤ e.span.start ∧
        e.span.stop ≤ (edits.foldl (fun acc e => acc.cover e.span) acc).stop := by
  induction edits generalizing acc with
  | nil => simp
  | cons f edits ih =>
      obtain ⟨hstart, hstop, hmem⟩ := ih (acc.cover f.span)
      simp only [Span.start_cover, Span.stop_cover] at hstart hstop
      rw [List.foldl_cons]
      refine ⟨by omega, by omega, ?_⟩
      intro e he
      rcases List.mem_cons.1 he with rfl | he
      · omega
      · exact hmem e he

/-- The span of a patch includes that of each of its edits. -/
theorem Patch.span_of_mem {p : Patch} {e : Edit} (h : e ∈ p.edits) :
    p.span.start ≤ e.span.start ∧ e.span.stop ≤ p.span.stop := by
  obtain ⟨hstart, hstop, hmem⟩ := Span.foldl_cover p.others p.first.span
  rcases List.mem_cons.1 h with rfl | h
  · exact ⟨hstart, hstop⟩
  · exact hmem e h

/-- What is accepted after `reach` starts after it, and accepted patches are strictly apart. -/
theorem acceptApart_apart (reach : Option Nat) (patches : List Patch) :
    (∀ p ∈ acceptApart reach patches, ∀ stop, reach = some stop → stop < p.span.start) ∧
      (acceptApart reach patches).Pairwise fun p q => p.span.stop < q.span.start := by
  induction patches generalizing reach with
  | nil => simp [acceptApart]
  | cons r rest ih =>
      rw [acceptApart]
      split
      · exact ih reach
      · rename_i hfree
        -- what is accepted from here on starts after `r`, and so after all before it
        obtain ⟨hafter, hapart⟩ := ih (some r.span.stop)
        have hr : ∀ stop, reach = some stop → stop < r.span.start := by
          rintro stop rfl
          simpa using hfree
        refine ⟨?_, List.pairwise_cons.2 ⟨fun p hp => hafter p hp _ rfl, hapart⟩⟩
        intro p hp stop hstop
        rcases List.mem_cons.1 hp with rfl | hp
        · exact hr stop hstop
        · have h₁ := hr stop hstop
          have h₂ := hafter p hp _ rfl
          have h₃ := r.span.start_le_stop
          omega

/-- Accepted patches are strictly apart. -/
theorem accepted_apart (patches : List Patch) :
    (accepted patches).Pairwise fun p q => p.span.stop < q.span.start :=
  (acceptApart_apart none _).2

theorem mem_of_mem_acceptApart {reach : Option Nat} {patches : List Patch} {p : Patch}
    (h : p ∈ acceptApart reach patches) : p ∈ patches := by
  induction patches generalizing reach with
  | nil => simp [acceptApart] at h
  | cons r rest ih =>
      rw [acceptApart] at h
      split at h
      · exact List.mem_cons_of_mem r (ih h)
      · rcases List.mem_cons.1 h with rfl | h
        · exact List.mem_cons_self ..
        · exact List.mem_cons_of_mem r (ih h)

/-- A pass accepts only what it was given. -/
theorem mem_of_mem_accepted {patches : List Patch} {p : Patch} (h : p ∈ accepted patches) :
    p ∈ patches :=
  List.mem_mergeSort.1 (mem_of_mem_acceptApart h)

/-- Where patches are strictly apart and the edits of each are apart in some sense that strict
distance implies, so are all their edits. -/
theorem edits_pairwise {R : Edit → Edit → Prop} {patches : List Patch}
    (hR : ∀ a b : Edit, a.span.stop < b.span.start → R a b)
    (hapart : patches.Pairwise fun p q => p.span.stop < q.span.start)
    (h : ∀ p ∈ patches, p.edits.Pairwise R) : (patches.flatMap Patch.edits).Pairwise R := by
  refine List.pairwise_flatMap.2 ⟨h, hapart.imp ?_⟩
  intro p q hpq a ha b hb
  have hstop := (Patch.span_of_mem ha).2
  have hstart := (Patch.span_of_mem hb).1
  exact hR a b (by omega)

/-- Where the edits of each patch are apart in some sense that strict distance implies, so are all
edits of a pass. -/
theorem accepted_edits_pairwise {R : Edit → Edit → Prop} {patches : List Patch}
    (hR : ∀ a b : Edit, a.span.stop < b.span.start → R a b)
    (h : ∀ p ∈ patches, p.edits.Pairwise R) :
    ((accepted patches).flatMap Patch.edits).Pairwise R :=
  edits_pairwise hR (accepted_apart patches) fun p hp => h p (mem_of_mem_accepted hp)

/-- Where the edits of every patch fit, so do all edits of a pass. -/
theorem placed_accepted {cs : List Char} {patches : List Patch}
    (h : ∀ p ∈ patches, Placed cs 0 p.edits) :
    Placed cs 0 ((accepted patches).flatMap Patch.edits) where
  boundary := by
    intro e he
    obtain ⟨p, hp, he⟩ := List.mem_flatMap.1 he
    exact (h p (mem_of_mem_accepted hp)).boundary e he
  after := fun e _ => Nat.zero_le _
  apart := accepted_edits_pairwise (fun _ _ hlt => Nat.le_of_lt hlt) fun p hp => (h p hp).apart

/-- A pass over patches that fit has a result: the text with all accepted edits made. -/
theorem mergePatches_eq_ok {text : String} {patches : List Patch}
    (h : ∀ p ∈ patches, Placed text.toList 0 p.edits) :
    mergePatches text patches = .ok (String.ofList (rewritten text.toList 0
      ((accepted patches).flatMap Patch.edits) (Text.byteSize text.toList)),
      (accepted patches).length) := by
  rw [mergePatches, splice_eq_rewritten (Text.isBoundary_zero _) (placed_accepted h)]
  rfl

/-- A patch that fits has a result: the text with its edits made. -/
theorem Patch.apply_eq_ok {text : String} {p : Patch} (h : Placed text.toList 0 p.edits) :
    p.apply text =
      .ok (String.ofList (rewritten text.toList 0 p.edits (Text.byteSize text.toList))) := by
  rw [Patch.apply, splice_eq_rewritten (Text.isBoundary_zero _) h]
  rfl

end Pare
