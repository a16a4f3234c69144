import Pare.Proofs.Planning

/-!
**Words stay apart in a whole pass.**

An edit that takes something away is planned against the text as it stands: it looks at the two
characters beside its span and leaves a space where words would meet.  A pass makes many such edits
at once, so the question is whether the neighbours an edit has looked at are still its neighbours in
the outcome.  They are: accepted patches are strictly apart, so between two edits at least one
character is kept, and the characters beside an edit are kept ones.

Main definitions:

* `Pare.Planned` — the patches that are planned to keep words apart;
* `Pare.Glued` — two texts whose meeting characters read as one word.

Main results:

* `Pare.getLast?_rewritten`, `Pare.head?_rewritten` — the characters beside an edit are kept;
* `Pare.mergePatches_not_glued` — **no pass glues words together**.
-/

set_option relaxedAutoImplicit false
set_option autoImplicit false

namespace Pare

open Text (IsBoundary slice)

/-! ### Planned patches -/

/-- The patches that are planned to keep words apart: the removal of a pair of parentheses with
something between them, and the replacement of one span. -/
inductive Planned (s : Source) : Patch → Prop
  | ungroup {left right : Token} {p : Patch} (hleft : s.Fits left.span) (hright : s.Fits right.span)
      (hapart : left.span.stop < right.span.start)
      (hp : Patch.removeGrouping s left right = .ok (some p)) : Planned s p
  | replace {span : Span} {text : String} {e : Edit} (hfit : s.Fits span)
      (he : Edit.replace s span text = .ok e) : Planned s (.single e)

/-- An edit that fits and separates the neighbours of its span. -/
def Edit.Careful (s : Source) (e : Edit) : Prop :=
  s.Fits e.span ∧ Separates (s.leftOf e.span) e.text.toList (s.rightOf e.span)

/-- The edits of a planned patch are careful and strictly apart. -/
theorem Planned.careful_apart {s : Source} {p : Patch} (h : Planned s p) :
    (∀ e ∈ p.edits, e.Careful s) ∧ p.edits.Pairwise fun a b => a.span.stop < b.span.start := by
  cases h with
  | @replace span text e hfit he =>
      rw [Edit.replace_eq_ok hfit text] at he
      obtain rfl := Except.ok.inj he
      refine ⟨?_, by simp⟩
      intro e he
      have hspan := Edit.span_substitution s span text
      obtain rfl : e = Edit.substitution s span text := List.mem_singleton.1 he
      rw [Edit.Careful, hspan]
      exact ⟨hfit, Edit.separates_substitution s span text⟩
  | @ungroup left right p hleft hright hapart hp =>
      rw [Patch.removeGrouping_eq_ok hleft hright (Nat.le_of_lt hapart)] at hp
      split at hp
      · obtain rfl := Option.some.inj (Except.ok.inj hp)
        refine ⟨?_, by simpa [Patch.edits] using hapart⟩
        intro e he
        rcases List.mem_cons.1 he with rfl | he
        · exact ⟨hleft, Edit.separates_removal s left.span⟩
        · obtain rfl := List.mem_singleton.1 he
          exact ⟨hright, Edit.separates_removal s right.span⟩
      · simp at hp

/-! ### The characters beside an edit are kept -/

/-- Edits that end before an offset leave the character before the offset in place. -/
theorem getLast?_rewritten {cs : List Char} {start stop : Nat} {edits : List Edit}
    (hstart : IsBoundary cs start) (hstop : IsBoundary cs stop) (hle : start ≤ stop)
    (h : Placed cs start edits) (hbefore : ∀ e ∈ edits, e.span.stop < stop) :
    (rewritten cs start edits stop).getLast? = (slice cs start stop).getLast? := by
  induction edits generalizing start with
  | nil => rfl
  | cons e rest ih =>
      obtain ⟨hfrom, hto⟩ := h.head_boundary
      have hlt : e.span.stop < stop := hbefore e (List.mem_cons_self ..)
      have hspan := e.span.start_le_stop
      have hafter := h.head_after
      have hrest := ih hto (Nat.le_of_lt hlt) h.tail fun f hf =>
        hbefore f (List.mem_cons_of_mem e hf)
      have hkept : (slice cs e.span.stop stop).getLast?.isSome = true := by
        simpa using slice_ne_nil hto hstop hlt
      rw [rewritten_cons, List.getLast?_append, hrest, Option.or_of_isSome hkept,
        getLast?_slice hstart hto hstop (by omega) hlt]

/-- Edits that start after an offset leave the character from the offset on in place. -/
theorem head?_rewritten {cs : List Char} {start stop : Nat} {edits : List Edit}
    (hstart : IsBoundary cs start) (hstop : IsBoundary cs stop)
    (h : Placed cs start edits) (hbound : ∀ e ∈ edits, e.span.stop ≤ stop)
    (hafter : ∀ e ∈ edits, start < e.span.start) :
    (rewritten cs start edits stop).head? = (slice cs start stop).head? := by
  cases edits with
  | nil => rfl
  | cons e rest =>
      obtain ⟨hfrom, hto⟩ := h.head_boundary
      have hlt : start < e.span.start := hafter e (List.mem_cons_self ..)
      have hin : e.span.stop ≤ stop := hbound e (List.mem_cons_self ..)
      have hspan := e.span.start_le_stop
      have hkept : (slice cs start e.span.start).head?.isSome = true := by
        simpa using slice_ne_nil hstart hfrom hlt
      rw [rewritten_cons, List.append_assoc, List.head?_append, Option.or_of_isSome hkept,
        head?_slice hstart hfrom hstop hlt (by omega)]

/-! ### No pass glues words together -/

/-- Two texts whose meeting characters read as one word. -/
def Glued (front back : List Char) : Prop :=
  ∃ a b, front.getLast? = some a ∧ back.head? = some b ∧
    Text.isWordChar a = true ∧ Text.isWordChar b = true

theorem not_glued_of_runTogether {front back : List Char}
    (h : runTogether front.getLast? back.head? = false) : ¬ Glued front back := by
  rintro ⟨a, b, ha, hb, hwa, hwb⟩
  rw [ha, hb] at h
  simp [runTogether, hwa, hwb] at h

/-- What separates two characters is glued to neither side of a text in which they are the
neighbours. -/
theorem Separates.not_glued {left right : Option Char} {front text back : List Char}
    (h : Separates left text right) (hfront : front.getLast? = left) (hback : back.head? = right) :
    ¬ Glued front (text ++ back) ∧ ¬ Glued (front ++ text) back := by
  subst hfront hback
  refine ⟨not_glued_of_runTogether ?_, not_glued_of_runTogether ?_⟩
  · rw [List.head?_append]
    exact h.1
  · rw [List.getLast?_append]
    exact h.2

/-- **No pass glues words together.**  A pass over planned patches has a result; at every edit that
is made the outcome is what comes before it, the new text and what comes after it, the characters
beside the edit are the ones that stood there in the source, and on neither side do two characters
meet that read as one word. -/
theorem mergePatches_not_glued {s : Source} {patches : List Patch}
    (h : ∀ p ∈ patches, Planned s p) :
    ∃ out, mergePatches s.text patches = .ok (out, (accepted patches).length) ∧
      ∀ before e after, (accepted patches).flatMap Patch.edits = before ++ e :: after →
        ∃ front back, out.toList = front ++ e.text.toList ++ back ∧
          front = rewritten s.text.toList 0 before e.span.start ∧
          back = rewritten s.text.toList e.span.stop after (Text.byteSize s.text.toList) ∧
          front.getLast? = s.leftOf e.span ∧ back.head? = s.rightOf e.span ∧
          ¬ Glued front (e.text.toList ++ back) ∧ ¬ Glued (front ++ e.text.toList) back := by
  have hplaced : ∀ p ∈ patches, Placed s.text.toList 0 p.edits := by
    intro p hp
    obtain ⟨hcareful, hapart⟩ := (h p hp).careful_apart
    exact ⟨fun e he => (hcareful e he).1, fun e _ => Nat.zero_le _,
      hapart.imp fun hlt => Nat.le_of_lt hlt⟩
  refine ⟨_, mergePatches_eq_ok hplaced, ?_⟩
  -- all edits are strictly apart, so something is kept between them, and each edit still has the
  -- neighbours that it was planned for
  intro before e after hsplit
  have hall := placed_accepted hplaced
  have hstrict := accepted_edits_pairwise (R := fun a b => a.span.stop < b.span.start)
    (fun _ _ hlt => hlt) fun p hp => (h p hp).careful_apart.2
  rw [hsplit] at hall hstrict ⊢
  obtain ⟨-, htail, hcross⟩ := List.pairwise_append.1 hstrict
  have hmem : e ∈ (accepted patches).flatMap Patch.edits := by
    rw [hsplit]
    simp
  obtain ⟨p, hp, hep⟩ := List.mem_flatMap.1 hmem
  obtain ⟨hfits, hsep⟩ := (h p (mem_of_mem_accepted hp)).careful_apart.1 e hep
  have hleft : (rewritten s.text.toList 0 before e.span.start).getLast? = s.leftOf e.span :=
    getLast?_rewritten (Text.isBoundary_zero _) hfits.1 (Nat.zero_le _) hall.left
      fun f hf => hcross f hf e (List.mem_cons_self ..)
  have hright : (rewritten s.text.toList e.span.stop after
      (Text.byteSize s.text.toList)).head? = s.rightOf e.span :=
    head?_rewritten hfits.2 (Text.isBoundary_byteSize _) hall.right.tail
      (fun f hf => (hall.right.tail.boundary f hf).2.le_byteSize)
      (List.pairwise_cons.1 htail).1
  refine ⟨_, _, ?_, rfl, rfl, hleft, hright, hsep.not_glued hleft hright⟩
  rw [String.toList_ofList, rewritten_append_cons]

/-! ### A text without room between words -/

/-- A text in which a word stands directly before a parenthesis and before a brace. -/
def narrowSource : Source := ⟨"return(x);else\x7bc\x7d", #[], #[]⟩

/-- The removal of its parentheses. -/
def narrowUngroup : Patch := ⟨⟨.upTo 6 7, " "⟩, [⟨.upTo 8 9, ""⟩]⟩

/-- The replacement of the part in braces by what stands in them. -/
def narrowUnwrap : Patch := .single ⟨.upTo 14 17, " c"⟩

theorem planned_narrowUngroup : Planned narrowSource narrowUngroup := by
  have hleft : narrowSource.Fits (.upTo 6 7) := ⟨by decide +kernel, by decide +kernel⟩
  have hright : narrowSource.Fits (.upTo 8 9) := ⟨by decide +kernel, by decide +kernel⟩
  have hpatch : Patch.removeGrouping narrowSource ⟨.punctuator, "(", .upTo 6 7⟩
      ⟨.punctuator, ")", .upTo 8 9⟩ = .ok (some narrowUngroup) := by
    rw [Patch.removeGrouping_eq_ok hleft hright (by decide)]
    exact congrArg Except.ok (by decide +kernel)
  refine .ungroup ?_ ?_ ?_ hpatch
  · exact hleft
  · exact hright
  · decide

theorem planned_narrowUnwrap : Planned narrowSource narrowUnwrap := by
  have hfits : narrowSource.Fits (.upTo 14 17) := ⟨by decide +kernel, by decide +kernel⟩
  have hedit : Edit.replace narrowSource (.upTo 14 17) "c" = .ok narrowUnwrap.first := by
    rw [Edit.replace_eq_ok hfits]
    exact congrArg Except.ok (by decide +kernel)
  exact .replace hfits hedit

set_option maxRecDepth 20000 in
/-- Removing the parentheses and the braces in one pass leaves `return x;else c`. -/
theorem mergePatches_not_glued_narrow :
    ∃ front back, mergePatches narrowSource.text [narrowUngroup, narrowUnwrap] =
        .ok ("return x;else c", 2) ∧
      "return x;else c".toList = front ++ " ".toList ++ back ∧
      ¬ Glued front (" ".toList ++ back) ∧ ¬ Glued (front ++ " ".toList) back := by
  have hplanned : ∀ p ∈ [narrowUngroup, narrowUnwrap], Planned narrowSource p := by
    intro p hp
    rcases List.mem_cons.1 hp with rfl | hp
    · exact planned_narrowUngroup
    · obtain rfl := List.mem_singleton.1 hp
      exact planned_narrowUnwrap
  have haccepted : accepted [narrowUngroup, narrowUnwrap] = [narrowUngroup, narrowUnwrap] := by
    rw [accepted, List.mergeSort_of_pairwise (by decide +kernel)]
    decide +kernel
  have hmerge : mergePatches narrowSource.text [narrowUngroup, narrowUnwrap] =
      .ok ("return x;else c", 2) := by
    rw [mergePatches, haccepted]
    rfl
  have hedits : (accepted [narrowUngroup, narrowUnwrap]).flatMap Patch.edits =
      [] ++ ⟨.upTo 6 7, " "⟩ :: [⟨.upTo 8 9, ""⟩, ⟨.upTo 14 17, " c"⟩] := by
    rw [haccepted]
    decide +kernel
  obtain ⟨out, hout, hedit⟩ := mergePatches_not_glued hplanned
  obtain ⟨rfl, -⟩ := Prod.mk.inj (Except.ok.inj (hmerge.symm.trans hout))
  obtain ⟨front, back, htext, -, -, -, -, hleft, hright⟩ := hedit _ _ _ hedits
  exact ⟨front, back, hmerge, htext, hleft, hright⟩

end Pare
