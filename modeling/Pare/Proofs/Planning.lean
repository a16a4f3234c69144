import Pare.Proofs.Splice

/-!
**Planning edits where they fit.**

The operations that plan an edit look at the text beside its span and break down where the span does
not fit the text.  Where it does, each of them is a plain function, which this module writes out:
what a removal and a replacement leave behind depends on the two neighbouring characters only, and
the removal of a pair of parentheses is the patch of two removals.

Main definitions:

* `Pare.Source.Fits` — a span at whose ends the text of a source can be cut;
* `Pare.Source.leftOf`, `Pare.Source.rightOf` — the characters beside a span;
* `Pare.Edit.removal`, `Pare.Edit.substitution` — the edits that removing and replacing plan.

Main results:

* `Pare.Edit.delete_eq_ok`, `Pare.Edit.replace_eq_ok` — planning succeeds where the span fits;
* `Pare.Patch.removeGrouping_eq_ok` — the removal of parentheses is two removals;
* `Pare.Edit.separates_removal`, `Pare.Edit.separates_substitution` — no planned edit runs into a
  neighbouring word.
-/

set_option relaxedAutoImplicit false
set_option autoImplicit false

namespace Pare

/-! ### Spans and their neighbours -/

/-- A span at whose ends the text of a source can be cut. -/
def Source.Fits (s : Source) (span : Span) : Prop :=
  Text.IsBoundary s.text.toList span.start ∧ Text.IsBoundary s.text.toList span.stop

/-- The character directly before a span. -/
def Source.leftOf (s : Source) (span : Span) : Option Char :=
  (Text.slice s.text.toList 0 span.start).getLast?

/-- The character directly after a span. -/
def Source.rightOf (s : Source) (span : Span) : Option Char :=
  (Text.slice s.text.toList span.stop (Text.byteSize s.text.toList)).head?

/-- Beside a span that fits, the neighbours are found. -/
theorem Source.around_eq_ok {s : Source} {span : Span} (h : s.Fits span) :
    s.around span = .ok (s.leftOf span, s.rightOf span) := by
  rw [Source.around, Text.upTo_eq_ok h.1, Text.beyond_eq_ok h.2]
  rfl

/-! ### Removal and replacement -/

namespace Edit

/-- The space that is left between two characters that would run together. -/
def pad (a b : Option Char) : String := if runTogether a b then " " else ""

/-- The edit that the removal of a span plans. -/
def removal (s : Source) (span : Span) : Edit := ⟨span, pad (s.leftOf span) (s.rightOf span)⟩

@[simp] theorem span_removal (s : Source) (span : Span) : (removal s span).span = span := rfl

/-- The edit that the replacement of a span by a text plans. -/
def substitution (s : Source) (span : Span) (text : String) : Edit :=
  if text.isEmpty then removal s span
  else ⟨span, pad (s.leftOf span) text.toList.head? ++ text ++
    pad (s.rightOf span) text.toList.getLast?⟩

@[simp] theorem span_substitution (s : Source) (span : Span) (text : String) :
    (substitution s span text).span = span := by
  unfold substitution
  split <;> rfl

theorem delete_eq_ok {s : Source} {span : Span} (h : s.Fits span) :
    delete s span = .ok (removal s span) := by
  rw [delete, Source.around_eq_ok h]
  rfl

theorem replace_eq_ok {s : Source} {span : Span} (h : s.Fits span) (text : String) :
    replace s span text = .ok (substitution s span text) := by
  rw [replace, substitution]
  split
  · exact delete_eq_ok h
  · rw [Source.around_eq_ok h]
    rfl

theorem removeSign_eq_ok {s : Source} {token : Token} (h : s.Fits token.span) (text : String) :
    removeSign s token text =
      .ok (if token.isSign text then some (removal s token.span) else none) := by
  rw [removeSign, delete_eq_ok h]
  split <;> rfl

end Edit

/-! ### Pairs of edits -/

/-- Two edits in order and apart make a patch. -/
theorem Patch.ofEdits?_pair {a b : Edit} (h : a.span.stop ≤ b.span.start) :
    Patch.ofEdits? [a, b] = some ⟨a, [b]⟩ := by
  have hle := a.span.start_le_stop
  have hle' := b.span.start_le_stop
  have hsorted : [a, b].mergeSort Edit.notAfter = [a, b] := by
    refine List.mergeSort_of_pairwise ?_
    simp only [List.pairwise_cons, List.mem_singleton, forall_eq, List.not_mem_nil, false_implies,
      implies_true, List.Pairwise.nil, and_true, Edit.notAfter, Span.notAfter_iff]
    omega
  simp [Patch.ofEdits?, hsorted, areApart, h]

/-- The removal of a pair of parentheses is the patch of the two removals. -/
theorem Patch.removeGrouping_eq_ok {s : Source} {left right : Token} (hleft : s.Fits left.span)
    (hright : s.Fits right.span) (hle : left.span.stop ≤ right.span.start) :
    Patch.removeGrouping s left right = .ok
      (if left.isSign "(" && right.isSign ")" then
        some ⟨Edit.removal s left.span, [Edit.removal s right.span]⟩ else none) := by
  have hpair := Patch.ofEdits?_pair (a := Edit.removal s left.span)
    (b := Edit.removal s right.span) hle
  rw [Patch.removeGrouping, Edit.removeSign_eq_ok hleft, Edit.removeSign_eq_ok hright]
  cases hl : left.isSign "(" with
  | false => rfl
  | true =>
      cases hr : right.isSign ")" with
      | false => rfl
      | true => exact congrArg Except.ok hpair

/-! ### Keeping words apart -/

theorem isWordChar_space : Text.isWordChar ' ' = false := by decide +kernel

@[simp] theorem runTogether_space_right (a : Option Char) : runTogether a (some ' ') = false := by
  cases a <;> simp [runTogether, isWordChar_space]

@[simp] theorem runTogether_space_left (b : Option Char) : runTogether (some ' ') b = false := by
  cases b <;> simp [runTogether, isWordChar_space]

theorem runTogether_comm (a b : Option Char) : runTogether a b = runTogether b a := by
  cases a <;> cases b <;> simp [runTogether, Bool.and_comm]

/-- A text that can stand between two characters without running into one of them; where it is
empty, the two must not run together themselves. -/
def Separates (left : Option Char) (text : List Char) (right : Option Char) : Prop :=
  runTogether left (text.head?.or right) = false ∧ runTogether (text.getLast?.or left) right = false

/-- A removal separates the neighbours of its span. -/
theorem Edit.separates_removal (s : Source) (span : Span) :
    Separates (s.leftOf span) (Edit.removal s span).text.toList (s.rightOf span) := by
  simp only [Separates, Edit.removal, Edit.pad]
  split
  · simp
  · rename_i hfree
    simpa using hfree

/-- A replacement separates the neighbours of its span. -/
theorem Edit.separates_substitution (s : Source) (span : Span) (text : String) :
    Separates (s.leftOf span) (Edit.substitution s span text).text.toList (s.rightOf span) := by
  unfold Edit.substitution
  split
  · exact Edit.separates_removal s span
  · rename_i hne
    have hcons : text.toList ≠ [] := by simpa using hne
    obtain ⟨c, cs, hfirst⟩ := List.exists_cons_of_ne_nil hcons
    obtain ⟨ds, d, hlast⟩ : ∃ ds d, text.toList = ds ++ [d] :=
      ⟨_, _, (List.dropLast_concat_getLast hcons).symm⟩
    -- the two pads are decided apart, so each side is looked at on its own
    constructor
    · simp only [Edit.pad, String.toList_append, List.head?_append]
      split
      · simp
      · rename_i hfree
        simpa [hfirst] using hfree
    · simp only [Edit.pad, String.toList_append, List.getLast?_append]
      split
      · simp
      · rename_i hfree
        rw [runTogether_comm]
        simpa [hlast] using hfree

end Pare
