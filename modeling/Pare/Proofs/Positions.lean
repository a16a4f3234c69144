import Mathlib.Data.List.DropRight
import Mathlib.Data.List.GetD
import Mathlib.Data.Prod.Lex
import Pare.Source
import Pare.Proofs.Boundary
import Pare.Proofs.Lookup

/-!
**Lines and columns.**

A source finds the line of an offset in a table of the offsets at which lines start, and counts the
characters from there on.  At an offset between two characters this comes to what a reader would
count: the newlines before it, and the characters after the last one of them.  So positions grow
with the offset: text that holds a newline leads to a later line, and text that holds none, to a
later column of the same line.

Main definitions:

* `Pare.Text.lastLine` — the characters after the last newline of a text;
* `Pare.Source.Position.key` — line and column, to be compared in this order.

Main results:

* `Pare.Source.takeWhile_lineStarts` — the lines that start up to an offset are those of the text
  before it;
* `Pare.Source.partitionPoint_lineStarts` — binary search in the table finds how many lines start up
  to an offset;
* `Pare.Source.position_eq` — line and column count newlines and the characters after them;
* `Pare.Source.position_lt_iff`, `Pare.Source.position_eq_iff` — positions come in the order of the
  offsets;
* `Pare.Source.position_counts` — **positions count newlines and the characters after them**, and
  every offset has one.
-/

set_option relaxedAutoImplicit false
set_option autoImplicit false

namespace Pare

/-! ### The last line of a text -/

namespace Text

/-- The characters after the last newline of a text. -/
def lastLine (cs : List Char) : List Char := cs.rtakeWhile fun c => c != '\n'

theorem newline_notMem_lastLine (cs : List Char) : '\n' ∉ lastLine cs := by
  intro h
  simpa using List.mem_rtakeWhile_imp h

/-- What stands before the last line of a text is nothing, or ends with a newline. -/
theorem exists_append_lastLine (cs : List Char) :
    ∃ head, cs = head ++ lastLine cs ∧ (head = [] ∨ ∃ front, head = front ++ ['\n']) := by
  refine ⟨cs.rdropWhile fun c => c != '\n', List.rdropWhile_append_rtakeWhile.symm, ?_⟩
  by_cases h : (cs.rdropWhile fun c => c != '\n') = []
  · exact .inl h
  · have hlast := List.rdropWhile_last_not (fun c => c != '\n') cs h
    have hnewline : (cs.rdropWhile fun c => c != '\n').getLast h = '\n' := by simpa using hlast
    exact .inr ⟨_, (hnewline ▸ List.dropLast_concat_getLast h).symm⟩

/-- Text without a newline makes the last line longer. -/
theorem lastLine_append {cs : List Char} (h : '\n' ∉ cs) (front : List Char) :
    lastLine (front ++ cs) = lastLine front ++ cs := by
  have hall : ∀ c ∈ cs.reverse, (c != '\n') = true := by
    intro c hc
    rw [bne_iff_ne]
    rintro rfl
    exact h (List.mem_reverse.1 hc)
  rw [lastLine, List.rtakeWhile, List.reverse_append, List.takeWhile_append_of_pos hall,
    List.reverse_append, List.reverse_reverse]
  rfl

end Text

open Text (lastLine byteSize IsBoundary)

namespace Source

/-! ### Where lines start -/

theorem startsAfterNewlines_append (offset : Nat) (as bs : List Char) :
    startsAfterNewlines offset (as ++ bs) =
      startsAfterNewlines offset as ++ startsAfterNewlines (offset + byteSize as) bs := by
  induction as generalizing offset with
  | nil => rfl
  | cons c as ih =>
      have hnext : offset + byteSize (c :: as) = offset + c.utf8Size + byteSize as := by
        rw [Text.byteSize_cons]
        omega
      rw [List.cons_append, startsAfterNewlines, startsAfterNewlines, hnext, ih]
      split
      · rfl
      · rfl

/-- A line starts after each newline. -/
theorem length_startsAfterNewlines (offset : Nat) (cs : List Char) :
    (startsAfterNewlines offset cs).length = cs.count '\n' := by
  induction cs generalizing offset with
  | nil => rfl
  | cons c cs ih =>
      by_cases hc : c = '\n'
      · simp [startsAfterNewlines, hc, ih]
      · simp [startsAfterNewlines, hc, ih]

theorem startsAfterNewlines_eq_nil {cs : List Char} (h : '\n' ∉ cs) (offset : Nat) :
    startsAfterNewlines offset cs = [] := by
  rw [← List.length_eq_zero_iff, length_startsAfterNewlines, List.count_eq_zero]
  exact h

/-- Lines start behind the offset of the text, and not behind its end. -/
theorem bounds_of_mem_startsAfterNewlines {offset start : Nat} {cs : List Char}
    (h : start ∈ startsAfterNewlines offset cs) :
    offset < start ∧ start ≤ offset + byteSize cs := by
  induction cs generalizing offset with
  | nil => simp [startsAfterNewlines] at h
  | cons c cs ih =>
      have hpos := c.utf8Size_pos
      rw [Text.byteSize_cons]
      rw [startsAfterNewlines] at h
      split at h
      · rcases List.mem_cons.1 h with rfl | h
        · omega
        · have := ih h
          omega
      · have := ih h
        omega

/-- Lines start one behind the other. -/
theorem pairwise_startsAfterNewlines (offset : Nat) (cs : List Char) :
    (startsAfterNewlines offset cs).Pairwise (· < ·) := by
  induction cs generalizing offset with
  | nil => exact .nil
  | cons c cs ih =>
      rw [startsAfterNewlines]
      split
      · refine List.pairwise_cons.2 ⟨fun start hstart => ?_, ih _⟩
        exact (bounds_of_mem_startsAfterNewlines hstart).1
      · exact ih _

theorem pairwise_lineStarts (s : Source) : s.lineStarts.Pairwise (· < ·) := by
  refine List.pairwise_cons.2 ⟨fun start hstart => ?_, pairwise_startsAfterNewlines 0 _⟩
  exact (bounds_of_mem_startsAfterNewlines hstart).1

/-- There is one line more than newlines. -/
theorem length_lineStarts (s : Source) : s.lineStarts.length = 1 + s.text.toList.count '\n' := by
  rw [lineStarts, List.length_cons, length_startsAfterNewlines, Nat.add_comm]

/-- Binary search in the table finds how many lines start up to an offset. -/
theorem partitionPoint_lineStarts (s : Source) (offset : Nat) :
    partitionPoint (fun start => start ≤ offset) s.lineStarts.toArray =
      (s.lineStarts.takeWhile fun start => start ≤ offset).length := by
  refine partitionPoint_eq_length (s.pairwise_lineStarts.imp fun {a b} hab hb => ?_)
  simp only [decide_eq_true_eq] at hb ⊢
  omega

variable {s : Source} {front back : List Char}

/-- The lines that start up to an offset are the first line and those of the text before it. -/
theorem takeWhile_lineStarts (h : s.text.toList = front ++ back) :
    s.lineStarts.takeWhile (fun start => start ≤ byteSize front) =
      0 :: startsAfterNewlines 0 front := by
  have hbefore : ∀ start ∈ 0 :: startsAfterNewlines 0 front,
      decide (start ≤ byteSize front) = true := by
    intro start hstart
    rw [decide_eq_true_eq]
    rcases List.mem_cons.1 hstart with rfl | hstart
    · exact Nat.zero_le _
    · have := bounds_of_mem_startsAfterNewlines hstart
      omega
  have hbehind : (startsAfterNewlines (byteSize front) back).takeWhile
      (fun start => decide (start ≤ byteSize front)) = [] := by
    cases hrest : startsAfterNewlines (byteSize front) back with
    | nil => rfl
    | cons start rest =>
        have hmem : start ∈ startsAfterNewlines (byteSize front) back := by simp [hrest]
        have := bounds_of_mem_startsAfterNewlines hmem
        rw [List.takeWhile_cons_of_neg]
        simp only [decide_eq_true_eq]
        omega
  rw [lineStarts, h, startsAfterNewlines_append, Nat.zero_add, ← List.cons_append,
    List.takeWhile_append_of_pos hbefore, hbehind, List.append_nil]

/-- The last line of a text starts where the characters after its last newline do. -/
theorem getD_startsAfterNewlines {head : List Char} (h : front = head ++ lastLine front)
    (hhead : head = [] ∨ ∃ ahead, head = ahead ++ ['\n']) :
    (0 :: startsAfterNewlines 0 front).getD (front.count '\n') 0 = byteSize head := by
  have hlast := Text.newline_notMem_lastLine front
  have hcount : front.count '\n' = head.count '\n' := by
    rw [h, List.count_append, List.count_eq_zero_of_not_mem hlast, Nat.add_zero]
  rw [hcount, h, startsAfterNewlines_append, startsAfterNewlines_eq_nil hlast, List.append_nil]
  rcases hhead with rfl | ⟨ahead, rfl⟩
  · rfl
  · have hlength := length_startsAfterNewlines 0 ahead
    rw [startsAfterNewlines_append, List.count_append, List.count_singleton_self,
      List.getD_cons_succ, ← hlength]
    simp [startsAfterNewlines]

/-! ### Positions -/

/-- **Line and column count newlines and the characters after them.**  At an offset between two
characters the line is one more than the newlines before it, and the column one more than the
characters after the last of them. -/
theorem position_eq (h : s.text.toList = front ++ back) :
    s.position (byteSize front) = ⟨1 + front.count '\n', 1 + (lastLine front).length⟩ := by
  obtain ⟨head, hfront, hhead⟩ := Text.exists_append_lastLine front
  have hline : max (s.lineStarts.takeWhile fun start => start ≤ byteSize front).length 1 =
      front.count '\n' + 1 := by
    rw [takeWhile_lineStarts h, List.length_cons, length_startsAfterNewlines]
    omega
  have hstart : s.lineStarts.getD (front.count '\n') 0 = byteSize head := by
    rw [← getD_startsAfterNewlines hfront hhead, lineStarts, h, startsAfterNewlines_append,
      ← List.cons_append, List.getD_append]
    rw [List.length_cons, length_startsAfterNewlines]
    omega
  have hstop : min (byteSize front) (byteSize s.text.toList) = byteSize front := by
    rw [h, Text.byteSize_append]
    omega
  have hcut : Text.cut? s.text.toList (byteSize head) (byteSize front) = some (lastLine front) := by
    refine Text.cut?_eq_some_iff.2 ⟨head, back, ?_, rfl, ?_⟩
    · rw [← hfront, h]
    · rw [← Text.byteSize_append, ← hfront]
  simp only [position, hline, Nat.add_sub_cancel, hstart, hstop, hcut, Option.map_some,
    Option.getD_some]
  rw [Nat.add_comm (front.count '\n'), Nat.add_comm (lastLine front).length]

/-- The line of an offset is one of the lines of the text. -/
theorem line_position_bounds (s : Source) (offset : Nat) :
    1 ≤ (s.position offset).line ∧ (s.position offset).line ≤ s.lineStarts.length := by
  have hfront : (s.lineStarts.takeWhile fun start => start ≤ offset).length ≤
      s.lineStarts.length := (List.takeWhile_prefix _).length_le
  have hone : 1 ≤ s.lineStarts.length := by
    rw [length_lineStarts]
    exact Nat.le_add_right ..
  exact ⟨Nat.le_max_right .., Nat.max_le.2 ⟨hfront, hone⟩⟩

/-- Line and column, to be compared in this order. -/
def Position.key (p : Position) : ℕ ×ₗ ℕ := toLex (p.line, p.column)

theorem Position.key_lt_iff {p q : Position} :
    p.key < q.key ↔ p.line < q.line ∨ p.line = q.line ∧ p.column < q.column :=
  Prod.Lex.toLex_lt_toLex

theorem Position.key_injective : Function.Injective Position.key := by
  intro p q h
  have hpair : (p.line, p.column) = (q.line, q.column) := h
  cases p
  cases q
  simpa using hpair

/-- More text before an offset moves its position on: to a later line if a newline is in it, and to
a later column of the line if none is. -/
theorem position_lt_of_lt {a b : Nat} (ha : IsBoundary s.text.toList a)
    (hb : IsBoundary s.text.toList b) (hab : a < b) :
    (s.position a).key < (s.position b).key := by
  obtain ⟨front, back, h, rfl⟩ := Text.isBoundary_iff.1 ha
  obtain ⟨front', back', h', rfl⟩ := Text.isBoundary_iff.1 hb
  obtain ⟨mid, rfl, -⟩ := Text.exists_append_of_byteSize_le (h.symm.trans h') (Nat.le_of_lt hab)
  have hmid : mid ≠ [] := by
    rintro rfl
    simp at hab
  rw [Position.key_lt_iff, position_eq h, position_eq h']
  by_cases hnewline : '\n' ∈ mid
  · have hcount := List.count_pos_iff.2 hnewline
    refine .inl ?_
    simp only [List.count_append]
    omega
  · have hlength := List.length_pos_iff.2 hmid
    refine .inr ⟨?_, ?_⟩
    · rw [List.count_append, List.count_eq_zero_of_not_mem hnewline, Nat.add_zero]
    · simp only [Text.lastLine_append hnewline, List.length_append]
      omega

/-- Positions come in the order of the offsets. -/
theorem position_lt_iff {a b : Nat} (ha : IsBoundary s.text.toList a)
    (hb : IsBoundary s.text.toList b) :
    (s.position a).key < (s.position b).key ↔ a < b := by
  constructor
  · intro h
    rcases Nat.lt_trichotomy a b with hab | rfl | hba
    · exact hab
    · exact absurd h (lt_irrefl _)
    · exact absurd h (position_lt_of_lt hb ha hba).asymm
  · exact position_lt_of_lt ha hb

/-- Different offsets have different positions. -/
theorem position_eq_iff {a b : Nat} (ha : IsBoundary s.text.toList a)
    (hb : IsBoundary s.text.toList b) : s.position a = s.position b ↔ a = b := by
  constructor
  · intro h
    rcases Nat.lt_trichotomy a b with hab | rfl | hba
    · exact absurd (position_lt_of_lt ha hb hab) (h ▸ lt_irrefl _)
    · rfl
    · exact absurd (position_lt_of_lt hb ha hba) (h ▸ lt_irrefl _)
  · rintro rfl
    rfl

/-- **Positions count newlines and the characters after them.**  At a boundary of the text, the line
is one more than the newlines before it, and the column one more than the characters after the last
of them; so positions come in the order of the boundaries, and no two boundaries have the same one.
At any offset whatever, inside a character or beyond the end too, the line is found by binary search
in the table of lines, which has an entry for it, and the column is at least one. -/
theorem position_counts (s : Source) :
    (∀ offset, IsBoundary s.text.toList offset → s.position offset =
      ⟨1 + (Text.slice s.text.toList 0 offset).count '\n',
        1 + (lastLine (Text.slice s.text.toList 0 offset)).length⟩) ∧
    (∀ a b, IsBoundary s.text.toList a → IsBoundary s.text.toList b →
      ((s.position a).key < (s.position b).key ↔ a < b) ∧ (s.position a = s.position b ↔ a = b)) ∧
    ∀ offset, (s.position offset).line =
        max (partitionPoint (fun start => start ≤ offset) s.lineStarts.toArray) 1 ∧
      1 ≤ (s.position offset).line ∧ (s.position offset).line ≤ s.lineStarts.length ∧
      s.lineStarts.length = 1 + s.text.toList.count '\n' ∧ 1 ≤ (s.position offset).column := by
  refine ⟨fun offset hoffset => ?_, fun a b ha hb => ⟨position_lt_iff ha hb, position_eq_iff ha hb⟩,
    fun offset => ⟨?_, (s.line_position_bounds offset).1, (s.line_position_bounds offset).2,
      s.length_lineStarts, Nat.le_add_left ..⟩⟩
  · obtain ⟨front, back, h, rfl⟩ := Text.isBoundary_iff.1 hoffset
    have hfront : Text.slice s.text.toList 0 (byteSize front) = front :=
      Text.slice_eq [] back (by simpa using h) rfl (Nat.zero_add _)
    rw [position_eq h, hfront]
  · rw [partitionPoint_lineStarts]
    rfl

/-- The fourth line of this text starts with a character of two bytes. -/
def accentedLine : Source := ofTokens "ab\ncd\n\néf" []

/-- Behind the accent the column is the second; inside of it and beyond the end there are positions
too. -/
theorem position_counts_accented :
    (IsBoundary accentedLine.text.toList 9 ∧ accentedLine.position 9 = ⟨4, 2⟩) ∧
    (accentedLine.position 6).key < (accentedLine.position 9).key ∧
    (¬ IsBoundary accentedLine.text.toList 8 ∧ (accentedLine.position 8).line ≤ 4) ∧
    (accentedLine.position 99).line ≤ 4 := by
  obtain ⟨hcounts, horder, hall⟩ := accentedLine.position_counts
  have hnine : IsBoundary accentedLine.text.toList 9 := by decide +kernel
  have hlines : accentedLine.lineStarts.length = 4 := by decide +kernel
  refine ⟨⟨hnine, ?_⟩, (horder 6 9 (by decide +kernel) hnine).1.2 (by decide),
    ⟨by decide +kernel, ?_⟩, ?_⟩
  · rw [hcounts 9 hnine]
    decide +kernel
  · exact hlines ▸ (hall 8).2.2.1
  · exact hlines ▸ (hall 99).2.2.1

end Source

end Pare
