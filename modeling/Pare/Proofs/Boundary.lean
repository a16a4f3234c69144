import Pare.Text.Offset
import Pare.Text.Class

/-!
**Cutting a text at its boundaries.**

`Pare.Text.Offset` cuts a text by byte offsets and answers `none` where an offset is beyond the end
or inside a character.  This module names the offsets at which a cut succeeds and shows that between
them a text behaves like a line with marks on it: the piece between two boundaries exists, pieces
that meet can be joined, and nothing is lost or doubled.  On top of it stands the measure that
fixing brings down, the number of characters that are not blank.

Main definitions:

* `Pare.Text.IsBoundary` — an offset at which a text can be cut;
* `Pare.Text.slice` — the piece between two offsets, empty if they do not fit;
* `Pare.Text.ink` — the number of characters that are not blank.

Main results:

* `Pare.Text.cut?_eq_some_iff` — what a cut returns, as an equation between texts;
* `Pare.Text.cut?_eq_slice`, `Pare.Text.slice_append` — between boundaries a cut succeeds, and
  pieces that meet can be joined;
* `Pare.Text.ink_append`, `Pare.Text.ink_slice_add`, `Pare.Text.ink_trim` — the measure is additive,
  and trimming keeps it.
-/

set_option relaxedAutoImplicit false
set_option autoImplicit false

namespace Pare

namespace Text

/-! ### Splits as equations -/

/-- Every way to write a text in two parts is a split at the size of the first part. -/
theorem splitAt?_byteSize_append (as bs : List Char) :
    splitAt? (byteSize as) (as ++ bs) = some (as, bs) := by
  induction as with
  | nil => simp
  | cons c cs ih =>
      have hpos := c.utf8Size_pos
      obtain ⟨n, hn⟩ : ∃ n, c.utf8Size + byteSize cs = n + 1 :=
        ⟨c.utf8Size + byteSize cs - 1, by omega⟩
      have hrest : n + 1 - c.utf8Size = byteSize cs := by omega
      rw [byteSize_cons, hn, List.cons_append, splitAt?, if_pos (by omega), hrest, ih]
      rfl

theorem splitAt?_eq_some_iff {n : Nat} {cs as bs : List Char} :
    splitAt? n cs = some (as, bs) ↔ as ++ bs = cs ∧ byteSize as = n := by
  refine ⟨spec_of_splitAt?, ?_⟩
  rintro ⟨rfl, rfl⟩
  exact splitAt?_byteSize_append as bs

/-- A text without bytes is empty. -/
theorem eq_nil_of_byteSize {cs : List Char} (h : byteSize cs = 0) : cs = [] := by
  cases cs with
  | nil => rfl
  | cons c cs =>
      have hpos := c.utf8Size_pos
      rw [byteSize_cons] at h
      omega

/-! ### Boundaries -/

/-- An offset at which a text can be cut: between two characters, or at an end. -/
def IsBoundary (cs : List Char) (n : Nat) : Prop := (splitAt? n cs).isSome = true

instance (cs : List Char) (n : Nat) : Decidable (IsBoundary cs n) :=
  inferInstanceAs (Decidable (_ = true))

theorem isBoundary_iff {cs : List Char} {n : Nat} :
    IsBoundary cs n ↔ ∃ front back, cs = front ++ back ∧ byteSize front = n := by
  constructor
  · intro h
    obtain ⟨⟨front, back⟩, hs⟩ := Option.isSome_iff_exists.1 h
    obtain ⟨he, hn⟩ := splitAt?_eq_some_iff.1 hs
    exact ⟨front, back, he.symm, hn⟩
  · rintro ⟨front, back, rfl, rfl⟩
    rw [IsBoundary, splitAt?_byteSize_append]
    rfl

theorem isBoundary_zero (cs : List Char) : IsBoundary cs 0 := by
  simp [IsBoundary]

theorem isBoundary_byteSize (cs : List Char) : IsBoundary cs (byteSize cs) :=
  isBoundary_iff.2 ⟨cs, [], by simp, rfl⟩

theorem IsBoundary.le_byteSize {cs : List Char} {n : Nat} (h : IsBoundary cs n) :
    n ≤ byteSize cs := by
  obtain ⟨front, back, rfl, rfl⟩ := isBoundary_iff.1 h
  simp

/-! ### Pieces -/

/-- What a cut returns: the text splits into a front, the piece and a back. -/
theorem cut?_eq_some_iff {cs mid : List Char} {a b : Nat} :
    cut? cs a b = some mid ↔
      ∃ front back, cs = front ++ mid ++ back ∧ byteSize front = a ∧ a + byteSize mid = b := by
  constructor
  · intro h
    simp only [cut?] at h
    split at h
    · rename_i hab
      -- two splits, one at the start and one at the stop of what is left
      rw [beyond?_eq] at h
      cases hs : splitAt? a cs with
      | none => simp [hs] at h
      | some parts =>
          cases hm : splitAt? (b - a) parts.2 with
          | none => simp [hs, hm] at h
          | some middle =>
              simp only [hs, hm, Option.map_some, Option.bind_eq_bind, Option.bind_some,
                Option.pure_def, Option.some.injEq] at h
              obtain ⟨he, hn⟩ := splitAt?_eq_some_iff.1 hs
              obtain ⟨he', hn'⟩ := splitAt?_eq_some_iff.1 hm
              refine ⟨parts.1, middle.2, ?_, hn, ?_⟩
              · rw [← he, ← he', ← h, List.append_assoc]
              · rw [← h]
                omega
    · simp at h
  · rintro ⟨front, back, rfl, rfl, rfl⟩
    have hsub : byteSize front + byteSize mid - byteSize front = byteSize mid := by omega
    rw [cut?, if_pos (by omega), beyond?_eq, hsub, List.append_assoc, splitAt?_byteSize_append]
    simp [splitAt?_byteSize_append]

/-- Of two fronts of one text, the shorter one starts the longer one. -/
theorem exists_append_of_byteSize_le {f₁ b₁ f₂ b₂ : List Char} (h : f₁ ++ b₁ = f₂ ++ b₂)
    (hle : byteSize f₁ ≤ byteSize f₂) : ∃ mid, f₂ = f₁ ++ mid ∧ b₁ = mid ++ b₂ := by
  rcases List.append_eq_append_iff.1 h with ⟨mid, h₁, h₂⟩ | ⟨mid, h₁, h₂⟩
  · exact ⟨mid, h₁, h₂⟩
  · have hz : byteSize mid = 0 := by
      rw [h₁, byteSize_append] at hle
      omega
    have hnil := eq_nil_of_byteSize hz
    subst hnil
    exact ⟨[], by simpa using h₁.symm, by simpa using h₂.symm⟩

/-- Between two boundaries in order a cut succeeds. -/
theorem exists_cut? {cs : List Char} {a b : Nat} (ha : IsBoundary cs a) (hb : IsBoundary cs b)
    (hab : a ≤ b) : ∃ mid, cut? cs a b = some mid := by
  obtain ⟨f₁, b₁, h₁, rfl⟩ := isBoundary_iff.1 ha
  obtain ⟨f₂, b₂, h₂, rfl⟩ := isBoundary_iff.1 hb
  obtain ⟨mid, rfl, rfl⟩ := exists_append_of_byteSize_le (h₁.symm.trans h₂) hab
  refine ⟨mid, cut?_eq_some_iff.2 ⟨f₁, b₂, h₂, rfl, ?_⟩⟩
  simp

/-- Both ends of a cut are boundaries, and they are in order. -/
theorem isBoundary_of_cut? {cs mid : List Char} {a b : Nat} (h : cut? cs a b = some mid) :
    IsBoundary cs a ∧ IsBoundary cs b ∧ a ≤ b := by
  obtain ⟨front, back, rfl, rfl, rfl⟩ := cut?_eq_some_iff.1 h
  refine ⟨isBoundary_iff.2 ⟨front, mid ++ back, by simp, rfl⟩,
    isBoundary_iff.2 ⟨front ++ mid, back, rfl, by simp⟩, by omega⟩

/-- The piece of a text between two offsets, empty if they do not fit the text. -/
def slice (cs : List Char) (a b : Nat) : List Char := (cut? cs a b).getD []

theorem slice_of_cut? {cs mid : List Char} {a b : Nat} (h : cut? cs a b = some mid) :
    slice cs a b = mid := by
  simp [slice, h]

/-- Between two boundaries in order the piece is what a cut returns. -/
theorem cut?_eq_slice {cs : List Char} {a b : Nat} (ha : IsBoundary cs a) (hb : IsBoundary cs b)
    (hab : a ≤ b) : cut? cs a b = some (slice cs a b) := by
  obtain ⟨mid, hmid⟩ := exists_cut? ha hb hab
  rw [hmid, slice_of_cut? hmid]

theorem slice_eq {cs mid : List Char} {a b : Nat} (front back : List Char)
    (h : cs = front ++ mid ++ back) (ha : byteSize front = a) (hb : a + byteSize mid = b) :
    slice cs a b = mid :=
  slice_of_cut? (cut?_eq_some_iff.2 ⟨front, back, h, ha, hb⟩)

@[simp] theorem slice_self (cs : List Char) (a : Nat) : slice cs a a = [] := by
  cases h : cut? cs a a with
  | none => simp [slice, h]
  | some mid =>
      obtain ⟨front, back, -, -, hsize⟩ := cut?_eq_some_iff.1 h
      rw [slice_of_cut? h]
      exact eq_nil_of_byteSize (by omega)

theorem slice_whole (cs : List Char) : slice cs 0 (byteSize cs) = cs :=
  slice_eq [] [] (by simp) rfl (by simp)

/-- Pieces that meet can be joined. -/
theorem slice_append {cs : List Char} {a b c : Nat} (ha : IsBoundary cs a) (hb : IsBoundary cs b)
    (hc : IsBoundary cs c) (hab : a ≤ b) (hbc : b ≤ c) :
    slice cs a b ++ slice cs b c = slice cs a c := by
  obtain ⟨f₁, b₁, h₁, rfl⟩ := isBoundary_iff.1 ha
  obtain ⟨f₂, b₂, h₂, rfl⟩ := isBoundary_iff.1 hb
  obtain ⟨f₃, b₃, h₃, rfl⟩ := isBoundary_iff.1 hc
  obtain ⟨m, rfl, rfl⟩ := exists_append_of_byteSize_le (h₁.symm.trans h₂) hab
  obtain ⟨m', rfl, rfl⟩ := exists_append_of_byteSize_le (h₂.symm.trans h₃) hbc
  have hfirst : slice cs (byteSize f₁) (byteSize (f₁ ++ m)) = m :=
    slice_eq f₁ (m' ++ b₃) h₂ rfl (byteSize_append f₁ m).symm
  have hsecond : slice cs (byteSize (f₁ ++ m)) (byteSize (f₁ ++ m ++ m')) = m' :=
    slice_eq (f₁ ++ m) b₃ h₃ rfl (byteSize_append (f₁ ++ m) m').symm
  have hboth : slice cs (byteSize f₁) (byteSize (f₁ ++ m ++ m')) = m ++ m' :=
    slice_eq f₁ b₃ (by simpa using h₃) rfl (by simp)
  rw [hfirst, hsecond, hboth]

theorem byteSize_slice {cs : List Char} {a b : Nat} (ha : IsBoundary cs a) (hb : IsBoundary cs b)
    (hab : a ≤ b) : byteSize (slice cs a b) = b - a := by
  obtain ⟨_, _, _, _, hsize⟩ := cut?_eq_some_iff.1 (cut?_eq_slice ha hb hab)
  omega

/-- A character of a piece stands in the text at an offset between those of the piece. -/
theorem exists_offset_of_mem_slice {cs : List Char} {a b : Nat} {c : Char}
    (h : c ∈ slice cs a b) :
    ∃ front back, cs = front ++ c :: back ∧ a ≤ byteSize front ∧ byteSize front < b := by
  cases hcut : cut? cs a b with
  | none => simp [slice, hcut] at h
  | some mid =>
      rw [slice_of_cut? hcut] at h
      obtain ⟨front, back, rfl, rfl, rfl⟩ := cut?_eq_some_iff.1 hcut
      obtain ⟨m₁, m₂, rfl⟩ := List.append_of_mem h
      have hpos := c.utf8Size_pos
      refine ⟨front ++ m₁, m₂ ++ back, by simp, by simp, ?_⟩
      simp only [byteSize_append, byteSize_cons]
      omega

/-! ### Cuts that may be faulty -/

theorem between_eq_ok {cs : List Char} {a b : Nat} (ha : IsBoundary cs a) (hb : IsBoundary cs b)
    (hab : a ≤ b) : between cs a b = .ok (slice cs a b) := by
  rw [between, cut?_eq_slice ha hb hab]

theorem beyond_eq_ok {cs : List Char} {a : Nat} (ha : IsBoundary cs a) :
    beyond cs a = .ok (slice cs a (byteSize cs)) := by
  obtain ⟨front, back, rfl, rfl⟩ := isBoundary_iff.1 ha
  have hslice : slice (front ++ back) (byteSize front) (byteSize (front ++ back)) = back :=
    slice_eq front [] (by simp) rfl (by simp)
  rw [beyond, beyond?_eq, splitAt?_byteSize_append, hslice]
  rfl

theorem upTo_eq_ok {cs : List Char} {a : Nat} (ha : IsBoundary cs a) :
    upTo cs a = .ok (slice cs 0 a) := by
  obtain ⟨front, back, rfl, rfl⟩ := isBoundary_iff.1 ha
  have hslice : slice (front ++ back) 0 (byteSize front) = front :=
    slice_eq [] back (by simp) rfl (by simp)
  rw [upTo, splitAt?_byteSize_append, hslice]

/-! ### Characters that are not blank -/

/-- The number of characters that are not blank. -/
def ink (cs : List Char) : Nat := cs.countP fun c => !isBlank c

@[simp] theorem ink_nil : ink [] = 0 := rfl

theorem ink_cons (c : Char) (cs : List Char) :
    ink (c :: cs) = ink cs + if isBlank c then 0 else 1 := by
  rw [ink, List.countP_cons, ← ink]
  cases isBlank c <;> rfl

@[simp] theorem ink_append (as bs : List Char) : ink (as ++ bs) = ink as + ink bs :=
  List.countP_append

/-- The pieces of a text add up. -/
theorem ink_slice_add {cs : List Char} {a b c : Nat} (ha : IsBoundary cs a) (hb : IsBoundary cs b)
    (hc : IsBoundary cs c) (hab : a ≤ b) (hbc : b ≤ c) :
    ink (slice cs a b) + ink (slice cs b c) = ink (slice cs a c) := by
  rw [← ink_append, slice_append ha hb hc hab hbc]

theorem ink_eq_zero {cs : List Char} (h : ∀ c ∈ cs, isBlank c = true) : ink cs = 0 := by
  refine List.countP_eq_zero.2 fun c hc => ?_
  simp [h c hc]

theorem ink_dropWhile (cs : List Char) : ink (cs.dropWhile isBlank) = ink cs := by
  have hfront : ink (cs.takeWhile isBlank) = 0 :=
    ink_eq_zero fun c hc => List.all_eq_true.1 List.all_takeWhile c hc
  have hall := congrArg ink (List.takeWhile_append_dropWhile (p := isBlank) (l := cs))
  rw [ink_append] at hall
  omega

theorem ink_reverse (cs : List Char) : ink cs.reverse = ink cs := List.countP_reverse

/-- Trimming takes away blanks only. -/
theorem ink_trim (cs : List Char) : ink (trim cs) = ink cs := by
  rw [trim, ink_reverse, ink_dropWhile, ink_reverse, ink_dropWhile]

end Text

end Pare
