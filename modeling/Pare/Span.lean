/-!
**Half-open byte ranges.**

Everything the library says about a text it says by byte offsets into its UTF-8 form.  A `Span` is
a half-open range `[start, stop)` of such offsets, and its bounds are in order by construction: an
attempt to build one from bounds out of order is a `Fault`, the error of this library for requests
that no well-formed input makes.

Main definitions:

* `Pare.Fault` — the ways a computation on malformed input can break down;
* `Pare.Span` — an ordered pair of byte offsets;
* `Pare.Span.ofBounds` — the span between two offsets, if they are in order;
* `Pare.Span.contains`, `Pare.Span.cover`, `Pare.Span.before` — inclusion, the smallest span over
  two others, and the order by start and then by stop.

Main results:

* `Pare.Span.pairwise_mergeSort` — things sorted by their places come in the order of their places;
* `Pare.Span.mergeSort_eq_of_perm` — where no two of them share a place, the order in which they
  were given leaves no trace.
-/

set_option relaxedAutoImplicit false
set_option autoImplicit false

namespace Pare

/-! ### Faults -/

/-- The ways a computation on malformed input can break down. -/
inductive Fault where
  /-- A range was asked for whose start lies after its stop. -/
  | inverted (start stop : Nat)
  /-- A text was to be cut outside its bounds or inside a character. -/
  | cut (offset : Nat)
  /-- A node was looked up that the tree does not hold. -/
  | noNode (id : Nat)
  /-- A walk over a tree with a cycle was cut off. -/
  | endless
deriving DecidableEq, Repr

/-! ### Spans -/

/-- A half-open range `[start, stop)` of byte offsets. -/
@[ext]
structure Span where
  /-- The offset of the first byte. -/
  start : Nat
  /-- The offset after the last byte. -/
  stop : Nat
  /-- The bounds are in order. -/
  start_le_stop : start ≤ stop
deriving DecidableEq, Repr

namespace Span

/-- The empty span at an offset. -/
def point (offset : Nat) : Span := ⟨offset, offset, Nat.le_refl offset⟩

@[simp] theorem start_point (offset : Nat) : (point offset).start = offset := rfl

@[simp] theorem stop_point (offset : Nat) : (point offset).stop = offset := rfl

/-- The span between two offsets, a fault if they are out of order. -/
def ofBounds (start stop : Nat) : Except Fault Span :=
  if h : start ≤ stop then .ok ⟨start, stop, h⟩ else .error (.inverted start stop)

theorem ofBounds_of_le {start stop : Nat} (h : start ≤ stop) :
    ofBounds start stop = .ok ⟨start, stop, h⟩ := by
  simp [ofBounds, h]

/-- The span that starts at the first offset and reaches the second, or is empty if it cannot. -/
def upTo (start stop : Nat) : Span := ⟨start, max start stop, Nat.le_max_left start stop⟩

@[simp] theorem start_upTo (start stop : Nat) : (upTo start stop).start = start := rfl

@[simp] theorem stop_upTo (start stop : Nat) : (upTo start stop).stop = max start stop := rfl

/-- The number of bytes in a span. -/
def size (s : Span) : Nat := s.stop - s.start

/-- Does the span hold no byte? -/
def isEmpty (s : Span) : Bool := s.start == s.stop

/-- Does the first span include the second? -/
def contains (s t : Span) : Bool := s.start ≤ t.start && t.stop ≤ s.stop

theorem contains_iff {s t : Span} : s.contains t = true ↔ s.start ≤ t.start ∧ t.stop ≤ s.stop := by
  simp [contains]

/-- The smallest span that includes both. -/
def cover (s t : Span) : Span where
  start := min s.start t.start
  stop := max s.stop t.stop
  start_le_stop := by
    have := s.start_le_stop
    omega

@[simp] theorem start_cover (s t : Span) : (s.cover t).start = min s.start t.start := rfl

@[simp] theorem stop_cover (s t : Span) : (s.cover t).stop = max s.stop t.stop := rfl

/-- Is the first span before the second in the order by start and then by stop? -/
def before (s t : Span) : Bool :=
  s.start < t.start || s.start == t.start && s.stop < t.stop

/-- Is the first span not after the second in the order by start and then by stop? -/
def notAfter (s t : Span) : Bool := !t.before s

theorem notAfter_iff {s t : Span} :
    s.notAfter t = true ↔ s.start < t.start ∨ s.start = t.start ∧ s.stop ≤ t.stop := by
  simp only [notAfter, before, Bool.not_eq_true', Bool.or_eq_false_iff, Bool.and_eq_false_iff,
    decide_eq_false_iff_not, beq_eq_false_iff_ne]
  omega

theorem notAfter_trans {s t u : Span} (hst : s.notAfter t = true) (htu : t.notAfter u = true) :
    s.notAfter u = true := by
  rw [notAfter_iff] at hst htu ⊢
  omega

theorem notAfter_total (s t : Span) : (s.notAfter t || t.notAfter s) = true := by
  rw [Bool.or_eq_true, notAfter_iff, notAfter_iff]
  omega

/-- Spans that come at one place in the order are the same. -/
theorem eq_of_notAfter {s t : Span} (hst : s.notAfter t = true) (hts : t.notAfter s = true) :
    s = t := by
  rw [notAfter_iff] at hst hts
  ext
  · omega
  · omega

section Sorting

variable {α : Type} (place : α → Span)

/-- Things sorted by their places come in the order of their places. -/
theorem pairwise_mergeSort (things : List α) :
    (things.mergeSort fun a b => (place a).notAfter (place b)).Pairwise fun a b =>
      (place a).notAfter (place b) = true := by
  refine List.pairwise_mergeSort ?_ ?_ things
  · intro a b c
    exact notAfter_trans
  · intro a b
    exact notAfter_total (place a) (place b)

/-- Where things at one place are the same, sorting them by their places forgets the order in which
they were given. -/
theorem mergeSort_eq_of_perm {things things' : List α} (h : things.Perm things')
    (hsame : ∀ a ∈ things, ∀ b ∈ things, place a = place b → a = b) :
    things'.mergeSort (fun a b => (place a).notAfter (place b)) =
      things.mergeSort fun a b => (place a).notAfter (place b) := by
  refine List.Perm.eq_of_pairwise ?_ (pairwise_mergeSort place _) (pairwise_mergeSort place _) ?_
  · intro a b ha hb hab hba
    rw [List.mem_mergeSort] at ha hb
    exact hsame a (h.mem_iff.2 ha) b hb (eq_of_notAfter hab hba)
  · exact (List.mergeSort_perm _ _).trans (h.symm.trans (List.mergeSort_perm _ _).symm)

end Sorting

/-- The written form `start..stop`. -/
def render (s : Span) : String := toString s.start ++ ".." ++ toString s.stop

end Span

end Pare
