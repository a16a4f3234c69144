import Pare.Source

/-!
**Looking up tokens is searching all of them.**

The neighbours and the contents of a span are found by binary search in streams ordered by where
their members start.  This module shows that for members in order and apart each look-up is the
plain search through the whole stream: the last token that ends in time, the first that starts late
enough, all comments inside.

Main definitions:

* `Pare.Token.Precedes` — one token ends at or before the start of the other;
* `Pare.InOrder` — a stream of tokens that hold text, in order and apart;
* `Pare.Source.tokensIn` — the code tokens inside a span.

Main results:

* `Pare.partitionPoint_eq_length` — binary search finds how far a predicate holds;
* `Pare.Source.tokenBefore_eq`, `Pare.Source.tokenAfter_eq`, `Pare.Source.commentsIn_eq` — the
  look-ups as plain searches;
* `Pare.Source.tokenBefore_eq_some`, `Pare.Source.tokenAfter_eq_some` — what was found is nearest;
* `Pare.Source.firstToken_eq`, `Pare.Source.lastToken_eq` — the outermost tokens of a span.
-/

set_option relaxedAutoImplicit false
set_option autoImplicit false

namespace Pare

/-! ### Binary search -/

/-- Narrowing keeps everything before its base satisfied and everything after it unsatisfied. -/
theorem narrow_spec {p : Nat → Bool} {n : Nat} (hp : ∀ i j, i < j → j < n → p j = true → p i = true)
    {base size : Nat} (hpos : 0 < size) (hle : base + size ≤ n) (hbefore : ∀ i < base, p i = true)
    (hafter : ∀ i, base + size ≤ i → i < n → p i = false) :
    narrow p base size < n ∧ (∀ i < narrow p base size, p i = true) ∧
      ∀ i, narrow p base size < i → i < n → p i = false := by
  fun_induction narrow p base size with
  | case1 base size hsmall =>
      exact ⟨by omega, hbefore, fun i hi hn => hafter i (by omega) hn⟩
  | case2 base size hbig half ih =>
      have hhalf : half = size / 2 := rfl
      -- what holds at the middle holds before it, and what fails there fails after it
      cases hmid : p (base + half) with
      | true =>
          simp only [hmid, if_true, dite_true] at ih ⊢
          refine ih (by omega) (by omega) ?_ fun i hi hn => hafter i (by omega) hn
          intro i hi
          exact hp i _ hi (by omega) hmid
      | false =>
          simp only [hmid, Bool.false_eq_true, if_false, dite_false] at ih ⊢
          refine ih (by omega) (by omega) hbefore ?_
          intro i hi hn
          cases hi' : p i with
          | false => rfl
          | true =>
              rcases Nat.eq_or_lt_of_le (show base + half ≤ i by omega) with rfl | hlt
              · exact absurd (hmid.symm.trans hi') (by simp)
              · exact absurd (hmid.symm.trans (hp _ i hlt hn hi')) (by simp)

/-- The boundary parts the indices that satisfy a predicate from those that do not. -/
theorem boundary_spec {p : Nat → Bool} {n : Nat}
    (hp : ∀ i j, i < j → j < n → p j = true → p i = true) :
    boundary p n ≤ n ∧ (∀ i < boundary p n, p i = true) ∧
      ∀ i, boundary p n ≤ i → i < n → p i = false := by
  rw [boundary]
  split
  · refine ⟨by omega, by omega, by omega⟩
  · rename_i hn
    obtain ⟨hlt, hbefore, hafter⟩ :=
      narrow_spec hp (show 0 < n by omega) (Nat.le_of_eq (Nat.zero_add n)) (by omega) (by omega)
    dsimp only
    split
    · rename_i hbase
      refine ⟨by omega, ?_, fun i hi hin => hafter i (by omega) hin⟩
      intro i hi
      rcases Nat.eq_or_lt_of_le (Nat.le_of_lt_succ hi) with rfl | hlt'
      · exact hbase
      · exact hbefore i hlt'
    · rename_i hbase
      refine ⟨by omega, hbefore, ?_⟩
      intro i hi hin
      rcases Nat.eq_or_lt_of_le hi with rfl | hlt'
      · simpa using hbase
      · exact hafter i hlt' hin

/-- A predicate that never turns from false to true holds as far as it holds at all. -/
theorem takeWhile_eq_filter {α : Type} {p : α → Bool} {l : List α}
    (h : l.Pairwise fun a b => p b = true → p a = true) :
    l.takeWhile p = l.filter p ∧ l.dropWhile p = l.filter fun a => !p a := by
  induction l with
  | nil => simp
  | cons a l ih =>
      obtain ⟨ha, hl⟩ := List.pairwise_cons.1 h
      cases hp : p a with
      | true => simpa [hp] using ih hl
      | false =>
          have hall : ∀ b ∈ l, p b = false := by
            intro b hb
            cases hpb : p b with
            | false => rfl
            | true => exact absurd (hp.symm.trans (ha b hb hpb)) (by simp)
          have hnone : l.filter p = [] := by
            simpa using hall
          have hkept : (l.filter fun a => !p a) = l := by
            simpa using hall
          simp [hp, hnone, hkept]

/-- The length of the front on which a predicate holds. -/
theorem eq_length_takeWhile {α : Type} {p : α → Bool} {l : List α} {k : Nat} (hk : k ≤ l.length)
    (hbefore : ∀ i < k, (l[i]?).any p = true)
    (hafter : ∀ i, k ≤ i → i < l.length → (l[i]?).any p = false) :
    k = (l.takeWhile p).length := by
  induction l generalizing k with
  | nil => simpa using hk
  | cons a l ih =>
      cases k with
      | zero =>
          have ha : p a = false := by simpa using hafter 0 (Nat.le_refl 0) (by simp)
          simp [ha]
      | succ k =>
          have ha : p a = true := by simpa using hbefore 0 (by omega)
          have hrest := ih (k := k) (by simpa using hk)
            (fun i hi => by simpa using hbefore (i + 1) (by omega))
            (fun i hi hl => by simpa using hafter (i + 1) (by omega) (by simpa using hl))
          simp [ha, ← hrest]

theorem drop_length_takeWhile {α : Type} (p : α → Bool) (l : List α) :
    l.drop (l.takeWhile p).length = l.dropWhile p := by
  induction l with
  | nil => rfl
  | cons a l ih =>
      cases hp : p a with
      | true => simpa [hp] using ih
      | false => simp [hp]

/-- Binary search finds how far a predicate holds. -/
theorem partitionPoint_eq_length {α : Type} {p : α → Bool} {xs : Array α}
    (h : xs.toList.Pairwise fun a b => p b = true → p a = true) :
    partitionPoint p xs = (xs.toList.takeWhile p).length := by
  have hmono : ∀ i j, i < j → j < xs.size → (xs[j]?).any p = true → (xs[i]?).any p = true := by
    intro i j hij hj
    have hi : i < xs.size := by omega
    rw [Array.getElem?_eq_getElem hi, Array.getElem?_eq_getElem hj]
    exact List.pairwise_iff_getElem.1 h i j (by simpa using hi) (by simpa using hj) hij
  obtain ⟨hle, hbefore, hafter⟩ := boundary_spec hmono
  unfold partitionPoint
  exact eq_length_takeWhile (by simpa using hle) (by simpa using hbefore) (by simpa using hafter)

/-- What stands at the turning point is the first member that does not satisfy the predicate. -/
theorem getElem?_partitionPoint {α : Type} {p : α → Bool} {xs : Array α}
    (h : xs.toList.Pairwise fun a b => p b = true → p a = true) :
    xs[partitionPoint p xs]? = (xs.toList.filter fun a => !p a).head? := by
  rw [partitionPoint_eq_length h, ← (takeWhile_eq_filter h).2, ← Array.getElem?_toList]
  rw [← drop_length_takeWhile, List.head?_drop]

/-- Where a predicate turns from true to false, the first member decides whether there is one that
satisfies it. -/
theorem filter_head? {α : Type} {p : α → Bool} {l : List α}
    (h : l.Pairwise fun a b => p b = true → p a = true) :
    l.head?.filter p = (l.filter p).head? := by
  cases l with
  | nil => rfl
  | cons a l =>
      cases hp : p a with
      | true => simp [hp]
      | false =>
          have hnone : (a :: l).filter p = [] := by
            refine List.filter_eq_nil_iff.2 fun b hb => ?_
            rcases List.mem_cons.1 hb with rfl | hb
            · simp [hp]
            · intro hpb
              simp [(List.pairwise_cons.1 h).1 b hb hpb] at hp
          simp [hnone, hp]

theorem filter_getLast? {α : Type} {p : α → Bool} {l : List α}
    (h : l.Pairwise fun a b => p a = true → p b = true) :
    l.getLast?.filter p = (l.filter p).getLast? := by
  rw [← List.head?_reverse, ← List.head?_reverse, ← List.filter_reverse]
  exact filter_head? (List.pairwise_reverse.2 h)

/-- What stands before the turning point is the last member that satisfies the predicate. -/
theorem getElem?_pred_partitionPoint {α : Type} {p : α → Bool} {xs : Array α}
    (h : xs.toList.Pairwise fun a b => p b = true → p a = true) :
    (match partitionPoint p xs with
      | 0 => none
      | i + 1 => xs[i]?) = (xs.toList.filter p).getLast? := by
  rw [partitionPoint_eq_length h, ← (takeWhile_eq_filter h).1]
  have hsplit := List.takeWhile_append_dropWhile (p := p) (l := xs.toList)
  generalize xs.toList.takeWhile p = front at hsplit
  cases hlen : front.length with
  | zero => simp [List.length_eq_zero_iff.1 hlen]
  | succ i =>
      have hi : i < front.length := by omega
      dsimp only
      rw [← Array.getElem?_toList, ← hsplit, List.getElem?_append_left hi,
        List.getLast?_eq_getElem?, hlen, Nat.add_sub_cancel]

/-! ### Streams in order -/

/-- One token ends at or before the start of the other. -/
def Token.Precedes (a b : Token) : Prop := a.span.stop ≤ b.span.start

instance (a b : Token) : Decidable (a.Precedes b) := inferInstanceAs (Decidable (_ ≤ _))

/-- A stream of tokens that hold text, in order and apart. -/
structure InOrder (ts : List Token) : Prop where
  apart : ts.Pairwise Token.Precedes
  nonempty : ∀ t ∈ ts, t.span.start < t.span.stop

instance (ts : List Token) : Decidable (InOrder ts) :=
  decidable_of_iff (ts.Pairwise Token.Precedes ∧ ∀ t ∈ ts, t.span.start < t.span.stop)
    ⟨fun h => ⟨h.1, h.2⟩, fun h => ⟨h.apart, h.nonempty⟩⟩

namespace InOrder

variable {ts : List Token}

/-- Of two members of a stream, one precedes the other, or they are the same. -/
theorem trichotomy (h : InOrder ts) {a b : Token} (ha : a ∈ ts) (hb : b ∈ ts) :
    a.Precedes b ∨ a = b ∨ b.Precedes a := by
  obtain ⟨front, back, rfl⟩ := List.append_of_mem ha
  obtain ⟨-, hback, hfront⟩ := List.pairwise_append.1 h.apart
  rcases List.mem_append.1 hb with hb | hb
  · exact .inr (.inr (hfront b hb a (List.mem_cons_self ..)))
  · rcases List.mem_cons.1 hb with rfl | hb
    · exact .inr (.inl rfl)
    · exact .inl ((List.pairwise_cons.1 hback).1 b hb)

/-- Members with one place are the same. -/
theorem eq_of_span (h : InOrder ts) {a b : Token} (ha : a ∈ ts) (hb : b ∈ ts)
    (hspan : a.span = b.span) : a = b := by
  have hne := h.nonempty a ha
  rcases h.trichotomy ha hb with hab | rfl | hba
  · simp only [Token.Precedes, hspan] at hab hne
    omega
  · rfl
  · simp only [Token.Precedes, hspan] at hba hne
    omega

/-- A condition on where tokens end that later ends break is met by a front of the stream. -/
theorem pairwise_of_imp (h : InOrder ts) {p : Token → Bool}
    (hp : ∀ a b : Token, a.span.start ≤ b.span.start → a.span.stop ≤ b.span.stop →
      p b = true → p a = true) : ts.Pairwise fun a b => p b = true → p a = true := by
  refine h.apart.imp ?_
  intro a b hab
  have ha := a.span.start_le_stop
  have hb := b.span.start_le_stop
  have hab' : a.span.stop ≤ b.span.start := hab
  exact hp a b (by omega) (by omega)

theorem filter (h : InOrder ts) (p : Token → Bool) : InOrder (ts.filter p) where
  apart := h.apart.filter p
  nonempty := fun t ht => h.nonempty t (List.mem_filter.1 ht).1

/-- A member that starts before another one ends neither starts nor ends after it. -/
theorem le_of_start_lt_stop (h : InOrder ts) {a b : Token} (ha : a ∈ ts) (hb : b ∈ ts)
    (hlt : a.span.start < b.span.stop) :
    a.span.start ≤ b.span.start ∧ a.span.stop ≤ b.span.stop := by
  have hle := a.span.start_le_stop
  have hle' := b.span.start_le_stop
  rcases h.trichotomy ha hb with hab | rfl | hba
  · simp only [Token.Precedes] at hab
    omega
  · omega
  · simp only [Token.Precedes] at hba
    omega

/-- The first member precedes all others. -/
theorem head?_precedes (h : InOrder ts) {t u : Token} (ht : ts.head? = some t) (hu : u ∈ ts) :
    u = t ∨ t.Precedes u := by
  obtain ⟨back, rfl⟩ := List.head?_eq_some_iff.1 ht
  rcases List.mem_cons.1 hu with rfl | hu
  · exact .inl rfl
  · exact .inr ((List.pairwise_cons.1 h.apart).1 u hu)

/-- All other members precede the last. -/
theorem precedes_getLast? (h : InOrder ts) {t u : Token} (ht : ts.getLast? = some t)
    (hu : u ∈ ts) : u = t ∨ u.Precedes t := by
  obtain ⟨front, rfl⟩ := List.getLast?_eq_some_iff.1 ht
  rcases List.mem_append.1 hu with hu | hu
  · exact .inr ((List.pairwise_append.1 h.apart).2.2 u hu t (by simp))
  · exact .inl (List.mem_singleton.1 hu)

end InOrder

/-! ### Neighbours -/

namespace Source

variable {s : Source}

/-- The token before a span is the last of those that end in time. -/
theorem tokenBefore_eq (h : InOrder s.tokens.toList) (span : Span) :
    s.tokenBefore span = (s.tokens.toList.filter fun t => t.span.stop ≤ span.start).getLast? := by
  refine getElem?_pred_partitionPoint (h.pairwise_of_imp fun a b _ hstop hb => ?_)
  simp only [decide_eq_true_eq] at hb ⊢
  omega

/-- The token after a span is the first of those that start late enough. -/
theorem tokenAfter_eq (h : InOrder s.tokens.toList) (span : Span) :
    s.tokenAfter span = (s.tokens.toList.filter fun t => span.stop ≤ t.span.start).head? := by
  have hnot : (fun t : Token => !decide (t.span.start < span.stop)) =
      fun t => decide (span.stop ≤ t.span.start) := by
    funext t
    rw [Bool.eq_iff_iff]
    simp only [Bool.not_eq_true', decide_eq_false_iff_not, Nat.not_lt, decide_eq_true_eq]
  rw [← hnot]
  refine getElem?_partitionPoint (h.pairwise_of_imp fun a b hstart _ hb => ?_)
  simp only [decide_eq_true_eq] at hb ⊢
  omega

/-- The comments inside a span are all those that lie in it. -/
theorem commentsIn_eq (h : InOrder s.comments.toList) (span : Span) :
    s.commentsIn span = s.comments.toList.filter fun c => span.contains c.span := by
  have hstart : s.comments.toList.Pairwise fun a b =>
      (decide (b.span.start < span.start) = true → decide (a.span.start < span.start) = true) :=
    h.pairwise_of_imp fun a b hle _ hb => by
      simp only [decide_eq_true_eq] at hb ⊢
      omega
  have hstop : s.comments.toList.Pairwise fun a b =>
      (decide (b.span.start < span.stop) = true → decide (a.span.start < span.stop) = true) :=
    h.pairwise_of_imp fun a b hle _ hb => by
      simp only [decide_eq_true_eq] at hb ⊢
      omega
  rw [commentsIn, partitionPoint_eq_length hstart, drop_length_takeWhile,
    (takeWhile_eq_filter hstart).2,
    (takeWhile_eq_filter (hstop.filter fun c => !decide (c.span.start < span.start))).1,
    List.filter_filter, List.filter_filter]
  refine List.filter_congr fun c hc => ?_
  -- a comment that ends in time has started in time, as it holds text
  have hne := h.nonempty c hc
  rw [Bool.eq_iff_iff]
  simp only [Span.contains, Bool.and_eq_true, Bool.not_eq_true', decide_eq_true_eq,
    decide_eq_false_iff_not]
  omega

theorem mem_commentsIn (h : InOrder s.comments.toList) {span : Span} {c : Token} :
    c ∈ s.commentsIn span ↔
      c ∈ s.comments.toList ∧ span.start ≤ c.span.start ∧ c.span.stop ≤ span.stop := by
  rw [commentsIn_eq h, List.mem_filter, Span.contains_iff]

theorem hasCommentsIn_eq_false (h : InOrder s.comments.toList) {span : Span} :
    s.hasCommentsIn span = false ↔
      ∀ c ∈ s.comments.toList, ¬ (span.start ≤ c.span.start ∧ c.span.stop ≤ span.stop) := by
  rw [hasCommentsIn, commentsIn_eq h]
  simp [Span.contains]

/-! ### What was found is nearest -/

/-- The token before a span ends in time, and whatever else does precedes it. -/
theorem tokenBefore_eq_some (h : InOrder s.tokens.toList) {span : Span} {t : Token}
    (ht : s.tokenBefore span = some t) :
    t ∈ s.tokens.toList ∧ t.span.stop ≤ span.start ∧
      ∀ u ∈ s.tokens.toList, u.span.stop ≤ span.start → u = t ∨ u.Precedes t := by
  rw [tokenBefore_eq h] at ht
  obtain ⟨hin, hstop⟩ := List.mem_filter.1 (List.mem_of_mem_getLast? ht)
  refine ⟨hin, by simpa using hstop, fun u hu hle => ?_⟩
  exact (h.filter _).precedes_getLast? ht (List.mem_filter.2 ⟨hu, by simpa using hle⟩)

/-- The token after a span starts late enough, and precedes whatever else does. -/
theorem tokenAfter_eq_some (h : InOrder s.tokens.toList) {span : Span} {t : Token}
    (ht : s.tokenAfter span = some t) :
    t ∈ s.tokens.toList ∧ span.stop ≤ t.span.start ∧
      ∀ u ∈ s.tokens.toList, span.stop ≤ u.span.start → u = t ∨ t.Precedes u := by
  rw [tokenAfter_eq h] at ht
  obtain ⟨hin, hstart⟩ := List.mem_filter.1 (List.mem_of_mem_head? ht)
  refine ⟨hin, by simpa using hstart, fun u hu hle => ?_⟩
  exact (h.filter _).head?_precedes ht (List.mem_filter.2 ⟨hu, by simpa using hle⟩)

/-! ### The tokens of a span -/

/-- The code tokens inside a span. -/
def tokensIn (s : Source) (span : Span) : List Token :=
  s.tokens.toList.filter fun t => span.contains t.span

theorem mem_tokensIn {span : Span} {t : Token} :
    t ∈ s.tokensIn span ↔
      t ∈ s.tokens.toList ∧ span.start ≤ t.span.start ∧ t.span.stop ≤ span.stop := by
  rw [tokensIn, List.mem_filter, Span.contains_iff]

theorem tokensIn_inOrder (h : InOrder s.tokens.toList) (span : Span) : InOrder (s.tokensIn span) :=
  h.filter _

/-- Of the tokens inside a span, the second is the one after the first. -/
theorem tokenAfter_of_tokensIn (h : InOrder s.tokens.toList) {span : Span} {a b : Token}
    {rest : List Token} (hall : s.tokensIn span = a :: b :: rest) :
    s.tokenAfter a.span = some b := by
  have horder := tokensIn_inOrder h span
  have hb : b ∈ s.tokensIn span := by simp [hall]
  have ha : a ∈ s.tokensIn span := by simp [hall]
  obtain ⟨hbmem, -, hbstop⟩ := mem_tokensIn.1 hb
  obtain ⟨-, hastart, -⟩ := mem_tokensIn.1 ha
  rw [hall] at horder
  obtain ⟨hafter, hrest⟩ := List.pairwise_cons.1 horder.apart
  have hab : a.span.stop ≤ b.span.start := hafter b (by simp)
  obtain ⟨t, ht⟩ : ∃ t, s.tokenAfter a.span = some t := by
    rw [tokenAfter_eq h]
    exact ⟨_, List.head?_eq_some_head
      (List.ne_nil_of_mem (List.mem_filter.2 ⟨hbmem, by simpa using hab⟩))⟩
  obtain ⟨htmem, hlate, hnearest⟩ := tokenAfter_eq_some h ht
  rw [ht]
  rcases hnearest b hbmem hab with rfl | hbefore
  · rfl
  · -- a token between the two would be one of those inside the span
    have hle := a.span.start_le_stop
    have hle' := b.span.start_le_stop
    have hne := h.nonempty t htmem
    simp only [Token.Precedes] at hbefore
    have hin : t ∈ s.tokensIn span := mem_tokensIn.2 ⟨htmem, by omega, by omega⟩
    rw [hall, List.mem_cons, List.mem_cons] at hin
    rcases hin with rfl | rfl | hin
    · omega
    · rfl
    · have hfar : b.span.stop ≤ t.span.start := (List.pairwise_cons.1 hrest).1 t hin
      omega

/-- The first token of a span is the first of those inside it. -/
theorem firstToken_eq (h : InOrder s.tokens.toList) (span : Span) :
    s.firstToken span = (s.tokensIn span).head? := by
  have hstop : (s.tokens.toList.filter fun t => span.start ≤ t.span.start).Pairwise fun a b =>
      (decide (b.span.stop ≤ span.stop) = true → decide (a.span.stop ≤ span.stop) = true) :=
    (h.filter _).pairwise_of_imp fun a b _ hle hb => by
      simp only [decide_eq_true_eq] at hb ⊢
      omega
  rw [firstToken, tokenAfter_eq h, Span.stop_point, filter_head? hstop, List.filter_filter,
    tokensIn]
  simp only [Span.contains, Bool.and_comm]

/-- The last token of a span is the last of those inside it. -/
theorem lastToken_eq (h : InOrder s.tokens.toList) (span : Span) :
    s.lastToken span = (s.tokensIn span).getLast? := by
  have hstart : (s.tokens.toList.filter fun t => t.span.stop ≤ span.stop).Pairwise fun a b =>
      (decide (span.start ≤ a.span.start) = true → decide (span.start ≤ b.span.start) = true) := by
    refine (h.filter _).apart.imp ?_
    intro a b hab ha
    have := a.span.start_le_stop
    simp only [Token.Precedes, decide_eq_true_eq] at hab ha ⊢
    omega
  rw [lastToken, tokenBefore_eq h, Span.start_point, filter_getLast? hstart, List.filter_filter,
    tokensIn]
  simp only [Span.contains]

end Source

end Pare