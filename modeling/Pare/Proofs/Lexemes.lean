import Mathlib.Algebra.GroupWithZero.Nat
import Pare.Proofs.Boundary
import Pare.Proofs.Lookup

/-!
**A text as its lexemes with gaps between them.**

The tokens and comments of a source, taken together in order, are its lexemes.  Where they hold
text, are apart and have the text of their places, the text of the source is the sequence of its
lexemes with gaps before, between and after them, and so is every piece of it that cuts no lexeme in
two.  This is what edits are measured by: an edit is harmless when the text after it is the sequence
of the lexemes that should be there, with nothing but blanks and what stood in gaps before.

Main definitions:

* `Pare.Scattered` — tokens that hold text and are apart, in whatever order they are given;
* `Pare.Source.WellFormed` — tokens and comments hold text, are apart, and have the text of their
  places;
* `Pare.Source.lexemes`, `Pare.Source.lexemesIn` — tokens and comments in order, and those between
  two offsets;
* `Pare.Source.Joint` — an offset at which the text can be cut and no lexeme is cut in two;
* `Pare.Word` — what a lexeme is, apart from its place;
* `Pare.Laid` — a text that is a sequence of words with gaps;
* `Pare.Source.Gap` — a character that may stand in a gap.

Main results:

* `Pare.Source.WellFormed.lexemesIn_append`, `Pare.Source.WellFormed.lexemesIn_self` — the lexemes
  of a piece of text that is cut at joints;
* `Pare.Source.WellFormed.tokensBetween_eq` — what lies between two tokens, as lexemes;
* `Pare.Laid.append`, `Pare.Laid.trim` — what is laid out stays so when it is joined or trimmed;
* `Pare.Source.WellFormed.laid_slice` — **a piece between joints is its lexemes with gaps**.
-/

set_option relaxedAutoImplicit false
set_option autoImplicit false

namespace Pare

open Text (IsBoundary)

/-! ### Pieces of a stream -/

/-- A stream that is cut where no member is cut in two. -/
theorem InOrder.between_append {ts : List Token} (h : InOrder ts) {a b c : Nat} (hab : a ≤ b)
    (hbc : b ≤ c) (hseam : ∀ t ∈ ts, b ≤ t.span.start ∨ t.span.stop ≤ b) :
    (ts.filter fun t => a ≤ t.span.start && t.span.stop ≤ c) =
      (ts.filter fun t => a ≤ t.span.start && t.span.stop ≤ b) ++
        ts.filter fun t => b ≤ t.span.start && t.span.stop ≤ c := by
  induction ts with
  | nil => rfl
  | cons t ts ih =>
      obtain ⟨hfirst, hrest⟩ := List.pairwise_cons.1 h.apart
      have hne := h.nonempty t (List.mem_cons_self ..)
      have hlater : ∀ u ∈ ts, t.span.stop ≤ u.span.start ∧ u.span.start < u.span.stop :=
        fun u hu => ⟨hfirst u hu, h.nonempty u (List.mem_cons_of_mem t hu)⟩
      rcases hseam t (List.mem_cons_self ..) with hafter | hbefore
      · -- from here on nothing ends by the seam
        have hnone : (t :: ts).filter (fun u => a ≤ u.span.start && u.span.stop ≤ b) = [] := by
          refine List.filter_eq_nil_iff.2 fun u hu => ?_
          simp only [Bool.and_eq_true, decide_eq_true_eq, not_and, Nat.not_le]
          rcases List.mem_cons.1 hu with rfl | hu
          · omega
          · have := hlater u hu
            omega
        rw [hnone, List.nil_append]
        refine List.filter_congr fun u hu => ?_
        rw [Bool.eq_iff_iff]
        simp only [Bool.and_eq_true, decide_eq_true_eq]
        rcases List.mem_cons.1 hu with rfl | hu
        · omega
        · have := hlater u hu
          omega
      · have hright : (decide (b ≤ t.span.start) && decide (t.span.stop ≤ c)) = false := by
          simp only [Bool.and_eq_false_iff, decide_eq_false_iff_not]
          omega
        have hsame : (decide (a ≤ t.span.start) && decide (t.span.stop ≤ c)) =
            (decide (a ≤ t.span.start) && decide (t.span.stop ≤ b)) := by
          rw [Bool.eq_iff_iff]
          simp only [Bool.and_eq_true, decide_eq_true_eq]
          omega
        have hagain := ih ⟨hrest, fun u hu => (hlater u hu).2⟩ fun u hu =>
          hseam u (List.mem_cons_of_mem t hu)
        simp only [List.filter_cons, hright, hsame, hagain]
        split <;> simp

/-- A stream with one member. -/
theorem InOrder.eq_singleton {ts : List Token} (h : InOrder ts) {t : Token} (ht : t ∈ ts)
    (hall : ∀ u ∈ ts, u = t) : ts = [t] := by
  have hself : ¬ t.Precedes t := Nat.not_le.2 (h.nonempty t ht)
  obtain ⟨front, back, rfl⟩ := List.append_of_mem ht
  obtain ⟨-, hback, hfront⟩ := List.pairwise_append.1 h.apart
  cases front with
  | cons u front =>
      obtain rfl : u = t := hall u (by simp)
      exact absurd (hfront u (by simp) u (by simp)) hself
  | nil =>
      cases back with
      | nil => rfl
      | cons u back =>
          obtain rfl : u = t := hall u (by simp)
          exact absurd ((List.pairwise_cons.1 hback).1 u (by simp)) hself

/-- Streams in order are equal if one is a reordering of the other. -/
theorem InOrder.eq_of_perm {ts us : List Token} (h : InOrder ts) (h' : InOrder us)
    (hperm : ts.Perm us) : ts = us := by
  refine List.Perm.eq_of_pairwise ?_ h.apart h'.apart hperm
  intro a b ha _ hab hba
  have hne := h.nonempty a ha
  have hle := b.span.start_le_stop
  simp only [Token.Precedes] at hab hba
  omega

/-- No member of a stream comes twice. -/
theorem InOrder.nodup {ts : List Token} (h : InOrder ts) : ts.Nodup := by
  refine h.apart.imp_of_mem fun {a b} ha _ hab heq => ?_
  have hlt := h.nonempty a ha
  simp only [heq, Token.Precedes] at hab hlt
  omega

/-- Streams in order with the same members are equal. -/
theorem InOrder.eq_of_mem_iff {ts us : List Token} (h : InOrder ts) (h' : InOrder us)
    (hmem : ∀ t, t ∈ ts ↔ t ∈ us) : ts = us :=
  h.eq_of_perm h' ((List.perm_ext_iff_of_nodup h.nodup h'.nodup).2 hmem)

/-- A token that all others precede goes to the end. -/
theorem InOrder.concat {ts : List Token} (h : InOrder ts) {t : Token}
    (hne : t.span.start < t.span.stop) (hlast : ∀ u ∈ ts, u.Precedes t) : InOrder (ts ++ [t]) := by
  constructor
  · refine List.pairwise_append.2 ⟨h.apart, List.pairwise_singleton .., ?_⟩
    intro u hu v hv
    obtain rfl := List.mem_singleton.1 hv
    exact hlast u hu
  · intro u hu
    rcases List.mem_append.1 hu with hu | hu
    · exact h.nonempty u hu
    · obtain rfl := List.mem_singleton.1 hu
      exact hne

/-- Tokens that hold text and are apart, in whatever order they are given. -/
structure Scattered (ts : List Token) : Prop where
  apart : ts.Pairwise fun a b => a.Precedes b ∨ b.Precedes a
  nonempty : ∀ t ∈ ts, t.span.start < t.span.stop

instance (ts : List Token) : Decidable (Scattered ts) :=
  decidable_of_iff ((ts.Pairwise fun a b => a.Precedes b ∨ b.Precedes a) ∧
      ∀ t ∈ ts, t.span.start < t.span.stop)
    ⟨fun h => ⟨h.1, h.2⟩, fun h => ⟨h.apart, h.nonempty⟩⟩

/-- Tokens that are apart are put in order by where they start. -/
theorem Scattered.mergeSort {ts : List Token} (h : Scattered ts) :
    InOrder (ts.mergeSort Token.startsBy) := by
  have hne : ∀ t ∈ ts.mergeSort Token.startsBy, t.span.start < t.span.stop :=
    fun t ht => h.nonempty t (List.mem_mergeSort.1 ht)
  have hapart : (ts.mergeSort Token.startsBy).Pairwise fun a b => a.Precedes b ∨ b.Precedes a :=
    h.apart.perm (List.mergeSort_perm _ _).symm fun hab => hab.symm
  have hsorted : (ts.mergeSort Token.startsBy).Pairwise fun a b => a.startsBy b = true := by
    refine List.pairwise_mergeSort ?_ ?_ _
    · intro a b c hab hbc
      simp only [Token.startsBy, decide_eq_true_eq] at hab hbc ⊢
      omega
    · intro a b
      simp only [Token.startsBy, Bool.or_eq_true, decide_eq_true_eq]
      omega
  -- of two members that are apart, the one that starts first precedes the other
  refine ⟨(hapart.and hsorted).imp_of_mem ?_, hne⟩
  intro a b _ hb hab
  obtain ⟨hab | hba, hle⟩ := hab
  · exact hab
  · have hlt := hne b hb
    simp only [Token.startsBy, decide_eq_true_eq] at hle
    simp only [Token.Precedes] at hba ⊢
    omega

/-- Two streams that are apart from each other are merged by where their members start. -/
theorem InOrder.merge {ts cs : List Token} (h : InOrder ts) (h' : InOrder cs)
    (hdisjoint : ∀ t ∈ ts, ∀ c ∈ cs, t.Precedes c ∨ c.Precedes t) :
    InOrder ((ts ++ cs).mergeSort Token.startsBy) := by
  refine Scattered.mergeSort ⟨?_, List.forall_mem_append.2 ⟨h.nonempty, h'.nonempty⟩⟩
  exact List.pairwise_append.2 ⟨h.apart.imp .inl, h'.apart.imp .inl, hdisjoint⟩

/-! ### Well-formed sources -/

/-- Tokens and comments hold text, are in order and apart, and have the text of their places. -/
structure Source.WellFormed (s : Source) : Prop where
  tokens : InOrder s.tokens.toList
  comments : InOrder s.comments.toList
  disjoint : ∀ t ∈ s.tokens.toList, ∀ c ∈ s.comments.toList, t.Precedes c ∨ c.Precedes t
  spelled : ∀ t ∈ s.tokens.toList ++ s.comments.toList,
    Text.cut? s.text.toList t.span.start t.span.stop = some t.value.toList
  isCode : ∀ t ∈ s.tokens.toList, t.isComment = false
  isComment : ∀ c ∈ s.comments.toList, c.isComment = true

instance (s : Source) : Decidable s.WellFormed :=
  decidable_of_iff (InOrder s.tokens.toList ∧ InOrder s.comments.toList ∧
      (∀ t ∈ s.tokens.toList, ∀ c ∈ s.comments.toList, t.Precedes c ∨ c.Precedes t) ∧
      (∀ t ∈ s.tokens.toList ++ s.comments.toList,
        Text.cut? s.text.toList t.span.start t.span.stop = some t.value.toList) ∧
      (∀ t ∈ s.tokens.toList, t.isComment = false) ∧ ∀ c ∈ s.comments.toList, c.isComment = true)
    ⟨fun ⟨h₁, h₂, h₃, h₄, h₅, h₆⟩ => ⟨h₁, h₂, h₃, h₄, h₅, h₆⟩,
      fun h => ⟨h.tokens, h.comments, h.disjoint, h.spelled, h.isCode, h.isComment⟩⟩

/-- The tokens and comments of a source in order. -/
def Source.lexemes (s : Source) : List Token :=
  (s.tokens.toList ++ s.comments.toList).mergeSort Token.startsBy

/-- The lexemes between two offsets. -/
def Source.lexemesIn (s : Source) (a b : Nat) : List Token :=
  s.lexemes.filter fun t => a ≤ t.span.start && t.span.stop ≤ b

/-- An offset at which the text can be cut and no lexeme is cut in two. -/
structure Source.Joint (s : Source) (n : Nat) : Prop where
  boundary : IsBoundary s.text.toList n
  seam : ∀ t ∈ s.lexemes, n ≤ t.span.start ∨ t.span.stop ≤ n

namespace Source

variable {s : Source}

theorem mem_lexemes {t : Token} :
    t ∈ s.lexemes ↔ t ∈ s.tokens.toList ∨ t ∈ s.comments.toList := by
  rw [lexemes, List.mem_mergeSort, List.mem_append]

theorem mem_lexemes_of_token {t : Token} (h : t ∈ s.tokens.toList) : t ∈ s.lexemes :=
  mem_lexemes.2 (.inl h)

theorem mem_lexemesIn {a b : Nat} {t : Token} :
    t ∈ s.lexemesIn a b ↔ t ∈ s.lexemes ∧ a ≤ t.span.start ∧ t.span.stop ≤ b := by
  simp [lexemesIn, List.mem_filter]

/-- What lies between two tokens comes in order, code tokens and comments together. -/
theorem tokensBetween_inOrder (h : InOrder s.tokens.toList) (h' : InOrder s.comments.toList)
    (hdisjoint : ∀ t ∈ s.tokens.toList, ∀ c ∈ s.comments.toList, t.Precedes c ∨ c.Precedes t)
    (a b : Token) : InOrder (s.tokensBetween a b true) := by
  simp only [tokensBetween, if_true, commentsIn_eq h']
  refine (h.filter _).merge (h'.filter _) fun t ht c hc => ?_
  exact hdisjoint t (List.mem_filter.1 ht).1 c (List.mem_filter.1 hc).1

namespace WellFormed

theorem nonempty (h : s.WellFormed) {t : Token} (ht : t ∈ s.lexemes) :
    t.span.start < t.span.stop := by
  rcases mem_lexemes.1 ht with ht | ht
  · exact h.tokens.nonempty t ht
  · exact h.comments.nonempty t ht

theorem cut?_lexeme (h : s.WellFormed) {t : Token} (ht : t ∈ s.lexemes) :
    Text.cut? s.text.toList t.span.start t.span.stop = some t.value.toList :=
  h.spelled t (List.mem_append.2 (mem_lexemes.1 ht))

/-- A lexeme stands at its place. -/
theorem slice_lexeme (h : s.WellFormed) {t : Token} (ht : t ∈ s.lexemes) :
    Text.slice s.text.toList t.span.start t.span.stop = t.value.toList :=
  Text.slice_of_cut? (h.cut?_lexeme ht)

/-- The lexemes of a source are in order and apart. -/
theorem lexemes_inOrder (h : s.WellFormed) : InOrder s.lexemes :=
  h.tokens.merge h.comments h.disjoint

theorem lexemesIn_inOrder (h : s.WellFormed) (a b : Nat) : InOrder (s.lexemesIn a b) :=
  h.lexemes_inOrder.filter _

/-- Without comments the lexemes are the tokens. -/
theorem lexemes_eq_tokens (h : s.WellFormed) (hnone : s.comments.toList = []) :
    s.lexemes = s.tokens.toList := by
  refine h.lexemes_inOrder.eq_of_perm h.tokens ?_
  rw [lexemes, hnone, List.append_nil]
  exact List.mergeSort_perm _ _

/-- What lies between two tokens are the lexemes there. -/
theorem tokensBetween_eq (h : s.WellFormed) {a b : Token} (hab : a.span.stop ≤ b.span.start) :
    s.tokensBetween a b true = s.lexemesIn a.span.stop b.span.start := by
  have hgap : (fun t : Token => (Span.upTo a.span.stop b.span.start).contains t.span) =
      fun t => decide (a.span.stop ≤ t.span.start) && decide (t.span.stop ≤ b.span.start) := by
    funext t
    rw [Bool.eq_iff_iff, Span.contains_iff]
    simp [Nat.max_eq_right hab]
  refine (tokensBetween_inOrder h.tokens h.comments h.disjoint a b).eq_of_perm
    (h.lexemesIn_inOrder _ _) ?_
  simp only [tokensBetween, if_true, commentsIn_eq h.comments, hgap, lexemesIn, lexemes,
    ← List.filter_append]
  exact (List.mergeSort_perm _ _).trans ((List.mergeSort_perm _ _).filter _).symm

/-! ### Joints -/

/-- A lexeme starts at a joint. -/
theorem joint_start (h : s.WellFormed) {t : Token} (ht : t ∈ s.lexemes) :
    s.Joint t.span.start where
  boundary := (Text.isBoundary_of_cut? (h.cut?_lexeme ht)).1
  seam := by
    intro u hu
    have hne := t.span.start_le_stop
    rcases h.lexemes_inOrder.trichotomy ht hu with htu | rfl | hut
    · exact .inl (Nat.le_trans hne htu)
    · exact .inl (Nat.le_refl _)
    · exact .inr hut

/-- A lexeme ends at a joint. -/
theorem joint_stop (h : s.WellFormed) {t : Token} (ht : t ∈ s.lexemes) :
    s.Joint t.span.stop where
  boundary := (Text.isBoundary_of_cut? (h.cut?_lexeme ht)).2.1
  seam := by
    intro u hu
    have hne := t.span.start_le_stop
    rcases h.lexemes_inOrder.trichotomy ht hu with htu | rfl | hut
    · exact .inl htu
    · exact .inr (Nat.le_refl _)
    · exact .inr (Nat.le_trans hut hne)

theorem joint_zero (s : Source) : s.Joint 0 where
  boundary := Text.isBoundary_zero _
  seam := fun _ _ => .inl (Nat.zero_le _)

theorem joint_byteSize (h : s.WellFormed) : s.Joint (Text.byteSize s.text.toList) where
  boundary := Text.isBoundary_byteSize _
  seam := fun _ ht => .inr (h.joint_stop ht).boundary.le_byteSize

/-- The lexemes of a piece that is cut at a joint. -/
theorem lexemesIn_append (h : s.WellFormed) {a b c : Nat} (hb : s.Joint b) (hab : a ≤ b)
    (hbc : b ≤ c) : s.lexemesIn a c = s.lexemesIn a b ++ s.lexemesIn b c :=
  h.lexemes_inOrder.between_append hab hbc hb.seam

/-- All lexemes lie between the ends of the text. -/
theorem lexemesIn_whole (h : s.WellFormed) :
    s.lexemesIn 0 (Text.byteSize s.text.toList) = s.lexemes := by
  refine List.filter_eq_self.2 fun t ht => ?_
  simpa using (h.joint_stop ht).boundary.le_byteSize

/-- A piece in which only one lexeme lies. -/
theorem lexemesIn_eq_singleton (h : s.WellFormed) {a b : Nat} {t : Token} (ht : t ∈ s.lexemes)
    (ha : a ≤ t.span.start) (hb : t.span.stop ≤ b)
    (hall : ∀ u ∈ s.lexemes, a ≤ u.span.start → u.span.stop ≤ b → u = t) :
    s.lexemesIn a b = [t] := by
  refine (h.lexemesIn_inOrder a b).eq_singleton (mem_lexemesIn.2 ⟨ht, ha, hb⟩) ?_
  intro u hu
  obtain ⟨hu, hau, hub⟩ := mem_lexemesIn.1 hu
  exact hall u hu hau hub

/-- The place of a lexeme holds the lexeme. -/
theorem lexemesIn_self (h : s.WellFormed) {t : Token} (ht : t ∈ s.lexemes) :
    s.lexemesIn t.span.start t.span.stop = [t] := by
  refine h.lexemesIn_eq_singleton ht (Nat.le_refl _) (Nat.le_refl _) ?_
  intro u hu hstart hstop
  have hne := h.nonempty hu
  rcases h.lexemes_inOrder.trichotomy ht hu with htu | rfl | hut
  · simp only [Token.Precedes] at htu
    omega
  · rfl
  · simp only [Token.Precedes] at hut
    omega

/-- A piece is cut in three by each lexeme in it. -/
theorem lexemesIn_split (h : s.WellFormed) {a b : Nat} {t : Token} (ht : t ∈ s.lexemes)
    (ha : a ≤ t.span.start) (hb : t.span.stop ≤ b) :
    s.lexemesIn a b = s.lexemesIn a t.span.start ++ t :: s.lexemesIn t.span.stop b := by
  have hle := t.span.start_le_stop
  rw [h.lexemesIn_append (h.joint_start ht) ha (by omega),
    h.lexemesIn_append (h.joint_stop ht) hle hb, h.lexemesIn_self ht]
  rfl

/-- An empty piece holds no lexeme. -/
theorem lexemesIn_point (h : s.WellFormed) (a : Nat) : s.lexemesIn a a = [] := by
  refine List.eq_nil_iff_forall_not_mem.2 fun t ht => ?_
  obtain ⟨ht, hstart, hstop⟩ := mem_lexemesIn.1 ht
  have := h.nonempty ht
  omega

/-- Before the first lexeme of a piece there is none, and after it are the others. -/
theorem lexemesIn_cons (h : s.WellFormed) {a b : Nat} {t : Token} {rest : List Token}
    (hall : s.lexemesIn a b = t :: rest) :
    t ∈ s.lexemes ∧ a ≤ t.span.start ∧ t.span.stop ≤ b ∧ s.lexemesIn a t.span.start = [] ∧
      s.lexemesIn t.span.stop b = rest := by
  have hmem : t ∈ s.lexemesIn a b := by simp [hall]
  obtain ⟨ht, hstart, hstop⟩ := mem_lexemesIn.1 hmem
  have hsplit := h.lexemesIn_split ht hstart hstop
  rw [hall] at hsplit
  cases hbefore : s.lexemesIn a t.span.start with
  | nil =>
      rw [hbefore] at hsplit
      exact ⟨ht, hstart, hstop, rfl, (List.cons.inj hsplit).2.symm⟩
  | cons u more =>
      have hu : u ∈ s.lexemesIn a t.span.start := by simp [hbefore]
      rw [hbefore] at hsplit
      obtain rfl : t = u := (List.cons.inj hsplit).1
      have hne := h.nonempty ht
      have hle := (mem_lexemesIn.1 hu).2.2
      omega

/-! ### Gaps -/

/-- Nothing follows the last lexeme of a piece. -/
theorem lexemesIn_after_getLast? (h : s.WellFormed) {a b : Nat} {t : Token}
    (ht : (s.lexemesIn a b).getLast? = some t) : s.lexemesIn t.span.stop b = [] := by
  obtain ⟨hmem, hstart, -⟩ := mem_lexemesIn.1 (List.mem_of_mem_getLast? ht)
  have hne := h.nonempty hmem
  refine List.eq_nil_iff_forall_not_mem.2 fun u hu => ?_
  obtain ⟨hu, hafter, hstop⟩ := mem_lexemesIn.1 hu
  have hne' := h.nonempty hu
  rcases (h.lexemesIn_inOrder a b).precedes_getLast? ht
    (mem_lexemesIn.2 ⟨hu, by omega, hstop⟩) with rfl | hbefore
  · omega
  · simp only [Token.Precedes] at hbefore
    omega

/-- A piece with neither tokens nor comments in it. -/
theorem lexemesIn_eq_nil (h : s.WellFormed) {a b : Nat} {region : Span}
    (hfree : s.hasCommentsIn region = false) (hstart : region.start ≤ a) (hstop : b ≤ region.stop)
    (htokens : ∀ t ∈ s.tokens.toList, a ≤ t.span.start → ¬ t.span.stop ≤ b) :
    s.lexemesIn a b = [] := by
  refine List.eq_nil_iff_forall_not_mem.2 fun t ht => ?_
  obtain ⟨ht, hat, htb⟩ := mem_lexemesIn.1 ht
  rcases mem_lexemes.1 ht with ht | ht
  · exact htokens t ht hat htb
  · exact (hasCommentsIn_eq_false h.comments).1 hfree t ht ⟨by omega, by omega⟩

/-- The gap between a span and the token before it. -/
theorem lexemesIn_before (h : s.WellFormed) {span region : Span} {t : Token}
    (ht : s.tokenBefore span = some t) (hfree : s.hasCommentsIn region = false)
    (hstart : region.start ≤ t.span.stop) (hstop : span.start ≤ region.stop) :
    s.lexemesIn t.span.stop span.start = [] := by
  obtain ⟨hmem, -, hnearest⟩ := tokenBefore_eq_some h.tokens ht
  refine h.lexemesIn_eq_nil hfree hstart hstop fun u hu hlate htime => ?_
  have hle := t.span.start_le_stop
  have hne := h.tokens.nonempty u hu
  rcases hnearest u hu htime with rfl | hut
  · omega
  · simp only [Token.Precedes] at hut
    omega

/-- The gap between a span and the token after it. -/
theorem lexemesIn_after (h : s.WellFormed) {span region : Span} {t : Token}
    (ht : s.tokenAfter span = some t) (hfree : s.hasCommentsIn region = false)
    (hstart : region.start ≤ span.stop) (hstop : t.span.start ≤ region.stop) :
    s.lexemesIn span.stop t.span.start = [] := by
  obtain ⟨hmem, -, hnearest⟩ := tokenAfter_eq_some h.tokens ht
  refine h.lexemesIn_eq_nil hfree hstart hstop fun u hu hlate htime => ?_
  have hle := t.span.start_le_stop
  have hne := h.tokens.nonempty u hu
  rcases hnearest u hu hlate with rfl | htu
  · omega
  · simp only [Token.Precedes] at htu
    omega

end WellFormed

end Source

/-! ### Words with gaps -/

/-- What a lexeme is, apart from its place. -/
structure Word where
  kind : Token.Kind
  text : String
deriving DecidableEq, Repr

/-- What a token is, apart from its place. -/
def Token.word (t : Token) : Word := ⟨t.kind, t.value⟩

/-- A text that is a sequence of words with gaps before, between and after them, whose characters
all satisfy `G`. -/
inductive Laid (G : Char → Prop) : List String → List Char → Prop
  | nil {gap : List Char} (h : ∀ c ∈ gap, G c) : Laid G [] gap
  | cons {gap : List Char} {word : String} {words : List String} {rest : List Char}
      (h : ∀ c ∈ gap, G c) (hrest : Laid G words rest) :
      Laid G (word :: words) (gap ++ word.toList ++ rest)

namespace Laid

variable {G : Char → Prop} {words : List String} {cs : List Char}

/-- A gap may grow at the front. -/
theorem gap_append {gap : List Char} (hgap : ∀ c ∈ gap, G c) (h : Laid G words cs) :
    Laid G words (gap ++ cs) := by
  cases h with
  | nil hmore => exact .nil (List.forall_mem_append.2 ⟨hgap, hmore⟩)
  | cons hmore hrest =>
      rw [← List.append_assoc, ← List.append_assoc]
      exact .cons (List.forall_mem_append.2 ⟨hgap, hmore⟩) hrest

/-- What is laid out can be joined. -/
theorem append {more : List String} {ds : List Char} (h : Laid G words cs) (h' : Laid G more ds) :
    Laid G (words ++ more) (cs ++ ds) := by
  induction h with
  | nil hgap => exact h'.gap_append hgap
  | cons hgap _ ih =>
      rw [List.append_assoc]
      exact .cons hgap ih

/-- A word is laid out by itself. -/
theorem word (w : String) : Laid G [w] w.toList := by
  have h : Laid G [w] ([] ++ w.toList ++ []) := .cons (by simp) (.nil (by simp))
  simpa using h

/-- What is laid out can be taken apart at its last word. -/
theorem concat_iff {w : String} :
    Laid G (words ++ [w]) cs ↔ ∃ front gap, cs = front ++ w.toList ++ gap ∧
      Laid G words front ∧ ∀ c ∈ gap, G c := by
  constructor
  · intro h
    generalize hall : words ++ [w] = all at h
    induction h generalizing words with
    | nil _ => simp at hall
    | @cons gap v rest ds hgap hrest ih =>
        cases words with
        | nil =>
            simp only [List.nil_append, List.cons.injEq] at hall
            obtain ⟨rfl, rfl⟩ := hall
            cases hrest with
            | nil hlast => exact ⟨gap, ds, rfl, .nil hgap, hlast⟩
        | cons u words =>
            simp only [List.cons_append, List.cons.injEq] at hall
            obtain ⟨rfl, hall⟩ := hall
            obtain ⟨front, last, rfl, hfront, hlast⟩ := ih hall
            exact ⟨gap ++ u.toList ++ front, last, by simp, .cons hgap hfront, hlast⟩
  · rintro ⟨front, gap, rfl, hfront, hgap⟩
    have h := (hfront.append (word w)).append (Laid.nil hgap)
    simpa using h

/-- Dropping characters at the front that the first word does not start with. -/
theorem dropWhile {p : Char → Bool} (h : Laid G words cs)
    (hfirst : ∀ w ∈ words.head?, ∃ c, w.toList.head? = some c ∧ p c = false) :
    Laid G words (cs.dropWhile p) := by
  cases h with
  | nil hgap => exact .nil fun c hc => hgap c ((List.dropWhile_suffix p).subset hc)
  | @cons gap w words rest hgap hrest =>
      obtain ⟨c, hc, hpc⟩ := hfirst w rfl
      obtain ⟨tail, htail⟩ := List.head?_eq_some_iff.1 hc
      have hstays : (w.toList ++ rest).dropWhile p = w.toList ++ rest := by
        simp [htail, hpc]
      rw [List.append_assoc, List.dropWhile_append, hstays]
      split
      · exact (word w).append hrest
      · rw [← List.append_assoc]
        exact .cons (fun c hc => hgap c ((List.dropWhile_suffix p).subset hc)) hrest

/-- Trimming keeps words that neither start nor end with a blank. -/
theorem trim (h : Laid G words cs)
    (hfirst : ∀ w ∈ words.head?, ∃ c, w.toList.head? = some c ∧ Text.isBlank c = false)
    (hlast : ∀ w ∈ words.getLast?, ∃ c, w.toList.getLast? = some c ∧ Text.isBlank c = false) :
    Laid G words (Text.trim cs) := by
  have hfront := h.dropWhile hfirst
  rw [Text.trim]
  generalize cs.dropWhile Text.isBlank = ds at hfront
  -- from the back, the last word stops the trimming, if there is one
  rcases List.eq_nil_or_concat words with rfl | ⟨words, w, rfl⟩
  · cases hfront with
    | nil hgap =>
        refine .nil fun c hc => hgap c ?_
        rw [List.mem_reverse] at hc
        simpa using (List.dropWhile_suffix Text.isBlank).subset hc
  · rw [List.concat_eq_append] at hfront hlast ⊢
    obtain ⟨front, gap, rfl, hwords, hgap⟩ := concat_iff.1 hfront
    obtain ⟨c, hc, hblank⟩ := hlast w (by simp)
    obtain ⟨init, hinit⟩ := List.getLast?_eq_some_iff.1 hc
    have hstays : (w.toList.reverse ++ front.reverse).dropWhile Text.isBlank =
        w.toList.reverse ++ front.reverse := by
      simp [hinit, hblank]
    rw [List.reverse_append, List.reverse_append, List.dropWhile_append, hstays]
    split
    · refine concat_iff.2 ⟨front, [], ?_, hwords, by simp⟩
      simp
    · refine concat_iff.2 ⟨front, (gap.reverse.dropWhile Text.isBlank).reverse, ?_, hwords, ?_⟩
      · simp
      · intro c hc
        rw [List.mem_reverse] at hc
        exact hgap c (by simpa using (List.dropWhile_suffix Text.isBlank).subset hc)

/-- Every character of a word is in the text. -/
theorem mem_of_mem_word {w : String} {c : Char} (h : Laid G words cs) (hw : w ∈ words)
    (hc : c ∈ w.toList) : c ∈ cs := by
  induction h with
  | nil _ => simp at hw
  | cons _ _ ih =>
      rcases List.mem_cons.1 hw with rfl | hw
      · simp [hc]
      · simp [ih hw]

/-- A text holds at least what its words hold of characters that are not blank. -/
theorem sum_ink_le (h : Laid G words cs) :
    (words.map fun w => Text.ink w.toList).sum ≤ Text.ink cs := by
  induction h with
  | nil _ => simp
  | cons _ _ ih =>
      simp only [List.map_cons, List.sum_cons, Text.ink_append]
      omega

end Laid

/-! ### The text of a source -/

namespace Source

/-- A character of the text that lies outside all lexemes. -/
def Outside (s : Source) (c : Char) : Prop :=
  ∃ front back, s.text.toList = front ++ c :: back ∧
    ∀ t ∈ s.lexemes, Text.byteSize front < t.span.start ∨ t.span.stop ≤ Text.byteSize front

/-- A character that may stand in a gap: an inserted space, or one that lies outside all lexemes. -/
def Gap (s : Source) (c : Char) : Prop := c = ' ' ∨ s.Outside c

variable {s : Source}

/-- Where no lexeme lies between two joints, all that stands there is outside of lexemes. -/
theorem gap_of_mem_slice {a b : Nat} (ha : s.Joint a) (hb : s.Joint b)
    (hnone : s.lexemesIn a b = []) {c : Char} (hc : c ∈ Text.slice s.text.toList a b) :
    s.Gap c := by
  obtain ⟨front, back, htext, hle, hlt⟩ := Text.exists_offset_of_mem_slice hc
  refine .inr ⟨front, back, htext, fun t ht => ?_⟩
  have hout : ¬ (a ≤ t.span.start ∧ t.span.stop ≤ b) := by
    intro hin
    have : t ∈ s.lexemesIn a b := mem_lexemesIn.2 ⟨ht, hin⟩
    simp [hnone] at this
  have hta := ha.seam t ht
  have htb := hb.seam t ht
  omega

/-- The first lexeme of a piece between joints cuts the piece in three: what stands before it, the
lexeme, and the rest. -/
theorem WellFormed.slice_cons (h : s.WellFormed) {a b : Nat} (ha : s.Joint a) (hb : s.Joint b)
    {t : Token} {rest : List Token} (hall : s.lexemesIn a b = t :: rest) :
    Text.slice s.text.toList a b =
      Text.slice s.text.toList a t.span.start ++ t.value.toList ++
        Text.slice s.text.toList t.span.stop b := by
  obtain ⟨ht, hstart, hstop, -, -⟩ := h.lexemesIn_cons hall
  have hne := h.nonempty ht
  have hfrom := (h.joint_start ht).boundary
  have hto := (h.joint_stop ht).boundary
  rw [← Text.slice_append ha.boundary hfrom hb.boundary hstart (by omega),
    ← Text.slice_append hfrom hto hb.boundary (Nat.le_of_lt hne) hstop, h.slice_lexeme ht,
    ← List.append_assoc]

/-- **A piece between joints is its lexemes with gaps.** -/
theorem WellFormed.laid_slice (h : s.WellFormed) {a b : Nat} (hab : a ≤ b) (ha : s.Joint a)
    (hb : s.Joint b) :
    Laid s.Gap ((s.lexemesIn a b).map Token.value) (Text.slice s.text.toList a b) := by
  -- by induction on the lexemes of the piece, which its first lexeme cuts in three
  generalize hall : s.lexemesIn a b = all
  induction all generalizing a with
  | nil => exact .nil fun c hc => gap_of_mem_slice ha hb hall hc
  | cons t rest ih =>
      obtain ⟨ht, -, hstop, hbefore, hafter⟩ := h.lexemesIn_cons hall
      rw [h.slice_cons ha hb hall]
      exact .cons (fun c hc => gap_of_mem_slice ha (h.joint_start ht) hbefore hc)
        (ih hstop (h.joint_stop ht) hafter)

end Source

end Pare
