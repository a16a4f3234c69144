import Mathlib.Data.List.Pairwise
import Pare.Proofs.Lexemes

/-!
**What a look-up finds among tokens given in any order.**

A source sets comments apart from code tokens and puts both in the order of their starts, and a
look-up is a binary search in one of these streams, by where its members start or by where they end.
Of tokens that hold text and are apart the first to start is the first to end, so both searches are
over a stream that is in order for them, and the one candidate a search looks at is the only one
there can be.  So each look-up finds what its description says of the list that was given, and the
order of that list leaves no trace.

Main definitions:

* `Pare.Picks` — what was found is the one of a list that comes first among those wanted;
* `Pare.Lists` — what was found are all members of a list that are wanted, in order;
* `Pare.Source.Searches` — the look-ups of a source are plain searches through a list.

Main results:

* `Pare.InOrder.picks_head?`, `Pare.InOrder.picks_getLast?`, `Pare.InOrder.lists` — a stream of all
  that are wanted begins, ends and is what it should;
* `Pare.Scattered.ofTokens_eq_of_perm` — the order in which tokens are given leaves no trace;
* `Pare.Source.ofTokens_searches` — **look-ups are plain searches**.
-/

set_option relaxedAutoImplicit false
set_option autoImplicit false

namespace Pare

/-! ### What is to be found -/

/-- `found` is the member of the list that is wanted and comes `first` among those that are, and is
missing only where none is wanted. -/
structure Picks (ts : List Token) (wanted : Token → Prop) (first : Token → Token → Prop)
    (found : Option Token) : Prop where
  some_iff : ∀ t, found = some t ↔ (t ∈ ts ∧ wanted t) ∧ ∀ u ∈ ts, wanted u → first t u
  none_iff : found = none ↔ ∀ t ∈ ts, ¬ wanted t

/-- `found` are the members of the list that are wanted, each once and in order. -/
structure Lists (ts : List Token) (wanted : Token → Prop) (found : List Token) : Prop where
  mem_iff : ∀ t, t ∈ found ↔ t ∈ ts ∧ wanted t
  inOrder : InOrder found
  nil_iff : found = [] ↔ ∀ t ∈ ts, ¬ wanted t

/-- The first token starts no later than the second. -/
def Token.StartsFirst (t u : Token) : Prop := t.span.start ≤ u.span.start

/-- The first token ends no sooner than the second. -/
def Token.EndsLast (t u : Token) : Prop := u.span.stop ≤ t.span.stop

/-- The look-ups of a source are plain searches through a list of tokens and comments. -/
structure Source.Searches (s : Source) (ts : List Token) : Prop where
  tokenBefore : ∀ span : Span,
    Picks ts (fun t => t.isComment = false ∧ t.span.stop ≤ span.start) Token.EndsLast
      (s.tokenBefore span)
  tokenAfter : ∀ span : Span,
    Picks ts (fun t => t.isComment = false ∧ span.stop ≤ t.span.start) Token.StartsFirst
      (s.tokenAfter span)
  firstToken : ∀ span : Span,
    Picks ts (fun t => t.isComment = false ∧ span.start ≤ t.span.start ∧ t.span.stop ≤ span.stop)
      Token.StartsFirst (s.firstToken span)
  lastToken : ∀ span : Span,
    Picks ts (fun t => t.isComment = false ∧ span.start ≤ t.span.start ∧ t.span.stop ≤ span.stop)
      Token.EndsLast (s.lastToken span)
  commentsIn : ∀ span : Span,
    Lists ts (fun t => t.isComment = true ∧ span.start ≤ t.span.start ∧ t.span.stop ≤ span.stop)
      (s.commentsIn span)
  tokensBetween : ∀ a b : Token,
    Lists ts (fun t => a.span.stop ≤ t.span.start ∧
        t.span.stop ≤ max a.span.stop b.span.start) (s.tokensBetween a b true)

/-! ### Streams of what is wanted -/

namespace InOrder

variable {ts us : List Token} {wanted : Token → Prop}

/-- The first of a stream is the one that starts first. -/
theorem head?_eq_some_iff (h : InOrder us) {t : Token} :
    us.head? = some t ↔ t ∈ us ∧ ∀ u ∈ us, t.StartsFirst u := by
  constructor
  · intro ht
    refine ⟨List.mem_of_mem_head? ht, fun u hu => ?_⟩
    have hle := t.span.start_le_stop
    rcases h.head?_precedes ht hu with rfl | htu
    · exact Nat.le_refl _
    · exact Nat.le_trans hle htu
  · rintro ⟨ht, hfirst⟩
    obtain ⟨v, hv⟩ : ∃ v, us.head? = some v := ⟨_, List.head?_eq_some_head (List.ne_nil_of_mem ht)⟩
    have hvmem := List.mem_of_mem_head? hv
    have hne := h.nonempty v hvmem
    have hle : t.span.start ≤ v.span.start := hfirst v hvmem
    rcases h.head?_precedes hv ht with rfl | hvt
    · exact hv
    · simp only [Token.Precedes] at hvt
      omega

/-- The last of a stream is the one that ends last. -/
theorem getLast?_eq_some_iff (h : InOrder us) {t : Token} :
    us.getLast? = some t ↔ t ∈ us ∧ ∀ u ∈ us, t.EndsLast u := by
  constructor
  · intro ht
    refine ⟨List.mem_of_mem_getLast? ht, fun u hu => ?_⟩
    have hle := t.span.start_le_stop
    rcases h.precedes_getLast? ht hu with rfl | hut
    · exact Nat.le_refl _
    · exact Nat.le_trans hut hle
  · rintro ⟨ht, hlast⟩
    obtain ⟨v, hv⟩ : ∃ v, us.getLast? = some v :=
      ⟨_, List.getLast?_eq_some_getLast (List.ne_nil_of_mem ht)⟩
    have hvmem := List.mem_of_mem_getLast? hv
    have hne := h.nonempty v hvmem
    have hle : v.span.stop ≤ t.span.stop := hlast v hvmem
    rcases h.precedes_getLast? hv ht with rfl | htv
    · exact hv
    · simp only [Token.Precedes] at htv
      omega

/-- A stream of all that are wanted is empty where none is. -/
theorem eq_nil_iff (hmem : ∀ t, t ∈ us ↔ t ∈ ts ∧ wanted t) :
    us = [] ↔ ∀ t ∈ ts, ¬ wanted t := by
  simp only [List.eq_nil_iff_forall_not_mem, hmem, not_and]

theorem picks_head? (h : InOrder us) (hmem : ∀ t, t ∈ us ↔ t ∈ ts ∧ wanted t) :
    Picks ts wanted Token.StartsFirst us.head? where
  some_iff t := by simp only [h.head?_eq_some_iff, hmem, and_imp]
  none_iff := List.head?_eq_none_iff.trans (eq_nil_iff hmem)

theorem picks_getLast? (h : InOrder us) (hmem : ∀ t, t ∈ us ↔ t ∈ ts ∧ wanted t) :
    Picks ts wanted Token.EndsLast us.getLast? where
  some_iff t := by simp only [h.getLast?_eq_some_iff, hmem, and_imp]
  none_iff := List.getLast?_eq_none_iff.trans (eq_nil_iff hmem)

theorem lists (h : InOrder us) (hmem : ∀ t, t ∈ us ↔ t ∈ ts ∧ wanted t) : Lists ts wanted us where
  mem_iff := hmem
  inOrder := h
  nil_iff := eq_nil_iff hmem

end InOrder

/-! ### Tokens given in any order -/

namespace Source

variable {ts : List Token} {text : String} {t : Token}

theorem mem_tokens_ofTokens :
    t ∈ (ofTokens text ts).tokens.toList ↔ t ∈ ts ∧ t.isComment = false := by
  simp [ofTokens, List.mem_mergeSort, List.mem_filter]

theorem mem_comments_ofTokens :
    t ∈ (ofTokens text ts).comments.toList ↔ t ∈ ts ∧ t.isComment = true := by
  simp [ofTokens, List.mem_mergeSort, List.mem_filter]

end Source

namespace Scattered

variable {ts us : List Token}

theorem filter (h : Scattered ts) (p : Token → Bool) : Scattered (ts.filter p) where
  apart := h.apart.filter p
  nonempty := fun t ht => h.nonempty t (List.mem_filter.1 ht).1

theorem perm (h : Scattered ts) (hperm : ts.Perm us) : Scattered us where
  apart := h.apart.perm hperm fun hab => hab.symm
  nonempty := fun t ht => h.nonempty t (hperm.mem_iff.2 ht)

/-- Different members are apart. -/
theorem apart_of_ne (h : Scattered ts) {t u : Token} (ht : t ∈ ts) (hu : u ∈ ts) (hne : t ≠ u) :
    t.Precedes u ∨ u.Precedes t := by
  have hsymm : Std.Symm fun a b : Token => a.Precedes b ∨ b.Precedes a := ⟨fun _ _ => Or.symm⟩
  exact h.apart.forall ht hu hne

/-- Sorting tokens that are apart forgets the order in which they were given. -/
theorem mergeSort_eq_of_perm (h : Scattered ts) (hperm : ts.Perm us) :
    us.mergeSort Token.startsBy = ts.mergeSort Token.startsBy := by
  refine (h.perm hperm).mergeSort.eq_of_perm h.mergeSort ?_
  exact (List.mergeSort_perm _ _).trans (hperm.symm.trans (List.mergeSort_perm _ _).symm)

/-- The order in which tokens are given leaves no trace in the source. -/
theorem ofTokens_eq_of_perm (h : Scattered ts) (hperm : ts.Perm us) (text : String) :
    Source.ofTokens text us = Source.ofTokens text ts := by
  rw [Source.ofTokens, Source.ofTokens, (h.filter _).mergeSort_eq_of_perm (hperm.filter _),
    (h.filter Token.isComment).mergeSort_eq_of_perm (hperm.filter _)]

/-- Comments and code tokens are apart from each other. -/
theorem disjoint_ofTokens (h : Scattered ts) (text : String) :
    ∀ t ∈ (Source.ofTokens text ts).tokens.toList,
      ∀ c ∈ (Source.ofTokens text ts).comments.toList, t.Precedes c ∨ c.Precedes t := by
  intro t ht c hc
  obtain ⟨htmem, hcode⟩ := Source.mem_tokens_ofTokens.1 ht
  obtain ⟨hcmem, hcomment⟩ := Source.mem_comments_ofTokens.1 hc
  refine h.apart_of_ne htmem hcmem ?_
  rintro rfl
  exact absurd (hcode.symm.trans hcomment) (by decide)

end Scattered

namespace Source

variable {ts : List Token}

/-- Of tokens and comments that hold text and are apart, given in any order, the look-ups of a
source find what a plain search through the list finds, and the order of the list leaves no
trace. -/
theorem ofTokens_searches (h : Scattered ts) (text : String) :
    (ofTokens text ts).Searches ts ∧
      ∀ us, ts.Perm us → ofTokens text us = ofTokens text ts := by
  have htokens : InOrder (ofTokens text ts).tokens.toList := (h.filter _).mergeSort
  have hcomments : InOrder (ofTokens text ts).comments.toList := (h.filter _).mergeSort
  refine ⟨⟨fun span => ?before, fun span => ?after, fun span => ?first, fun span => ?last,
    fun span => ?comments, fun a b => ?between⟩, fun us hperm => h.ofTokens_eq_of_perm hperm text⟩
  case before =>
    rw [tokenBefore_eq htokens]
    refine (htokens.filter _).picks_getLast? fun t => ?_
    rw [List.mem_filter, mem_tokens_ofTokens, and_assoc, decide_eq_true_eq]
  case after =>
    rw [tokenAfter_eq htokens]
    refine (htokens.filter _).picks_head? fun t => ?_
    rw [List.mem_filter, mem_tokens_ofTokens, and_assoc, decide_eq_true_eq]
  case first =>
    rw [firstToken_eq htokens]
    refine (tokensIn_inOrder htokens span).picks_head? fun t => ?_
    rw [mem_tokensIn, mem_tokens_ofTokens, and_assoc]
  case last =>
    rw [lastToken_eq htokens]
    refine (tokensIn_inOrder htokens span).picks_getLast? fun t => ?_
    rw [mem_tokensIn, mem_tokens_ofTokens, and_assoc]
  case comments =>
    refine InOrder.lists ?_ fun t => ?_
    · rw [commentsIn_eq hcomments]
      exact hcomments.filter _
    · rw [mem_commentsIn hcomments, mem_comments_ofTokens, and_assoc]
  case between =>
    refine (tokensBetween_inOrder htokens hcomments (h.disjoint_ofTokens text) a b).lists
      fun t => ?_
    simp only [tokensBetween, if_true, List.mem_mergeSort, List.mem_append, List.mem_filter,
      mem_commentsIn hcomments, mem_tokens_ofTokens, mem_comments_ofTokens, Span.contains_iff,
      Span.start_upTo, Span.stop_upTo]
    -- a member is a code token or a comment
    cases t.isComment <;> simp

/-- The tokens of `a=(b)/**/`, out of order. -/
def shuffledTokens : List Token :=
  [⟨.blockComment, "/**/", .upTo 5 9⟩, ⟨.word, "b", .upTo 3 4⟩, ⟨.punctuator, ")", .upTo 4 5⟩,
    ⟨.word, "a", .upTo 0 1⟩, ⟨.punctuator, "(", .upTo 2 3⟩, ⟨.punctuator, "=", .upTo 1 2⟩]

theorem ofTokens_searches_shuffled :
    Scattered shuffledTokens ∧ (ofTokens "a=(b)/**/" shuffledTokens).Searches shuffledTokens ∧
      ofTokens "a=(b)/**/" shuffledTokens.reverse = ofTokens "a=(b)/**/" shuffledTokens :=
  have h : Scattered shuffledTokens := by decide
  have hfound := ofTokens_searches h "a=(b)/**/"
  ⟨h, hfound.1, hfound.2 _ shuffledTokens.reverse_perm.symm⟩

end Source

end Pare
