import Mathlib.Data.List.Basic
import Pare.Proofs.Lookup
import Pare.Proofs.Nesting

/-!
**The tokens of a tree.**

The tokens of a concrete tree are its leaves, with a few constructs taken as a whole.  Where every
node includes its parts and the parts stand one after another, the tokens come in the order of the
text and apart, so that nothing is lost or moved when they become the streams of a source.  The
tokens of a node that no such construct hides are a stretch of all tokens: what comes before them
ends before the node starts, and what comes after them starts after the node ends.

Main definitions:

* `Pare.Concrete.commentLabels` — the labels of comments;
* `Pare.Concrete.Shows` — a node that is not hidden inside a construct taken as a whole.

Main results:

* `Pare.Concrete.isComment_tokenKind_iff`, `Pare.Concrete.tokenKind_of_mem` — which labels make
  comments, and of which kind;
* `Pare.Concrete.Nested.inOrder_tokens` — the tokens of a tree are in order and apart;
* `Pare.Source.toList_tokens_ofTokens`, `Pare.Source.toList_comments_ofTokens` — the streams of a
  source made from such tokens;
* `Pare.Concrete.Shows.tokens_eq` — **the tokens of a node are a stretch of all tokens**;
* `Pare.Source.neighbours_of_eq_append` — the neighbours of a stretch.
-/

set_option relaxedAutoImplicit false
set_option autoImplicit false

namespace Pare

namespace Concrete

variable {text : List Char} {t : Concrete}

/-! ### What makes a comment -/

/-- The labels of comments.  The line that names the program which runs a text is one of them. -/
def commentLabels : List Label :=
  [.construct .comment, .construct .htmlComment, .construct .hashBangLine]

/-- A comment is a line comment unless a slash and a star stand in front. -/
theorem tokenKind_of_mem {label : Label} (h : label ∈ commentLabels) (value : String) :
    tokenKind label value =
      if "/*".toList.isPrefixOf value.toList then .blockComment else .lineComment := by
  simp only [commentLabels, List.mem_cons, List.not_mem_nil, or_false] at h
  rcases h with rfl | rfl | rfl
  all_goals rfl

/-- A token is a comment by its label alone. -/
theorem isComment_tokenKind_iff {label : Label} {value : String} :
    (tokenKind label value).isComment = true ↔ label ∈ commentLabels := by
  constructor
  · contrapose
    intro h
    unfold tokenKind
    -- no other label makes a comment, whatever the text starts with
    split
    iterate 3 exact absurd (by decide) h
    iterate 5 decide
    split
    · split
      all_goals decide
    · decide
  · intro h
    rw [tokenKind_of_mem h]
    split
    all_goals rfl

/-! ### In order and apart -/

theorem tokensOfAll_eq_flatMap (text : List Char) (ts : List Concrete) :
    tokensOfAll text ts = ts.flatMap (tokens text) := by
  induction ts with
  | nil => rfl
  | cons t ts ih => rw [tokensOfAll, ih, List.flatMap_cons]

/-- A node makes no token, one, or those of its parts. -/
theorem tokens_eq (text : List Char) (t : Concrete) : t.tokens text =
    if t.span.isEmpty then []
    else if t.children.isEmpty || isAtomic t.label then [asToken text t.label t.span]
    else t.children.flatMap (tokens text) := by
  cases t
  rw [tokens, tokensOfAll_eq_flatMap]
  rfl

/-- The tokens of a tree hold text and lie inside it. -/
theorem Nested.of_mem_tokens (h : t.Nested) {x : Token} (hx : x ∈ t.tokens text) :
    x.span.start < x.span.stop ∧ t.span.contains x.span = true := by
  induction h with
  | @node label role span children hinside _ ih =>
      rw [tokens_eq] at hx
      split at hx
      · simp at hx
      · rename_i hne
        split at hx
        · obtain rfl := List.mem_singleton.1 hx
          have hle := span.start_le_stop
          simp only [Concrete.span, Span.isEmpty, beq_iff_eq] at hne
          exact ⟨Nat.lt_of_le_of_ne hle hne, Span.contains_self _⟩
        · obtain ⟨c, hc, hx⟩ := List.mem_flatMap.1 hx
          obtain ⟨hlt, hin⟩ := ih c hc hx
          exact ⟨hlt, Span.contains_trans (hinside c hc) hin⟩

/-- The tokens of a tree are in order and apart. -/
theorem Nested.inOrder_tokens (h : t.Nested) (hapart : t.Everywhere Apart) :
    InOrder (t.tokens text) := by
  refine ⟨?_, fun x hx => (h.of_mem_tokens hx).1⟩
  induction h with
  | @node label role span children hinside hbelow ih =>
      rw [tokens_eq]
      split
      · exact .nil
      · split
        · exact List.pairwise_singleton ..
        · refine List.pairwise_flatMap.2 ⟨fun c hc => ih c hc (hapart.of_mem hc), ?_⟩
          -- tokens of different parts are as far apart as the parts are
          refine hapart.here.imp_of_mem fun {a b} ha hb hab x hx y hy => ?_
          have hleft := Span.contains_iff.1 ((hbelow a ha).of_mem_tokens hx).2
          have hright := Span.contains_iff.1 ((hbelow b hb).of_mem_tokens hy).2
          simp only [Token.Precedes]
          omega

/-! ### Nodes that show -/

/-- The second node is the first one or is somewhere inside it, and no construct that is taken as a
whole hides it. -/
inductive Shows : Concrete → Concrete → Prop
  | here (t : Concrete) : Shows t t
  | inside {t c v : Concrete} (hopen : isAtomic t.label = false) (hc : c ∈ t.children)
      (h : Shows c v) : Shows t v

theorem Shows.trans {t u v : Concrete} (htu : t.Shows u) (huv : u.Shows v) : t.Shows v := by
  induction htu with
  | here => exact huv
  | inside hopen hc _ ih => exact .inside hopen hc (ih huv)

theorem Shows.everywhere {P : Concrete → Prop} {v : Concrete} (h : t.Shows v)
    (hP : t.Everywhere P) : v.Everywhere P := by
  induction h with
  | here => exact hP
  | inside _ hc _ ih => exact ih (hP.of_mem hc)

theorem Nested.of_mem_children (h : t.Nested) {c : Concrete} (hc : c ∈ t.children) :
    t.span.contains c.span = true ∧ c.Nested := by
  cases h with
  | node hinside hbelow => exact ⟨hinside c hc, hbelow c hc⟩

theorem Shows.nested {v : Concrete} (h : t.Shows v) (ht : t.Nested) :
    t.span.contains v.span = true ∧ v.Nested := by
  induction h with
  | here t => exact ⟨Span.contains_self _, ht⟩
  | inside _ hc _ ih =>
      obtain ⟨hin, hbelow⟩ := ht.of_mem_children hc
      obtain ⟨hdeep, hv⟩ := ih hbelow
      exact ⟨Span.contains_trans hin hdeep, hv⟩

theorem tokens_of_isEmpty (h : t.span.isEmpty = true) : t.tokens text = [] := by
  rw [tokens_eq, if_pos h]

/-- **The tokens of a node that shows are a stretch of all tokens.** -/
theorem Shows.tokens_eq (text : List Char) {v : Concrete} (h : t.Shows v) (ht : t.Nested)
    (hapart : t.Everywhere Apart) : ∃ front back, t.tokens text = front ++ v.tokens text ++ back ∧
      (∀ x ∈ front, x.span.stop ≤ v.span.start) ∧ ∀ x ∈ back, v.span.stop ≤ x.span.start := by
  induction h with
  | here t => exact ⟨[], [], by simp, by simp, by simp⟩
  | @inside t c v hopen hc hv ih =>
      have hin := Span.contains_iff.1 (Shows.nested (.inside hopen hc hv) ht).1
      by_cases hempty : t.span.isEmpty = true
      · -- a node without text holds none that has any
        have hnone : v.span.isEmpty = true := by
          have hle := v.span.start_le_stop
          simp only [Span.isEmpty, beq_iff_eq] at hempty ⊢
          omega
        exact ⟨[], [], by simp [tokens_of_isEmpty hempty, tokens_of_isEmpty hnone], by simp,
          by simp⟩
      · obtain ⟨hinside, hbelow⟩ := ht.of_mem_children hc
        obtain ⟨front, back, htokens, hfront, hback⟩ := ih hbelow (hapart.of_mem hc)
        have hshow := Span.contains_iff.1 (hv.nested hbelow).1
        obtain ⟨before, after, hchildren⟩ := List.append_of_mem hc
        have horder := hapart.here
        rw [Apart, hchildren, List.pairwise_append, List.pairwise_cons] at horder
        obtain ⟨-, ⟨hafter, -⟩, hbefore⟩ := horder
        have hne : t.children.isEmpty = false := by simp [hchildren]
        refine ⟨before.flatMap (tokens text) ++ front, back ++ after.flatMap (tokens text),
          ?_, fun x hx => ?_, fun x hx => ?_⟩
        · rw [Concrete.tokens_eq, if_neg hempty, hne, hopen, Bool.or_false, if_neg (by simp),
            hchildren, List.flatMap_append, List.flatMap_cons, htokens]
          simp only [List.append_assoc]
        · rcases List.mem_append.1 hx with hx | hx
          · obtain ⟨a, ha, hx⟩ := List.mem_flatMap.1 hx
            have hleft := hbefore a ha c (List.mem_cons_self ..)
            have hmem : a ∈ t.children := by simp [hchildren, ha]
            have hx := Span.contains_iff.1 ((ht.of_mem_children hmem).2.of_mem_tokens hx).2
            omega
          · exact hfront x hx
        · rcases List.mem_append.1 hx with hx | hx
          · exact hback x hx
          · obtain ⟨a, ha, hx⟩ := List.mem_flatMap.1 hx
            have hright := hafter a ha
            have hmem : a ∈ t.children := by simp [hchildren, ha]
            have hx := Span.contains_iff.1 ((ht.of_mem_children hmem).2.of_mem_tokens hx).2
            omega

end Concrete

/-! ### Sources -/

/-- Sorting tokens in order by their starts changes nothing. -/
theorem InOrder.mergeSort_eq {ts : List Token} (h : InOrder ts) :
    ts.mergeSort Token.startsBy = ts := by
  refine List.mergeSort_of_pairwise (h.apart.imp fun {a b} hab => ?_)
  have := a.span.start_le_stop
  simp only [Token.Precedes] at hab
  simp only [Token.startsBy, decide_eq_true_eq]
  omega

namespace Source

/-- The code tokens of a source made from tokens in order are those that are no comments. -/
theorem toList_tokens_ofTokens {ts : List Token} (h : InOrder ts) (text : String) :
    (ofTokens text ts).tokens.toList = ts.filter fun t => !t.isComment := by
  rw [ofTokens, (h.filter _).mergeSort_eq]

/-- The comments of a source made from tokens in order are those that are comments. -/
theorem toList_comments_ofTokens {ts : List Token} (h : InOrder ts) (text : String) :
    (ofTokens text ts).comments.toList = ts.filter Token.isComment := by
  rw [ofTokens, (h.filter Token.isComment).mergeSort_eq]

/-- The neighbours of a span whose code tokens are a stretch of all of them are the last token
before the stretch and the first one after it. -/
theorem neighbours_of_eq_append {s : Source} {span : Span} {front inner back : List Token}
    (h : InOrder s.tokens.toList) (hs : s.tokens.toList = front ++ inner ++ back)
    (hfront : ∀ x ∈ front, x.span.stop ≤ span.start)
    (hinner : ∀ x ∈ inner, span.contains x.span = true)
    (hback : ∀ x ∈ back, span.stop ≤ x.span.start) :
    s.tokenBefore span = front.getLast? ∧ s.tokenAfter span = back.head? := by
  have hspan := span.start_le_stop
  have hnonempty : ∀ x ∈ front ++ inner ++ back, x.span.start < x.span.stop := hs ▸ h.nonempty
  simp only [List.forall_mem_append] at hnonempty
  obtain ⟨⟨hf, hi⟩, hb⟩ := hnonempty
  simp only [Span.contains_iff] at hinner
  constructor
  · have hkept : front.filter (fun t => t.span.stop ≤ span.start) = front :=
      List.filter_eq_self.2 fun x hx => by simpa using hfront x hx
    -- what comes later holds text behind the start, so it does not end at or before it
    have hlate : (inner ++ back).filter (fun t => t.span.stop ≤ span.start) = [] := by
      refine List.filter_eq_nil_iff.2 fun x hx => ?_
      rcases List.mem_append.1 hx with hx | hx
      · have := hinner x hx
        have := hi x hx
        simp only [decide_eq_true_eq]
        omega
      · have := hback x hx
        have := hb x hx
        simp only [decide_eq_true_eq]
        omega
    rw [tokenBefore_eq h, hs, List.append_assoc, List.filter_append, hkept, hlate,
      List.append_nil]
  · have hkept : back.filter (fun t => span.stop ≤ t.span.start) = back :=
      List.filter_eq_self.2 fun x hx => by simpa using hback x hx
    have hearly : (front ++ inner).filter (fun t => span.stop ≤ t.span.start) = [] := by
      refine List.filter_eq_nil_iff.2 fun x hx => ?_
      rcases List.mem_append.1 hx with hx | hx
      · have := hfront x hx
        have := hf x hx
        simp only [decide_eq_true_eq]
        omega
      · have := hinner x hx
        have := hi x hx
        simp only [decide_eq_true_eq]
        omega
    rw [tokenAfter_eq h, hs, List.filter_append, hkept, hearly, List.nil_append]

end Source

end Pare
