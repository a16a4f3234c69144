import Pare.Proofs.Leaves
import Pare.Proofs.Lexemes

/-!
**From the leaves of a tree to the streams of a source.**

Every decision about what stands next to what is made on the two streams of a source, so nothing
may be lost, split or moved on the way there.  The way has two steps.  The tokens of a tree are
collected left to right: a construct that is taken as a whole hides its parts, and a node without
text is passed over with all that is in it.  Then the tokens are parted into code and comments, each
sorted by its start.  Neither step loses a leaf that has text: it lies in exactly one token, and
sorting the two streams together by their starts gives back the tokens as they were collected.

Main definitions:

* `Pare.Concrete.Holds` — a node that is somewhere in a tree, hidden or not;
* `Pare.Concrete.Cuttable` — a node whose ends are boundaries of the text.

Main results:

* `Pare.Concrete.exists_of_mem_tokens` — a token is a leaf that shows, or a construct as a whole;
* `Pare.Concrete.Holds.exists_token` — a leaf with text lies in a token;
* `Pare.Source.wellFormed_ofTokens`, `Pare.Source.lexemes_ofTokens` — tokens in order make a
  well-formed source, and its streams together are these tokens;
* `Pare.Concrete.tokens_keep_leaves` — **nothing is lost, split or moved**.
-/

set_option relaxedAutoImplicit false
set_option autoImplicit false

namespace Pare

/-! ### Tokens and leaves -/

namespace Concrete

variable {text : List Char} {t : Concrete}

/-- The second node is the first one or is somewhere inside it. -/
inductive Holds : Concrete → Concrete → Prop
  | here (t : Concrete) : Holds t t
  | inside {t c v : Concrete} (hc : c ∈ t.children) (h : Holds c v) : Holds t v

/-- The ends of the node are boundaries of the text. -/
structure Cuttable (text : List Char) (t : Concrete) : Prop where
  start : Text.IsBoundary text t.span.start
  stop : Text.IsBoundary text t.span.stop

instance (text : List Char) (t : Concrete) : Decidable (t.Cuttable text) :=
  decidable_of_iff (Text.IsBoundary text t.span.start ∧ Text.IsBoundary text t.span.stop)
    ⟨fun h => ⟨h.1, h.2⟩, fun h => ⟨h.start, h.stop⟩⟩

theorem Holds.contains {v : Concrete} (h : t.Holds v) (ht : t.Nested) :
    t.span.contains v.span = true := by
  induction h with
  | here t => exact Span.contains_self _
  | inside hc _ ih =>
      obtain ⟨hin, hbelow⟩ := ht.of_mem_children hc
      exact Span.contains_trans hin (ih hbelow)

/-- A token is a leaf that shows, or a construct that shows and is taken as a whole. -/
theorem exists_of_mem_tokens (ht : t.Nested) {x : Token} (hx : x ∈ t.tokens text) :
    ∃ v, t.Shows v ∧ (v.children = [] ∨ isAtomic v.label = true) ∧
      x = asToken text v.label v.span := by
  induction ht with
  | @node label role span children _ _ ih =>
      rw [tokens_eq] at hx
      split at hx
      · simp at hx
      · split at hx
        · rename_i hwhole
          rw [Bool.or_eq_true, List.isEmpty_iff] at hwhole
          exact ⟨_, .here _, hwhole, List.mem_singleton.1 hx⟩
        · rename_i hwhole
          obtain ⟨c, hc, hx⟩ := List.mem_flatMap.1 hx
          obtain ⟨v, hv, hone, hvx⟩ := ih c hc hx
          simp only [Bool.or_eq_true, not_or, Bool.not_eq_true] at hwhole
          exact ⟨v, .inside hwhole.2 hc hv, hone, hvx⟩

/-- A leaf with text lies in a token, if it is not hidden its own one. -/
theorem Holds.exists_token {leaf : Concrete} (h : t.Holds leaf) (ht : t.Nested)
    (hleaf : leaf.children = []) (htext : leaf.span.start < leaf.span.stop) :
    ∃ x ∈ t.tokens text, x.span.contains leaf.span = true := by
  induction h with
  | here leaf =>
      have hne : leaf.span.isEmpty = false := by simpa [Span.isEmpty] using Nat.ne_of_lt htext
      refine ⟨asToken text leaf.label leaf.span, ?_, Span.contains_self _⟩
      rw [tokens_eq, hne, hleaf]
      simp
  | @inside t c leaf hc hleafIn ih =>
      have hin := Holds.contains (.inside hc hleafIn) ht
      have hne : t.span.isEmpty = false := by
        rw [Span.contains_iff] at hin
        rw [Span.isEmpty, beq_eq_false_iff_ne]
        omega
      rw [tokens_eq, hne, if_neg (by simp)]
      by_cases hwhole : (t.children.isEmpty || isAtomic t.label) = true
      · -- the construct is taken as a whole, with the leaf in it
        rw [if_pos hwhole]
        exact ⟨_, List.mem_singleton.2 rfl, hin⟩
      · rw [if_neg hwhole]
        obtain ⟨x, hx, hcontains⟩ := ih (ht.of_mem_children hc).2 hleaf htext
        exact ⟨x, List.mem_flatMap.2 ⟨c, hc, hx⟩, hcontains⟩

/-- The value of a token is the text of its place. -/
theorem cut?_of_mem_tokens (ht : t.Nested) (hcuts : t.Everywhere (Cuttable text)) {x : Token}
    (hx : x ∈ t.tokens text) : Text.cut? text x.span.start x.span.stop = some x.value.toList := by
  obtain ⟨v, hv, -, rfl⟩ := exists_of_mem_tokens ht hx
  have hcut := (hv.everywhere hcuts).here
  obtain ⟨mid, hmid⟩ := Text.exists_cut? hcut.start hcut.stop v.span.start_le_stop
  simp [asToken, Text.excerpt, hmid]

end Concrete

/-- Of tokens in order only one contains a piece of text. -/
theorem InOrder.eq_of_contains {ts : List Token} (h : InOrder ts) {a b : Token} (ha : a ∈ ts)
    (hb : b ∈ ts) {span : Span} (hspan : span.start < span.stop)
    (hain : a.span.contains span = true) (hbin : b.span.contains span = true) : a = b := by
  rw [Span.contains_iff] at hain hbin
  rcases h.trichotomy ha hb with hab | rfl | hba
  · simp only [Token.Precedes] at hab
    omega
  · rfl
  · simp only [Token.Precedes] at hba
    omega

/-! ### Streams -/

namespace Source

variable {ts : List Token}

/-- Tokens in order, with the text of their places, make a well-formed source. -/
theorem wellFormed_ofTokens {text : String} (h : InOrder ts) (hspelled : ∀ x ∈ ts,
    Text.cut? text.toList x.span.start x.span.stop = some x.value.toList) :
    (ofTokens text ts).WellFormed := by
  have hcode := toList_tokens_ofTokens h text
  have hcomments := toList_comments_ofTokens h text
  constructor
  · exact hcode ▸ h.filter _
  · exact hcomments ▸ h.filter _
  · intro x hx c hc
    rw [hcode, List.mem_filter] at hx
    rw [hcomments, List.mem_filter] at hc
    rcases h.trichotomy hx.1 hc.1 with hxc | rfl | hcx
    · exact .inl hxc
    · simp [hc.2] at hx
    · exact .inr hcx
  · intro x hx
    rw [hcode, hcomments, List.mem_append, List.mem_filter, List.mem_filter] at hx
    exact hspelled x (hx.elim And.left And.left)
  · intro x hx
    rw [hcode, List.mem_filter] at hx
    simpa using hx.2
  · intro c hc
    rw [hcomments, List.mem_filter] at hc
    exact hc.2

/-- The streams of a source made from tokens in order, merged by their starts, are these tokens. -/
theorem lexemes_ofTokens {text : String} (h : InOrder ts) (hspelled : ∀ x ∈ ts,
    Text.cut? text.toList x.span.start x.span.stop = some x.value.toList) :
    (ofTokens text ts).lexemes = ts := by
  refine (wellFormed_ofTokens h hspelled).lexemes_inOrder.eq_of_perm h ?_
  have hsplit := List.filter_append_perm (fun x => !x.isComment) ts
  simp only [Bool.not_not] at hsplit
  rw [lexemes, toList_tokens_ofTokens h, toList_comments_ofTokens h]
  exact (List.mergeSort_perm _ _).trans hsplit

end Source

/-- **Nothing is lost, split or moved.**  If every node of a tree includes its parts, the parts
stand one after another, and all ends are boundaries of the text, then the tokens of the tree hold
text, stand one after another and have the text of their places.  Every leaf with text lies in
exactly one token, and every token is a leaf, or a construct that is taken as a whole, which no
other one hides.  The source made from them has the code tokens and the comments among them, each in
their order, and merging both by their starts gives back the tokens. -/
theorem Concrete.tokens_keep_leaves {text : String} {t : Concrete} (hnested : t.Nested)
    (hapart : t.Everywhere Apart) (hcuts : t.Everywhere (Cuttable text.toList)) :
    ∃ ts, t.tokens text.toList = ts ∧ (∀ x ∈ ts, x.span.start < x.span.stop) ∧
      (ts.Pairwise fun a b => a.span.start < b.span.start ∧ a.span.stop ≤ b.span.start) ∧
      (∀ x ∈ ts, Text.cut? text.toList x.span.start x.span.stop = some x.value.toList) ∧
      (∀ leaf, t.Holds leaf → leaf.children = [] → leaf.span.start < leaf.span.stop →
        ∃ x, ts.filter (fun x => x.span.contains leaf.span) = [x]) ∧
      (∀ x ∈ ts, ∃ v, t.Shows v ∧ (v.children = [] ∨ isAtomic v.label = true) ∧
        x = asToken text.toList v.label v.span) ∧
      (Source.ofTokens text ts).tokens.toList = ts.filter (fun x => !x.isComment) ∧
      (Source.ofTokens text ts).comments.toList = ts.filter Token.isComment ∧
      ((Source.ofTokens text ts).tokens.toList ++
        (Source.ofTokens text ts).comments.toList).mergeSort Token.startsBy = ts := by
  have horder : InOrder (t.tokens text.toList) := hnested.inOrder_tokens hapart
  have hspelled : ∀ x ∈ t.tokens text.toList,
      Text.cut? text.toList x.span.start x.span.stop = some x.value.toList :=
    fun x hx => cut?_of_mem_tokens hnested hcuts hx
  refine ⟨_, rfl, horder.nonempty, ?_, hspelled, ?_, ?_, Source.toList_tokens_ofTokens horder text,
    Source.toList_comments_ofTokens horder text, Source.lexemes_ofTokens horder hspelled⟩
  · refine horder.apart.imp_of_mem fun {a b} ha _ hab => ⟨?_, hab⟩
    exact Nat.lt_of_lt_of_le (horder.nonempty a ha) hab
  · intro leaf hleaf hchildren htext
    obtain ⟨x, hx, hcontains⟩ := hleaf.exists_token hnested hchildren htext
    refine ⟨x, (horder.filter _).eq_singleton (List.mem_filter.2 ⟨hx, hcontains⟩) ?_⟩
    intro y hy
    obtain ⟨hy, hcontains'⟩ := List.mem_filter.1 hy
    exact horder.eq_of_contains hy hx htext hcontains' hcontains
  · intro x hx
    exact exists_of_mem_tokens hnested hx

/-! ### A string and a comment -/

/-- The program of the text `a/**/"b"`, with an empty place for a semicolon after the name. -/
def quotedProgram : Concrete :=
  let leaf (label : Label) (start stop : Nat) : Concrete := .node label none (.upTo start stop) []
  .node (.construct .program) none (.upTo 0 8) [
    .node (.construct .expressionStatement) none (.upTo 0 1) [
      leaf (.construct .identifier) 0 1,
      leaf (.sign ";") 1 1],
    leaf (.construct .comment) 1 5,
    .node (.construct .expressionStatement) none (.upTo 5 8) [
      .node (.construct .string) none (.upTo 5 8) [
        leaf (.sign "\"") 5 6,
        leaf (.sign "\"") 7 8]]]

/-- The quote at the end lies in one token, the whole string. -/
theorem Concrete.tokens_keep_leaves_quote :
    (quotedProgram.Nested ∧ quotedProgram.Everywhere Apart ∧
      quotedProgram.Everywhere (Cuttable "a/**/\"b\"".toList)) ∧
    ∃ x, (quotedProgram.tokens "a/**/\"b\"".toList).filter
      (fun x => x.span.contains (.upTo 7 8)) = [x] ∧ x.value = "\"b\"" := by
  have hnested : quotedProgram.Nested := by
    simp [quotedProgram, Span.contains, span]
  have hapart : quotedProgram.Everywhere Apart := by decide +kernel
  have hcuts : quotedProgram.Everywhere (Cuttable "a/**/\"b\"".toList) := by decide +kernel
  obtain ⟨ts, rfl, -, -, -, hleaves, -⟩ := tokens_keep_leaves hnested hapart hcuts
  obtain ⟨x, hx⟩ := hleaves (.node (.sign "\"") none (.upTo 7 8) [])
    (.inside (List.mem_cons_of_mem _ (List.mem_cons_of_mem _ (List.mem_cons_self ..)))
      (.inside (List.mem_cons_self ..) (.inside (List.mem_cons_of_mem _ (List.mem_cons_self ..))
        (.here _)))) rfl (by decide)
  have hvalue : (quotedProgram.tokens "a/**/\"b\"".toList).filter
      (fun x => x.span.contains (.upTo 7 8)) = [⟨.string, "\"b\"", .upTo 5 8⟩] := by decide +kernel
  refine ⟨⟨hnested, hapart, hcuts⟩, x, hx, ?_⟩
  obtain rfl := List.singleton_inj.1 (hvalue.symm.trans hx)
  rfl

end Pare
