import Pare.Grammar
import Pare.Proofs.Origins
import Pare.Proofs.WellFormed

/-!
**Parentheses that are found again.**

The numbered tree has no node for grouping parentheses; the rule finds them again as the tokens next
to a node.  What stands next to a node need not group it: a call and a list of parameters have
parentheses too.  But in one of the slots where its parentheses can be dropped, an expression that
has none of its own stands behind a token such as `=` or `return`, which is no parenthesis.  There
the neighbours are the innermost parentheses around the expression, if it has any, and else no pair
of parentheses is found.

Main definitions:

* `Pare.Concrete.parentheses` — the innermost pair of parentheses of a node that is one;
* `Pare.Slot.admits` — the tokens that an expression in a slot can follow;
* `Pare.Concrete.Leads` — every expression in a slot follows such a token;
* `Pare.Lowered` — a node of the numbered tree, its parent and what the two were made from.

Main results:

* `Pare.Concrete.groupingAt_enclosed` — around what is enclosed, the parentheses that enclose it are
  found;
* `Pare.Concrete.groupingAt_toAst` — the parentheses that are found around the tree of a node;
* `Pare.Concrete.grouping_toContext` — **reported parentheses are real grouping**.
-/

set_option relaxedAutoImplicit false
set_option autoImplicit false

namespace Pare

/-! ### Parentheses of a node -/

namespace Concrete

/-- The first and the last of three parts, comments aside, as tokens. -/
def outermost (text : List Char) (ts : List Concrete) : Option (Token × Token) :=
  match ts.filter fun c => !c.isExtra with
  | [left, _, right] =>
      some (asToken text left.label left.span, asToken text right.label right.span)
  | _ => none

mutual

/-- The innermost parentheses around what a node groups; there are none if the node is no
parentheses. -/
def parentheses (text : List Char) : Concrete → Option (Token × Token)
  | .node (.construct .parenthesized) _ _ children =>
      (parenthesesOfFirst text children).or (outermost text children)
  | _ => none

/-- The innermost parentheses around what the first construct among some nodes groups. -/
def parenthesesOfFirst (text : List Char) : List Concrete → Option (Token × Token)
  | [] => none
  | t :: rest =>
      if t.isNamed && !t.isExtra then t.parentheses text else parenthesesOfFirst text rest

end

end Concrete

/-- The tokens that an expression in a slot can follow. -/
def Slot.admits : Slot → Token → Bool
  | .initializer, t | .assigned, t => t.isSign "="
  | .returned, t => t.isWord "return"
  | .element, t => t.isSign "[" || t.isSign ","
  | .paired, t => t.isSign ":"
  | .body, t => t.isSign "=>"
  | .statement, t => !t.isSign "("

/-- No expression follows an opening parenthesis that is not its own. -/
theorem Slot.isSign_of_admits {slot : Slot} {t : Token} (h : slot.admits t = true) :
    t.isSign "(" = false := by
  have hsign : ∀ s : String, s ≠ "(" → t.isSign s = true → t.isSign "(" = false := by
    intro s hs ht
    simp only [Token.isSign, Bool.and_eq_true, beq_iff_eq] at ht
    simp [Token.isSign, ht.2, hs]
  cases slot with
  | initializer | assigned => exact hsign "=" (by decide) h
  | paired => exact hsign ":" (by decide) h
  | body => exact hsign "=>" (by decide) h
  | element =>
      rcases Bool.or_eq_true_iff.1 h with h | h
      · exact hsign "[" (by decide) h
      · exact hsign "," (by decide) h
  | returned =>
      simp only [admits, Token.isWord, Bool.and_eq_true, beq_iff_eq] at h
      simp [Token.isSign, h.1]
  | statement => simpa [admits] using h

namespace Concrete

def codeTokens (text : List Char) (t : Concrete) : List Token :=
  (t.tokens text).filter fun x => !x.isComment

/-- The last code token of a program that ends before a span. -/
def tokenBefore (text : List Char) (program : Concrete) (span : Span) : Option Token :=
  ((program.codeTokens text).filter fun x => x.span.stop ≤ span.start).getLast?

/-- Every expression of the construct that is in a slot follows a token that can stand before it
there, with the parentheses around it. -/
def Leads (text : List Char) (program t : Concrete) : Prop :=
  ∀ p ∈ t.slots text, ∀ token ∈ program.tokenBefore text p.2.span, p.1.admits token = true

instance (text : List Char) (program t : Concrete) : Decidable (Leads text program t) :=
  inferInstanceAs (Decidable (∀ p ∈ t.slots text, ∀ token ∈ program.tokenBefore text p.2.span,
    p.1.admits token = true))

end Concrete

/-! ### Signs and comments -/

theorem Text.excerpt_of_isEmpty {text : List Char} {span : Span} (h : span.isEmpty = true) :
    Text.excerpt text span = "" := by
  rw [Span.isEmpty, beq_iff_eq] at h
  simp only [Text.excerpt, Text.cut?, ← h]
  cases Text.beyond? span.start text <;> simp

namespace Concrete

variable {text : List Char}

theorem parenthesesOfFirst_eq (text : List Char) (ts : List Concrete) :
    parenthesesOfFirst text ts =
      (ts.find? fun c => c.isNamed && !c.isExtra).bind (parentheses text) := by
  induction ts with
  | nil => rfl
  | cons t ts ih =>
      rw [parenthesesOfFirst, List.find?_cons]
      cases t.isNamed && !t.isExtra with
      | true => rfl
      | false => exact ih

theorem parentheses_of_parenthesized {t inner : Concrete} (text : List Char)
    (hlabel : t.label = .construct .parenthesized) (hfirst : t.first? = some inner) :
    t.parentheses text = (inner.parentheses text).or (outermost text t.children) := by
  obtain ⟨label, role, span, children⟩ := t
  obtain rfl : label = .construct .parenthesized := hlabel
  have hfirst : children.find? (fun c => c.isNamed && !c.isExtra) = some inner := hfirst
  rw [parentheses, parenthesesOfFirst_eq, hfirst]
  rfl

theorem parentheses_of_ne {t : Concrete} (text : List Char)
    (hlabel : t.label ≠ .construct .parenthesized) : t.parentheses text = none := by
  unfold parentheses
  split
  · exact absurd rfl hlabel
  · rfl

/-- A comment makes no code token. -/
theorem codeTokens_of_isExtra {t : Concrete} (h : t.isExtra = true) :
    t.codeTokens text = [] := by
  have hcomment : isAtomic t.label = true ∧
      ((asToken text t.label t.span).isComment = true) := by
    simp only [isExtra, is, Bool.or_eq_true, beq_iff_eq] at h
    rcases h with h | h
    all_goals
      rw [h]
      refine ⟨rfl, ?_⟩
      rw [asToken, Token.isComment, isComment_tokenKind_iff]
      decide
  rw [codeTokens, tokens_eq]
  split
  · rfl
  · simp [hcomment]

/-- A parenthesis makes one code token. -/
theorem codeTokens_of_isLeaf {t : Concrete} {sign : String} (hsign : sign = "(" ∨ sign = ")")
    (h : t.isLeaf text sign = true) :
    t.codeTokens text = [asToken text t.label t.span] ∧
      (asToken text t.label t.span).isSign sign = true := by
  simp only [isLeaf, Bool.and_eq_true, beq_iff_eq] at h
  obtain ⟨⟨hlabel, hleaf⟩, hspelled⟩ := h
  have hempty : t.span.isEmpty = false := by
    cases hspan : t.span.isEmpty with
    | false => rfl
    | true =>
        rw [Text.excerpt_of_isEmpty hspan] at hspelled
        rcases hsign with rfl | rfl <;> exact absurd hspelled (by decide)
  have hkind : (asToken text t.label t.span).isSign sign = true ∧
      (asToken text t.label t.span).isComment = false := by
    have hpunctuator : tokenKind (.sign sign) sign = .punctuator := by
      rcases hsign with rfl | rfl <;> decide
    simp [asToken, hlabel, hspelled, hpunctuator, Token.isSign, Token.isComment,
      Token.Kind.isComment]
  refine ⟨?_, hkind.1⟩
  rw [codeTokens, tokens_eq, hempty, hleaf]
  simp [hkind.2]

theorem flatMap_codeTokens (text : List Char) (ts : List Concrete) :
    ts.flatMap (codeTokens text) =
      (ts.filter fun c => !c.isExtra).flatMap (codeTokens text) := by
  induction ts with
  | nil => rfl
  | cons t ts ih =>
      cases hextra : t.isExtra with
      | true => simp [hextra, codeTokens_of_isExtra hextra, ih]
      | false => simp [hextra, ih]

/-- The code tokens of parentheses are the two parentheses with what they enclose between them. -/
theorem codeTokens_of_encloses {t left inner right : Concrete} (ht : t.Nested)
    (hlabel : t.label = .construct .parenthesized)
    (hparts : t.children.filter (fun c => !c.isExtra) = [left, inner, right])
    (hleft : left.isLeaf text "(" = true) (hright : right.isLeaf text ")" = true) :
    t.codeTokens text = asToken text left.label left.span :: inner.codeTokens text ++
      [asToken text right.label right.span] := by
  have hmem : left ∈ t.children := by
    have hmem : left ∈ t.children.filter fun c => !c.isExtra := by simp [hparts]
    exact (List.mem_filter.1 hmem).1
  obtain ⟨hin, hnested⟩ := ht.of_mem_children hmem
  obtain ⟨hleft, -⟩ := codeTokens_of_isLeaf (.inl rfl) hleft
  obtain ⟨hright, -⟩ := codeTokens_of_isLeaf (.inr rfl) hright
  -- the node holds text, for the first parenthesis does
  have htoken : asToken text left.label left.span ∈ left.tokens text :=
    (List.mem_filter.1 (hleft ▸ List.mem_singleton.2 rfl)).1
  have hne : t.span.isEmpty = false := by
    obtain ⟨hlt, hdeep⟩ := hnested.of_mem_tokens htoken
    rw [Span.contains_iff] at hin hdeep
    simp only [Span.isEmpty, beq_eq_false_iff_ne]
    omega
  have hchildren : t.children.isEmpty = false := by
    cases hnil : t.children with
    | nil => simp [hnil] at hmem
    | cons c cs => rfl
  have hall : t.codeTokens text = t.children.flatMap (codeTokens text) := by
    rw [codeTokens, tokens_eq, hne, hchildren, hlabel, if_neg (by simp),
      if_neg (by simp [isAtomic]), List.filter_flatMap]
    rfl
  rw [hall, flatMap_codeTokens, hparts]
  simp [hleft, hright]

end Concrete

/-! ### Parentheses around a span -/

/-- The span of a tree of kinds. -/
def Ast.span : Ast → Span
  | .node span _ => span

/-- Between an opening and a closing parenthesis, these two are found. -/
theorem Context.groupingAt_of_eq_append {ctx : Context} {span : Span} {left right : Token}
    {front inner back : List Token} (h : InOrder ctx.source.tokens.toList)
    (hs : ctx.source.tokens.toList = front ++ [left] ++ inner ++ right :: back)
    (hleft : left.isSign "(" = true) (hright : right.isSign ")" = true)
    (hbefore : left.span.stop ≤ span.start) (hafter : span.stop ≤ right.span.start)
    (hinner : ∀ x ∈ inner, span.contains x.span = true) :
    ctx.groupingAt span = some (left, right) := by
  have hapart := hs ▸ h.apart
  simp only [List.pairwise_append, List.pairwise_cons, List.mem_append, List.mem_singleton,
    Token.Precedes] at hapart
  -- the tokens inside are a stretch, with the parentheses as its neighbours
  have hfront : ∀ x ∈ front ++ [left], x.span.stop ≤ span.start := by
    intro x hx
    rcases List.mem_append.1 hx with hx | hx
    · have := hapart.1.1.2.2 x hx left rfl
      have := left.span.start_le_stop
      omega
    · obtain rfl := List.mem_singleton.1 hx
      exact hbefore
  have hback : ∀ x ∈ right :: back, span.stop ≤ x.span.start := by
    intro x hx
    rcases List.mem_cons.1 hx with rfl | hx
    · exact hafter
    · have := hapart.2.1.1 x hx
      have := right.span.start_le_stop
      omega
  obtain ⟨hfound, hfound'⟩ := Source.neighbours_of_eq_append h hs hfront hinner hback
  rw [List.getLast?_concat] at hfound
  simp [groupingAt, hfound, hfound', hleft, hright, hbefore, hafter]

namespace Concrete

variable {text : String} {program : Concrete}

/-- The code tokens of a program are in order and apart. -/
theorem inOrder_tokens_toContext (hnested : program.Nested)
    (hdelimited : program.Everywhere (Delimited text.toList)) :
    InOrder (program.toContext text).source.tokens.toList ∧
      (program.toContext text).source.tokens.toList = program.codeTokens text.toList := by
  have horder : InOrder (program.tokens text.toList) :=
    hnested.inOrder_tokens (hdelimited.imp fun _ h => h.apart)
  have htokens := Source.toList_tokens_ofTokens horder text
  exact ⟨htokens ▸ horder.filter _, htokens⟩

/-- The token that is found before a span is the last one that ends before it. -/
theorem tokenBefore_toContext (hnested : program.Nested)
    (hdelimited : program.Everywhere (Delimited text.toList)) (span : Span) :
    (program.toContext text).source.tokenBefore span = program.tokenBefore text.toList span := by
  obtain ⟨horder, htokens⟩ := inOrder_tokens_toContext hnested hdelimited
  rw [Source.tokenBefore_eq horder, htokens, tokenBefore]

/-- Around what is enclosed, the parentheses that enclose it are found. -/
theorem groupingAt_enclosed (hnested : program.Nested)
    (hdelimited : program.Everywhere (Delimited text.toList)) {t left inner right : Concrete}
    (hshows : program.Shows t) (hlabel : t.label = .construct .parenthesized)
    (hparts : t.children.filter (fun c => !c.isExtra) = [left, inner, right])
    (hleft : left.isLeaf text.toList "(" = true) (hright : right.isLeaf text.toList ")" = true) :
    (program.toContext text).groupingAt inner.span =
      some (asToken text.toList left.label left.span,
        asToken text.toList right.label right.span) := by
  obtain ⟨horder, htokens⟩ := inOrder_tokens_toContext hnested hdelimited
  obtain ⟨front, back, hall, -, -⟩ :=
    hshows.tokens_eq text.toList hnested (hdelimited.imp fun _ h => h.apart)
  have ht := (hshows.nested hnested).2
  have hcode := codeTokens_of_encloses ht hlabel hparts hleft hright
  -- the code tokens of the parentheses are a stretch of those of the program
  have hsplit : (program.toContext text).source.tokens.toList =
      front.filter (fun x => !x.isComment) ++ [asToken text.toList left.label left.span] ++
        inner.codeTokens text.toList ++
          asToken text.toList right.label right.span :: back.filter fun x => !x.isComment := by
    rw [htokens, codeTokens, hall, List.filter_append, List.filter_append, ← codeTokens, hcode]
    simp only [List.append_assoc, List.cons_append, List.nil_append]
  have hapart : [left, inner, right].Pairwise fun a b => a.span.stop ≤ b.span.start :=
    hparts ▸ (hshows.everywhere hdelimited).here.apart.filter _
  simp only [List.pairwise_cons, List.forall_mem_cons] at hapart
  obtain ⟨⟨hbefore, -⟩, ⟨hafter, -⟩, -⟩ := hapart
  have hinner : inner ∈ t.children := by
    have hinner : inner ∈ t.children.filter fun c => !c.isExtra := by simp [hparts]
    exact (List.mem_filter.1 hinner).1
  exact Context.groupingAt_of_eq_append horder hsplit (codeTokens_of_isLeaf (.inl rfl) hleft).2
    (codeTokens_of_isLeaf (.inr rfl) hright).2 hbefore hafter fun x hx =>
      ((ht.of_mem_children hinner).2.of_mem_tokens (List.mem_filter.1 hx).1).2

/-- The tree of a node that is no parentheses has the span of the node. -/
theorem span_toAst {t : Concrete} (text : List Char)
    (hlabel : t.label ≠ .construct .parenthesized) : (t.toAst text).span = t.span := by
  cases h : t.label with
  | sign s => rw [toAst_of_sign h, Ast.span]
  | construct c => rw [toAst_of_construct h fun hc => hlabel (hc ▸ h), Ast.span]

/-- Around the tree of parentheses, the innermost of them are found. -/
theorem groupingAt_toAst (hnested : program.Nested)
    (hdelimited : program.Everywhere (Delimited text.toList)) {t : Concrete}
    (hshows : program.Shows t) (hlabel : t.label = .construct .parenthesized) :
    (program.toContext text).groupingAt (t.toAst text.toList).span = t.parentheses text.toList ∧
      (t.parentheses text.toList).isSome = true := by
  have ht := hshows.everywhere hdelimited
  induction ht with
  | @node t hhere _ ih =>
      obtain ⟨left, inner, right, hparts, hleft, hright, hfirst⟩ :=
        exists_of_encloses (hhere.enclosing (by simp [is, hlabel]))
      have hmem := mem_of_first? hfirst
      rw [toAst_of_parenthesized hlabel hfirst, parentheses_of_parenthesized _ hlabel hfirst]
      by_cases hinner : inner.label = .construct .parenthesized
      · obtain ⟨hfound, hsome⟩ := ih inner hmem (hshows.child (by rw [hlabel]; rfl) hmem) hinner
        rw [Option.or_of_isSome hsome]
        exact ⟨hfound, hsome⟩
      · have hfound := groupingAt_enclosed hnested hdelimited hshows hlabel hparts hleft hright
        have houtermost : outermost text.toList t.children =
            some (asToken text.toList left.label left.span,
              asToken text.toList right.label right.span) := by
          simp only [outermost, hparts]
        rw [span_toAst _ hinner, parentheses_of_ne _ hinner, Option.none_or, houtermost]
        exact ⟨hfound, rfl⟩

/-- Around an expression in a slot that is no parentheses, none are found. -/
theorem groupingAt_of_leads (hnested : program.Nested)
    (hdelimited : program.Everywhere (Delimited text.toList)) {u v : Concrete} {slot : Slot}
    (hleads : Leads text.toList program u)
    (hslot : (slot, v) ∈ u.slots text.toList)
    (hlabel : v.label ≠ .construct .parenthesized) :
    (program.toContext text).groupingAt (v.toAst text.toList).span = none := by
  rw [span_toAst _ hlabel, Option.eq_none_iff_forall_ne_some]
  rintro ⟨left, right⟩ hfound
  obtain ⟨hbefore, -, hsign, -⟩ := Context.groupingAt_eq_some hfound
  rw [tokenBefore_toContext hnested hdelimited] at hbefore
  rw [Slot.isSign_of_admits (hleads _ hslot left hbefore)] at hsign
  cases hsign

end Concrete

/-! ### Parentheses around a node -/

/-- A node of the numbered tree of a program was made from a part of a construct, in a slot of it,
and the parent of the node from this construct. -/
structure Lowered (text : List Char) (program : Concrete) (up : NodeId) (slot : Slot)
    (id : NodeId) (u v : Concrete) : Prop where
  /-- The construct is in the program. -/
  shows : program.Shows u
  /-- The part is in the slot. -/
  part : (slot, v) ∈ u.slots text
  /-- The nodes under the parent read as the tree of the construct. -/
  whole : Reads (Concrete.toTree text program).nodes up (u.toAst text)
  /-- The nodes under the node read as the tree of the part. -/
  inner : Reads (Concrete.toTree text program).nodes id (v.toAst text)

section Lowered

variable {text : List Char} {program : Concrete} {up id : NodeId} {slot : Slot}

/-- A node that is in a slot of its parent was made from a part of a construct. -/
theorem exists_lowered (hnested : program.Nested)
    (hstop : program.span.stop ≤ Text.byteSize text)
    (hprogram : Concrete.isAtomic program.label = false)
    (hdelimited : program.Everywhere (Concrete.Delimited text)) {node : Node}
    (hnode : (Concrete.toTree text program).nodes[up]? = some node)
    (hslot : (slot, id) ∈ node.kind.slots) : ∃ u v, Lowered text program up slot id u v := by
  obtain ⟨a, hreads, hstem⟩ := Concrete.exists_stem hnested hstop hprogram hdelimited hnode
  have hwhole := hreads
  cases hreads with
  | @node _ n kind hn hkind =>
      obtain rfl : node = n := Option.some.inj (hnode.symm.trans hn)
      obtain ⟨b, hb, hinner⟩ := hkind.exists_of_mem_slots hslot
      obtain ⟨u, v, hshows, hpart, hu, rfl⟩ := hstem.exists_of_mem_slots hdelimited hb
      exact ⟨u, v, hshows, hpart, hu ▸ hwhole, hinner⟩

end Lowered

theorem Reads.span_eq {nodes : Array Node} {id : NodeId} {a : Ast} (h : Reads nodes id a)
    {node : Node} (hnode : nodes[id]? = some node) : a.span = node.span := by
  cases h with
  | node hn _ => rw [Option.some.inj (hnode.symm.trans hn), Ast.span]

/-- The parentheses around a node are those around the span of the tree that it reads as. -/
theorem Reads.grouping_eq {ctx : Context} {id : NodeId} {a : Ast} (h : Reads ctx.tree.nodes id a) :
    ctx.grouping id = .ok (ctx.groupingAt a.span) := by
  cases h with
  | node hnode _ => rw [Context.grouping, Context.span_eq_ok hnode, ok_bind, Ast.span]; rfl

/-- **Reported parentheses are real grouping.**  In the numbered tree of a program, take a node in
one of the slots where parentheses can be dropped, and assume that every expression in such a slot
follows a token that can stand before it there.  The node was made from a part of a construct.  The
parentheses that are found around the node are the innermost ones of this part, and there are some
if and only if the part is parentheses. -/
theorem Concrete.grouping_toContext {text : String} {program : Concrete}
    (hnested : program.Nested) (hstop : program.span.stop ≤ Text.byteSize text.toList)
    (hprogram : program.is .program = true)
    (hdelimited : program.Everywhere (Delimited text.toList))
    (hleads : program.Everywhere (Leads text.toList program))
    {up id : NodeId} {node : Node} {slot : Slot}
    (hnode : (program.toContext text).tree.nodes[up]? = some node)
    (hslot : (slot, id) ∈ node.kind.slots) :
    (∃ u v, Lowered text.toList program up slot id u v) ∧
      ∀ u v, Lowered text.toList program up slot id u v →
        (program.toContext text).grouping id = .ok (v.parentheses text.toList) ∧
          (v.parentheses text.toList).isSome = v.is .parenthesized := by
  have hopen : isAtomic program.label = false := by
    simp only [is, beq_iff_eq] at hprogram
    rw [hprogram]
    rfl
  refine ⟨exists_lowered hnested hstop hopen hdelimited hnode hslot, fun u v h => ?_⟩
  have hgrouping : (program.toContext text).grouping id =
      .ok ((program.toContext text).groupingAt (v.toAst text.toList).span) :=
    Reads.grouping_eq h.inner
  rw [hgrouping]
  by_cases hlabel : v.label = .construct .parenthesized
  · obtain ⟨hv, hu⟩ := mem_of_mem_slots h.part
    obtain ⟨hfound, hsome⟩ :=
      groupingAt_toAst hnested hdelimited (h.shows.child hu hv) hlabel
    rw [hfound, hsome, is, hlabel, beq_self_eq_true]
    exact ⟨rfl, rfl⟩
  · have hnone := groupingAt_of_leads hnested hdelimited (h.shows.everywhere hleads).here h.part
      hlabel
    rw [hnone, parentheses_of_ne _ hlabel, is, beq_eq_false_iff_ne.2 hlabel]
    exact ⟨rfl, rfl⟩

/-- The text `[f(x),(/**/(y))]`. -/
def groupedText : String := "[f(x),(/**/(y))]"

/-- The program of this text, with all its signs. -/
def groupedProgram : Concrete :=
  let leaf (label : Label) (role : Option Role) (start stop : Nat) : Concrete :=
    .node label role (.upTo start stop) []
  .node (.construct .program) none (.upTo 0 16) [
    .node (.construct .expressionStatement) none (.upTo 0 16) [
      .node (.construct .array) none (.upTo 0 16) [
        leaf (.sign "[") none 0 1,
        .node (.construct .callExpression) none (.upTo 1 5) [
          leaf (.construct .identifier) (some .callee) 1 2,
          .node (.construct .arguments) (some .arguments) (.upTo 2 5) [
            leaf (.sign "(") none 2 3,
            leaf (.construct .identifier) none 3 4,
            leaf (.sign ")") none 4 5]],
        leaf (.sign ",") none 5 6,
        .node (.construct .parenthesized) none (.upTo 6 15) [
          leaf (.sign "(") none 6 7,
          leaf (.construct .comment) none 7 11,
          .node (.construct .parenthesized) none (.upTo 11 14) [
            leaf (.sign "(") none 11 12,
            leaf (.construct .identifier) none 12 13,
            leaf (.sign ")") none 13 14],
          leaf (.sign ")") none 14 15],
        leaf (.sign "]") none 15 16]]]

/-- The inner parentheses are found around the name `y`, which has the number 6 and is an element of
the array with the number 2. -/
theorem Concrete.grouping_toContext_element :
    (groupedProgram.Nested ∧ groupedProgram.span.stop ≤ Text.byteSize groupedText.toList ∧
      groupedProgram.is .program = true ∧
      groupedProgram.Everywhere (Delimited groupedText.toList) ∧
      groupedProgram.Everywhere (Leads groupedText.toList groupedProgram)) ∧
    (∃ u v, Lowered groupedText.toList groupedProgram 2 .element 6 u v) ∧
      (groupedProgram.toContext groupedText).grouping 6 =
        .ok (some (⟨.punctuator, "(", .upTo 11 12⟩, ⟨.punctuator, ")", .upTo 13 14⟩)) := by
  have hnested : groupedProgram.Nested := by
    simp [groupedProgram, Span.contains, span]
  have hstop : groupedProgram.span.stop ≤ Text.byteSize groupedText.toList := by decide
  have hdelimited : groupedProgram.Everywhere (Delimited groupedText.toList) := by decide +kernel
  have hleads : groupedProgram.Everywhere (Leads groupedText.toList groupedProgram) := by
    decide +kernel
  have harray : (groupedProgram.toContext groupedText).tree.nodes[2]? =
      some ⟨.array [3, 6], .upTo 0 16, some 1⟩ := by decide +kernel
  have hname : (groupedProgram.toContext groupedText).tree.nodes[6]? =
      some ⟨.identifier "y", .upTo 12 13, some 2⟩ := by decide +kernel
  have helement : (Slot.element, 6) ∈ (Kind.array [3, 6]).slots := by decide
  obtain ⟨⟨u, v, h⟩, hall⟩ :=
    grouping_toContext hnested hstop rfl hdelimited hleads harray helement
  -- of all expressions in a slot, only the element with this name has its span
  have hparts : groupedProgram.Everywhere fun u => ∀ p ∈ u.slots groupedText.toList,
      (p.2.toAst groupedText.toList).span = .upTo 12 13 → p.2.parentheses groupedText.toList =
        some (⟨.punctuator, "(", .upTo 11 12⟩, ⟨.punctuator, ")", .upTo 13 14⟩) := by
    decide +kernel
  refine ⟨⟨hnested, hstop, rfl, hdelimited, hleads⟩, ⟨u, v, h⟩, ?_⟩
  rw [(hall u v h).1, (h.shows.everywhere hparts).here _ h.part (h.inner.span_eq hname)]

end Pare
