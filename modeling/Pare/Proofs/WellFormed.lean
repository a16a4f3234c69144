import Mathlib.Tactic.MkIffOfInductiveProp
import Pare.Detection
import Pare.Proofs.Lexemes
import Pare.Proofs.Preorder

/-!
**Well-formed contexts.**

A tree describes a source when the two agree: nodes start and end with code tokens, parts lie inside
the whole, and those constructs that the rules take apart have the tokens that the language gives
them.  Every statement about what the rules report and offer is made for such contexts.

Main definitions:

* `Pare.Context.tokensOf` — the code tokens of a node;
* `Pare.Context.WellFormed` — a tree that agrees with its source;
* `Pare.Context.Shaped` — the part of this agreement that the rules rely on;
* `Pare.Context.Anchored` — the part of this that is about where nodes are;
* `Pare.Context.Braced` — a block of one statement between its braces.

Main results:

* `Pare.Context.Shaped.ranked`, `Pare.Context.Shaped.descend` — the tree can be walked, and
  every way down comes to an end;
* `Pare.Context.Anchored.exists_first`, `Pare.Context.Anchored.exists_last` — every node but
  the program has outermost tokens, and they stand at the ends of the node;
* `Pare.Context.Braced.lexemesIn_eq` — the lexemes of a block of one statement;
* `Pare.Context.instDecidableWellFormed` — whether a context is well formed can be computed.
-/

set_option relaxedAutoImplicit false
set_option autoImplicit false

namespace Pare

/-! ### The tokens of a node -/

/-- The code tokens of a node; a missing node has none. -/
def Context.tokensOf (ctx : Context) (id : NodeId) : List Token :=
  match ctx.tree.nodes[id]? with
  | some node => ctx.source.tokensIn node.span
  | none => []

theorem Context.tokensOf_eq {ctx : Context} {id : NodeId} {node : Node}
    (h : ctx.tree.nodes[id]? = some node) : ctx.tokensOf id = ctx.source.tokensIn node.span := by
  simp only [tokensOf, h]

theorem Context.kind_eq_ok {ctx : Context} {id : NodeId} {node : Node}
    (h : ctx.tree.nodes[id]? = some node) : ctx.kind id = .ok node.kind :=
  Tree.kind_eq_ok h

theorem Context.span_eq_ok {ctx : Context} {id : NodeId} {node : Node}
    (h : ctx.tree.nodes[id]? = some node) : ctx.span id = .ok node.span :=
  Tree.span_eq_ok h

/-- A node of a known kind is there. -/
theorem Context.exists_node {ctx : Context} {id : NodeId} {kind : Kind NodeId}
    (h : ctx.kind id = .ok kind) : ∃ node, ctx.tree.nodes[id]? = some node ∧ node.kind = kind := by
  cases hnode : ctx.tree.nodes[id]? with
  | none =>
      rw [Context.kind, Tree.kind, Tree.node, hnode] at h
      cases h
  | some node =>
      rw [Context.kind_eq_ok hnode] at h
      exact ⟨node, rfl, Except.ok.inj h⟩

/-- A node with a span is there. -/
theorem Context.exists_node_of_span {ctx : Context} {id : NodeId} {span : Span}
    (h : ctx.span id = .ok span) :
    ∃ node, ctx.tree.nodes[id]? = some node ∧ node.span = span := by
  cases hnode : ctx.tree.nodes[id]? with
  | none =>
      rw [Context.span, Tree.span, Tree.node, hnode] at h
      cases h
  | some node =>
      rw [Context.span_eq_ok hnode] at h
      exact ⟨node, rfl, Except.ok.inj h⟩

theorem Context.parent_eq_ok {ctx : Context} {id : NodeId} {node : Node}
    (h : ctx.tree.nodes[id]? = some node) : ctx.parent id = .ok node.parent :=
  Tree.parent_eq_ok h

theorem Context.grouping_eq_ok {ctx : Context} {id : NodeId} {node : Node}
    (h : ctx.tree.nodes[id]? = some node) : ctx.grouping id = .ok (ctx.groupingAt node.span) := by
  rw [grouping, span_eq_ok h]
  rfl

/-- The parentheses around a span are its neighbours. -/
theorem Context.groupingAt_eq_some {ctx : Context} {span : Span} {left right : Token}
    (h : ctx.groupingAt span = some (left, right)) :
    ctx.source.tokenBefore span = some left ∧ ctx.source.tokenAfter span = some right ∧
      left.isSign "(" = true ∧ right.isSign ")" = true := by
  simp only [groupingAt, Option.bind_eq_bind, Option.bind_eq_some_iff] at h
  obtain ⟨before, hbefore, after, hafter, h⟩ := h
  split at h
  · rename_i hsigns
    simp only [Option.some.injEq, Prod.mk.injEq] at h
    obtain ⟨rfl, rfl⟩ := h
    simp only [Bool.and_eq_true] at hsigns
    exact ⟨hbefore, hafter, hsigns.1.1.1, hsigns.1.2⟩
  · cases h

/-! ### Agreement of tree and source -/

/-- A tree that agrees with its source. -/
@[mk_iff]
structure Context.WellFormed (ctx : Context) : Prop where
  /-- Tokens and comments hold text, are apart, and have the text of their places. -/
  source : ctx.source.WellFormed
  /-- The program is there and has no parent. -/
  root : ∃ node ∈ ctx.tree.nodes[Tree.root]?, node.parent = none
  /-- Every node but the program starts with a code token, ends with one, and holds text. -/
  aligned : ∀ (id : NodeId) (node : Node), ctx.tree.nodes[id]? = some node → id ≠ Tree.root →
    (∃ t ∈ ctx.source.tokens.toList, t.span.start = node.span.start) ∧
      (∃ t ∈ ctx.source.tokens.toList, t.span.stop = node.span.stop) ∧
      node.span.start < node.span.stop
  /-- A part is a node with a greater number, whose parent is the whole and which lies inside the
  whole. -/
  parts : ∀ (id : Nat) (node : Node), ctx.tree.nodes[id]? = some node →
    ∀ part ∈ node.kind.children, id < part ∧ ∃ inner ∈ ctx.tree.nodes[part]?,
      inner.parent = some id ∧ node.span.contains inner.span = true
  /-- Every node but the program is listed by its parent, once. -/
  listed : ∀ (id : NodeId) (node : Node), ctx.tree.nodes[id]? = some node → id ≠ Tree.root →
    ∃ parent ∈ node.parent, (ctx.tree.parts parent).count id = 1
  /-- The tokens of a block are its braces and the tokens of its statements. -/
  block : ∀ (id : NodeId) (node : Node) (body : List NodeId), ctx.tree.nodes[id]? = some node →
    node.kind = .block body → ∃ left right, left.isSign "\x7b" = true ∧
      right.isSign "\x7d" = true ∧
      ctx.tokensOf id = left :: body.flatMap ctx.tokensOf ++ [right]
  /-- The tokens of a `return` are the keyword, the value, perhaps in parentheses, and perhaps a
  semicolon. -/
  returned : ∀ (id : NodeId) (node : Node) (argument : Option NodeId),
    ctx.tree.nodes[id]? = some node → node.kind = .returnStatement argument →
    ∃ keyword opening closing tail, keyword.isWord "return" = true ∧
      (∀ t ∈ opening, t.isSign "(" = true) ∧ (∀ t ∈ closing, t.isSign ")" = true) ∧
      opening.length = closing.length ∧ (tail = [] ∨ ∃ t, tail = [t] ∧ t.isSign ";" = true) ∧
      ctx.tokensOf id =
        keyword :: (opening ++ argument.toList.flatMap ctx.tokensOf ++ closing ++ tail)
  /-- A string whose value is known is one token, the value between quotes. -/
  quoted : ∀ (id : NodeId) (node : Node) (name : String), ctx.tree.nodes[id]? = some node →
    node.kind = .literal (.string (some name)) →
    ∃ t ∈ ctx.source.tokens.toList, t.span = node.span ∧
      ∃ quote, (quote = '"' ∨ quote = '\'') ∧ t.value.toList = quote :: name.toList ++ [quote]

/-- A tree that agrees with its source as far as the rules rely on it: whatever value a string is
said to have, and however often a part is listed. -/
structure Context.Shaped (ctx : Context) : Prop where
  source : ctx.source.WellFormed
  root : ∃ node ∈ ctx.tree.nodes[Tree.root]?, node.parent = none
  aligned : ∀ (id : NodeId) (node : Node), ctx.tree.nodes[id]? = some node → id ≠ Tree.root →
    (∃ t ∈ ctx.source.tokens.toList, t.span.start = node.span.start) ∧
      (∃ t ∈ ctx.source.tokens.toList, t.span.stop = node.span.stop) ∧
      node.span.start < node.span.stop
  parts : ∀ (id : Nat) (node : Node), ctx.tree.nodes[id]? = some node →
    ∀ part ∈ node.kind.children, id < part ∧ ∃ inner ∈ ctx.tree.nodes[part]?,
      inner.parent = some id ∧ node.span.contains inner.span = true
  /-- Every node but the program is listed by its parent. -/
  listed : ∀ (id : NodeId) (node : Node), ctx.tree.nodes[id]? = some node → id ≠ Tree.root →
    ∃ parent ∈ node.parent, id ∈ ctx.tree.parts parent
  block : ∀ (id : NodeId) (node : Node) (body : List NodeId), ctx.tree.nodes[id]? = some node →
    node.kind = .block body → ∃ left right, left.isSign "\x7b" = true ∧
      right.isSign "\x7d" = true ∧
      ctx.tokensOf id = left :: body.flatMap ctx.tokensOf ++ [right]
  returned : ∀ (id : NodeId) (node : Node) (argument : Option NodeId),
    ctx.tree.nodes[id]? = some node → node.kind = .returnStatement argument →
    ∃ keyword opening closing tail, keyword.isWord "return" = true ∧
      (∀ t ∈ opening, t.isSign "(" = true) ∧ (∀ t ∈ closing, t.isSign ")" = true) ∧
      opening.length = closing.length ∧ (tail = [] ∨ ∃ t, tail = [t] ∧ t.isSign ";" = true) ∧
      ctx.tokensOf id =
        keyword :: (opening ++ argument.toList.flatMap ctx.tokensOf ++ closing ++ tail)

/-- A well-formed context has all that the rules rely on. -/
theorem Context.WellFormed.shaped {ctx : Context} (h : ctx.WellFormed) : ctx.Shaped where
  source := h.source
  root := h.root
  aligned := h.aligned
  parts := h.parts
  listed := by
    intro id node hnode hroot
    obtain ⟨parent, hparent, hcount⟩ := h.listed id node hnode hroot
    exact ⟨parent, hparent, List.count_pos_iff.1 (by omega)⟩
  block := h.block
  returned := h.returned

/-- A tree whose nodes start and end with code tokens of its source and lie inside their wholes,
whatever the tokens of a block or a `return` are. -/
structure Context.Anchored (ctx : Context) : Prop where
  tokens : InOrder ctx.source.tokens.toList
  aligned : ∀ (id : NodeId) (node : Node), ctx.tree.nodes[id]? = some node → id ≠ Tree.root →
    (∃ t ∈ ctx.source.tokens.toList, t.span.start = node.span.start) ∧
      (∃ t ∈ ctx.source.tokens.toList, t.span.stop = node.span.stop) ∧
      node.span.start < node.span.stop
  /-- A part is a node with a greater number, which lies inside the whole. -/
  parts : ∀ (id : Nat) (node : Node), ctx.tree.nodes[id]? = some node →
    ∀ part ∈ node.kind.children, id < part ∧ ∃ inner ∈ ctx.tree.nodes[part]?,
      node.span.contains inner.span = true

theorem Context.Shaped.anchored {ctx : Context} (h : ctx.Shaped) : ctx.Anchored where
  tokens := h.source.tokens
  aligned := h.aligned
  parts := by
    intro id node hnode part hpart
    obtain ⟨hlt, inner, hinner, -, hinside⟩ := h.parts id node hnode part hpart
    exact ⟨hlt, inner, hinner, hinside⟩

/-- A block of one statement: its braces, which stand at its ends, with the statement between
them. -/
structure Context.Braced (ctx : Context) (id stmt : NodeId) (span : Span) (left right : Token) :
    Prop where
  opening : left.isSign "\x7b" = true
  closing : right.isSign "\x7d" = true
  tokens : ctx.tokensOf id = left :: ctx.tokensOf stmt ++ [right]
  start : left.span.start = span.start
  stop : right.span.stop = span.stop

namespace Context.Anchored

variable {ctx : Context}

/-- A part is a node inside the whole, and not the program. -/
theorem exists_part (h : ctx.Anchored) {id part : NodeId} {whole : Node}
    (hwhole : ctx.tree.nodes[id]? = some whole) (hpart : part ∈ whole.kind.children) :
    ∃ node, ctx.tree.nodes[part]? = some node ∧ part ≠ Tree.root ∧
      whole.span.contains node.span = true := by
  obtain ⟨hlt, node, hnode, hinside⟩ := h.parts id whole hwhole part hpart
  exact ⟨node, hnode, Nat.ne_of_gt (Nat.lt_of_le_of_lt (Nat.zero_le id) hlt), hinside⟩

theorem tokensOf_inOrder (h : ctx.Anchored) (id : NodeId) : InOrder (ctx.tokensOf id) := by
  unfold tokensOf
  split
  · exact Source.tokensIn_inOrder h.tokens _
  · exact ⟨List.Pairwise.nil, by simp⟩

theorem firstToken_eq_ok (h : ctx.Anchored) {id : NodeId} {node : Node}
    (hnode : ctx.tree.nodes[id]? = some node) :
    ctx.firstToken id = .ok (ctx.tokensOf id).head? := by
  rw [firstToken, Context.span_eq_ok hnode, tokensOf_eq hnode, ← Source.firstToken_eq h.tokens]
  rfl

theorem lastToken_eq_ok (h : ctx.Anchored) {id : NodeId} {node : Node}
    (hnode : ctx.tree.nodes[id]? = some node) :
    ctx.lastToken id = .ok (ctx.tokensOf id).getLast? := by
  rw [lastToken, Context.span_eq_ok hnode, tokensOf_eq hnode, ← Source.lastToken_eq h.tokens]
  rfl

/-- Every node but the program starts with its first token. -/
theorem exists_first (h : ctx.Anchored) {id : NodeId} {node : Node}
    (hnode : ctx.tree.nodes[id]? = some node) (hroot : id ≠ Tree.root) :
    ∃ t, (ctx.tokensOf id).head? = some t ∧ t.span.start = node.span.start := by
  obtain ⟨⟨t, ht, hstart⟩, ⟨u, hu, hstop⟩, hne⟩ := h.aligned id node hnode hroot
  -- the token at the start ends inside the node, for another one ends where the node does
  have hin : t ∈ ctx.tokensOf id := by
    rw [tokensOf_eq hnode]
    have hle := (h.tokens.le_of_start_lt_stop ht hu (by omega)).2
    exact Source.mem_tokensIn.2 ⟨ht, Nat.le_of_eq hstart.symm, by omega⟩
  obtain ⟨first, hfirst⟩ : ∃ first, (ctx.tokensOf id).head? = some first :=
    ⟨_, List.head?_eq_some_head (List.ne_nil_of_mem hin)⟩
  refine ⟨first, hfirst, ?_⟩
  have horder := h.tokensOf_inOrder id
  have hmem := List.mem_of_mem_head? hfirst
  have hlt := horder.nonempty first hmem
  rw [tokensOf_eq hnode] at hmem
  have hle := (Source.mem_tokensIn.1 hmem).2.1
  rcases horder.head?_precedes hfirst hin with rfl | hbefore
  · exact hstart
  · simp only [Token.Precedes] at hbefore
    omega

/-- Every node but the program ends with its last token. -/
theorem exists_last (h : ctx.Anchored) {id : NodeId} {node : Node}
    (hnode : ctx.tree.nodes[id]? = some node) (hroot : id ≠ Tree.root) :
    ∃ t, (ctx.tokensOf id).getLast? = some t ∧ t.span.stop = node.span.stop := by
  obtain ⟨⟨t, ht, hstart⟩, ⟨u, hu, hstop⟩, hne⟩ := h.aligned id node hnode hroot
  have hin : u ∈ ctx.tokensOf id := by
    rw [tokensOf_eq hnode]
    have hle := (h.tokens.le_of_start_lt_stop ht hu (by omega)).1
    exact Source.mem_tokensIn.2 ⟨hu, by omega, Nat.le_of_eq hstop⟩
  obtain ⟨last, hlast⟩ : ∃ last, (ctx.tokensOf id).getLast? = some last :=
    ⟨_, List.getLast?_eq_some_getLast (List.ne_nil_of_mem hin)⟩
  refine ⟨last, hlast, ?_⟩
  have horder := h.tokensOf_inOrder id
  have hmem := List.mem_of_mem_getLast? hlast
  have hlt := horder.nonempty last hmem
  rw [tokensOf_eq hnode] at hmem
  have hle := (Source.mem_tokensIn.1 hmem).2.2
  rcases horder.precedes_getLast? hlast hin with rfl | hbefore
  · exact hstop
  · simp only [Token.Precedes] at hbefore
    omega

end Context.Anchored

namespace Context.Shaped

variable {ctx : Context}

/-! ### Nodes -/

/-- A part has a greater number than the whole. -/
theorem lt_part (h : ctx.Shaped) {id part : Nat} {whole : Node}
    (hwhole : ctx.tree.nodes[id]? = some whole) (hpart : part ∈ whole.kind.children) : id < part :=
  (h.parts id whole hwhole part hpart).1

/-- A part is a node, and not the program. -/
theorem exists_part (h : ctx.Shaped) {id part : NodeId} {whole : Node}
    (hwhole : ctx.tree.nodes[id]? = some whole) (hpart : part ∈ whole.kind.children) :
    ∃ node, ctx.tree.nodes[part]? = some node ∧ part ≠ Tree.root := by
  obtain ⟨hlt, node, hnode, -⟩ := h.parts id whole hwhole part hpart
  exact ⟨node, hnode, Nat.ne_of_gt (Nat.lt_of_le_of_lt (Nat.zero_le id) hlt)⟩

/-- A part of a node of a known kind is there, and is not the root. -/
theorem exists_part_of_kind (h : ctx.Shaped) {id part : NodeId} {kind inner : Kind NodeId}
    (hkind : ctx.kind id = .ok kind) (hpart : part ∈ kind.children)
    (hinner : ctx.kind part = .ok inner) :
    ∃ node, ctx.tree.nodes[part]? = some node ∧ node.kind = inner ∧ part ≠ Tree.root := by
  obtain ⟨whole, hwhole, rfl⟩ := exists_node hkind
  obtain ⟨node, hnode, hroot⟩ := h.exists_part hwhole hpart
  exact ⟨node, hnode, Except.ok.inj ((Context.kind_eq_ok hnode).symm.trans hinner), hroot⟩

/-- The tree of a well-formed context can be walked. -/
theorem ranked (h : ctx.Shaped) : ctx.tree.Ranked := by
  refine Tree.ranked_iff.2 fun id whole hwhole part hpart => ?_
  obtain ⟨node, hnode, -⟩ := h.exists_part hwhole hpart
  exact ⟨h.lt_part hwhole hpart, Tree.lt_size hnode⟩

/-- What holds of a node if it holds, with one level less to go, of its parts holds of every node
below which there are no more levels than are to go. -/
theorem descend (h : ctx.Shaped) {P : Nat → NodeId → Prop}
    (hstep : ∀ (depth : Nat) (id : NodeId) (node : Node), ctx.tree.nodes[id]? = some node →
      (∀ part ∈ node.kind.children, P depth part) → P (depth + 1) id)
    {depth id : Nat} {node : Node} (hnode : ctx.tree.nodes[id]? = some node)
    (hdepth : ctx.tree.size ≤ id + depth) : P depth id := by
  induction depth generalizing id node with
  | zero =>
      have hlt : id < ctx.tree.size := Tree.lt_size hnode
      omega
  | succ depth ih =>
      -- a part has a greater number, so there are fewer levels below it
      refine hstep depth id node hnode fun part hpart => ?_
      obtain ⟨inner, hinner, -⟩ := h.exists_part hnode hpart
      have hlt := h.lt_part hnode hpart
      exact ih hinner (by omega)

/-- The parent of a node is a node. -/
theorem exists_parent (h : ctx.Shaped) {id : NodeId} {node : Node}
    (hnode : ctx.tree.nodes[id]? = some node) {parent : NodeId}
    (hparent : node.parent = some parent) : ∃ whole, ctx.tree.nodes[parent]? = some whole := by
  by_cases hroot : id = Tree.root
  · obtain ⟨root, hget, hnone⟩ := h.root
    rw [← hroot, hnode] at hget
    rw [← Option.some.inj hget, hparent] at hnone
    cases hnone
  · obtain ⟨parent', hparent', hmem⟩ := h.listed id node hnode hroot
    obtain rfl : parent = parent' := Option.some.inj (hparent.symm.trans hparent')
    unfold Tree.parts at hmem
    split at hmem
    · rename_i whole hwhole
      exact ⟨whole, hwhole⟩
    · simp at hmem

/-! ### Look-ups -/

theorem tokensOf_inOrder (h : ctx.Shaped) (id : NodeId) : InOrder (ctx.tokensOf id) :=
  h.anchored.tokensOf_inOrder id

theorem firstToken_eq_ok (h : ctx.Shaped) {id : NodeId} {node : Node}
    (hnode : ctx.tree.nodes[id]? = some node) :
    ctx.firstToken id = .ok (ctx.tokensOf id).head? :=
  h.anchored.firstToken_eq_ok hnode

theorem lastToken_eq_ok (h : ctx.Shaped) {id : NodeId} {node : Node}
    (hnode : ctx.tree.nodes[id]? = some node) :
    ctx.lastToken id = .ok (ctx.tokensOf id).getLast? :=
  h.anchored.lastToken_eq_ok hnode

/-! ### Outermost tokens -/

/-- Every node but the program starts with its first token. -/
theorem exists_first (h : ctx.Shaped) {id : NodeId} {node : Node}
    (hnode : ctx.tree.nodes[id]? = some node) (hroot : id ≠ Tree.root) :
    ∃ t, (ctx.tokensOf id).head? = some t ∧ t.span.start = node.span.start :=
  h.anchored.exists_first hnode hroot

/-- Every node but the program ends with its last token. -/
theorem exists_last (h : ctx.Shaped) {id : NodeId} {node : Node}
    (hnode : ctx.tree.nodes[id]? = some node) (hroot : id ≠ Tree.root) :
    ∃ t, (ctx.tokensOf id).getLast? = some t ∧ t.span.stop = node.span.stop :=
  h.anchored.exists_last hnode hroot

theorem mem_tokens_of_mem_tokensOf {id : NodeId} {t : Token} (ht : t ∈ ctx.tokensOf id) :
    t ∈ ctx.source.tokens.toList := by
  unfold tokensOf at ht
  split at ht
  · exact (Source.mem_tokensIn.1 ht).1
  · simp at ht

theorem mem_lexemes_of_mem_tokensOf {id : NodeId} {t : Token} (ht : t ∈ ctx.tokensOf id) :
    t ∈ ctx.source.lexemes :=
  Source.mem_lexemes_of_token (mem_tokens_of_mem_tokensOf ht)

/-- Every node but the program starts and ends at a joint. -/
theorem joints (h : ctx.Shaped) {id : NodeId} {node : Node}
    (hnode : ctx.tree.nodes[id]? = some node) (hroot : id ≠ Tree.root) :
    ctx.source.Joint node.span.start ∧ ctx.source.Joint node.span.stop := by
  obtain ⟨⟨t, ht, hstart⟩, ⟨u, hu, hstop⟩, -⟩ := h.aligned id node hnode hroot
  rw [← hstart, ← hstop]
  exact ⟨h.source.joint_start (Source.mem_lexemes_of_token ht),
    h.source.joint_stop (Source.mem_lexemes_of_token hu)⟩

/-- A block of one statement is its braces with the statement between them. -/
theorem exists_braces (h : ctx.Shaped) {id stmt : NodeId} {node : Node}
    (hnode : ctx.tree.nodes[id]? = some node) (hroot : id ≠ Tree.root)
    (hkind : node.kind = .block [stmt]) :
    ∃ left right, ctx.Braced id stmt node.span left right := by
  obtain ⟨left, right, hleft, hright, hall⟩ := h.block id node [stmt] hnode hkind
  obtain ⟨first, hfirst, hstart⟩ := h.exists_first hnode hroot
  obtain ⟨last, hlast, hstop⟩ := h.exists_last hnode hroot
  rw [List.flatMap_singleton] at hall
  rw [hall] at hfirst hlast
  rw [List.getLast?_concat] at hlast
  obtain rfl : left = first := by simpa using hfirst
  obtain rfl : right = last := Option.some.inj hlast
  exact ⟨left, right, hleft, hright, hall, hstart, hstop⟩

end Context.Shaped

namespace Context.Braced

variable {ctx : Context} {id stmt : NodeId} {span : Span} {left right : Token}

theorem head? (h : ctx.Braced id stmt span left right) :
    (ctx.tokensOf id).head? = some left := by
  rw [h.tokens]
  rfl

theorem getLast? (h : ctx.Braced id stmt span left right) :
    (ctx.tokensOf id).getLast? = some right := by
  rw [h.tokens, List.getLast?_concat]

theorem left_mem (h : ctx.Braced id stmt span left right) : left ∈ ctx.source.lexemes :=
  Shaped.mem_lexemes_of_mem_tokensOf (List.mem_of_mem_head? h.head?)

theorem right_mem (h : ctx.Braced id stmt span left right) : right ∈ ctx.source.lexemes :=
  Shaped.mem_lexemes_of_mem_tokensOf (List.mem_of_mem_getLast? h.getLast?)

/-- The tokens of the statement lie between the braces. -/
theorem between (h : ctx.Braced id stmt span left right) (hctx : ctx.Shaped) {t : Token}
    (ht : t ∈ ctx.tokensOf stmt) : left.Precedes t ∧ t.Precedes right := by
  have horder := (hctx.tokensOf_inOrder id).apart
  rw [h.tokens] at horder
  obtain ⟨hfront, -, hlast⟩ := List.pairwise_append.1 horder
  exact ⟨(List.pairwise_cons.1 hfront).1 t ht,
    hlast t (List.mem_cons_of_mem left ht) right (by simp)⟩

/-- The tokens between the braces are those of the statement. -/
theorem mem_of_between (h : ctx.Braced id stmt span left right)
    (hspan : ctx.tokensOf id = ctx.source.tokensIn span) {t : Token}
    (ht : t ∈ ctx.source.tokens.toList) (hne : t.span.start < t.span.stop)
    (hleft : left.Precedes t) (hright : t.Precedes right) : t ∈ ctx.tokensOf stmt := by
  have hl := left.span.start_le_stop
  have hr := right.span.start_le_stop
  have hin : t ∈ ctx.tokensOf id := by
    rw [hspan, Source.mem_tokensIn, ← h.start, ← h.stop]
    simp only [Token.Precedes] at hleft hright
    exact ⟨ht, by omega, by omega⟩
  rw [h.tokens] at hin
  simp only [Token.Precedes] at hleft hright
  rcases List.mem_append.1 hin with hin | hin
  · rcases List.mem_cons.1 hin with rfl | hin
    · omega
    · exact hin
  · obtain rfl := List.mem_singleton.1 hin
    omega

theorem precedes (h : ctx.Braced id stmt span left right) (hctx : ctx.Shaped) :
    left.Precedes right := by
  have horder := (hctx.tokensOf_inOrder id).apart
  rw [h.tokens] at horder
  exact (List.pairwise_append.1 horder).2.2 left (by simp) right (by simp)

/-- The lexemes of the block are the braces and what lies between them. -/
theorem lexemesIn_eq (h : ctx.Braced id stmt span left right) (hctx : ctx.Shaped) :
    ctx.source.lexemesIn span.start span.stop =
      left :: ctx.source.lexemesIn left.span.stop right.span.start ++ [right] := by
  have hle := h.precedes hctx
  have hl := left.span.start_le_stop
  have hr := right.span.start_le_stop
  simp only [Token.Precedes] at hle
  rw [← h.start, ← h.stop, hctx.source.lexemesIn_split h.left_mem (Nat.le_refl _) (by omega),
    hctx.source.lexemesIn_split h.right_mem hle (Nat.le_refl _), hctx.source.lexemesIn_point,
    hctx.source.lexemesIn_point]
  rfl

end Context.Braced

/-! ### Agreement can be checked -/

namespace Kind

/-- The statements of a block. -/
def blockBody? {α : Type} : Kind α → Option (List α)
  | .block body => some body
  | _ => none

/-- The value of a `return`, which may be missing. -/
def returned? {α : Type} : Kind α → Option (Option α)
  | .returnStatement argument => some argument
  | _ => none

/-- The value of a string, if it is known. -/
def quoted? {α : Type} : Kind α → Option String
  | .literal (.string value) => value
  | _ => none

theorem blockBody?_eq_some {α : Type} {kind : Kind α} {body : List α} :
    kind.blockBody? = some body ↔ kind = .block body := by
  cases kind <;> simp [blockBody?]

theorem returned?_eq_some {α : Type} {kind : Kind α} {argument : Option α} :
    kind.returned? = some argument ↔ kind = .returnStatement argument := by
  cases kind <;> simp [returned?]

theorem quoted?_eq_some {α : Type} {kind : Kind α} {name : String} :
    kind.quoted? = some name ↔ kind = .literal (.string (some name)) := by
  cases kind with
  | literal value => cases value <;> simp [quoted?]
  | _ => simp [quoted?]

end Kind

/-- The braces of a block are found at its ends. -/
theorem exists_braces_iff {ts inner : List Token} :
    (∃ left right : Token, left.isSign "\x7b" = true ∧ right.isSign "\x7d" = true ∧
      ts = left :: inner ++ [right]) ↔
    ∃ left ∈ ts.head?, ∃ right ∈ ts.getLast?, left.isSign "\x7b" = true ∧
      right.isSign "\x7d" = true ∧ ts = left :: inner ++ [right] := by
  constructor
  · rintro ⟨left, right, hleft, hright, rfl⟩
    exact ⟨left, rfl, right, List.getLast?_concat, hleft, hright, rfl⟩
  · rintro ⟨left, -, right, -, h⟩
    exact ⟨left, right, h⟩

/-- The parts of a `return` are found by the number of parentheses around the value. -/
theorem exists_returned_iff {ts value : List Token} :
    (∃ keyword opening closing tail, keyword.isWord "return" = true ∧
      (∀ t ∈ opening, t.isSign "(" = true) ∧ (∀ t ∈ closing, t.isSign ")" = true) ∧
      opening.length = closing.length ∧ (tail = [] ∨ ∃ t, tail = [t] ∧ t.isSign ";" = true) ∧
      ts = keyword :: (opening ++ value ++ closing ++ tail)) ↔
    ∃ keyword ∈ ts.head?, ∃ n < ts.length, ∃ opening ∈ [(ts.drop 1).take n],
      ∃ closing ∈ [(ts.drop (1 + n + value.length)).take n],
      ∃ tail ∈ [ts.drop (1 + n + value.length + n)], keyword.isWord "return" = true ∧
      (∀ t ∈ opening, t.isSign "(" = true) ∧ (∀ t ∈ closing, t.isSign ")" = true) ∧
      opening.length = closing.length ∧
      (tail = [] ∨ ∃ t ∈ tail, tail = [t] ∧ t.isSign ";" = true) ∧
      ts = keyword :: (opening ++ value ++ closing ++ tail) := by
  constructor
  · rintro ⟨keyword, opening, closing, tail, hkeyword, hopening, hclosing, hlength, htail, rfl⟩
    -- the number of parentheses says where the value starts, and its length where it ends
    have hback : (keyword :: (opening ++ value ++ closing ++ tail)).drop
        (1 + opening.length + value.length) = closing ++ tail := by
      rw [List.append_assoc, ← List.cons_append]
      exact List.drop_left' (by simp only [List.length_cons, List.length_append]; omega)
    have hend : (keyword :: (opening ++ value ++ closing ++ tail)).drop
        (1 + opening.length + value.length + opening.length) = tail := by
      rw [← List.drop_drop, hback, hlength, List.drop_left]
    have hlt : opening.length < (keyword :: (opening ++ value ++ closing ++ tail)).length := by
      simp only [List.length_cons, List.length_append]
      omega
    refine ⟨keyword, rfl, opening.length, hlt, opening, by simp, closing, ?_, tail,
      List.mem_singleton.2 hend.symm, hkeyword, hopening, hclosing, hlength, htail.imp id ?_, rfl⟩
    · rw [List.mem_singleton, hback, hlength, List.take_left]
    · rintro ⟨t, rfl, ht⟩
      exact ⟨t, by simp, rfl, ht⟩
  · rintro ⟨keyword, -, _, -, opening, -, closing, -, tail, -, hkeyword, hopening, hclosing,
      hlength, htail, hall⟩
    exact ⟨keyword, opening, closing, tail, hkeyword, hopening, hclosing, hlength,
      htail.imp id fun ⟨t, _, ht⟩ => ⟨t, ht⟩, hall⟩

theorem exists_quote_iff {cs name : List Char} :
    (∃ quote, (quote = '"' ∨ quote = '\'') ∧ cs = quote :: name ++ [quote]) ↔
      cs = '"' :: name ++ ['"'] ∨ cs = '\'' :: name ++ ['\''] := by
  constructor
  · rintro ⟨quote, rfl | rfl, h⟩
    · exact .inl h
    · exact .inr h
  · rintro (h | h)
    · exact ⟨'"', .inl rfl, h⟩
    · exact ⟨'\'', .inr rfl, h⟩

section Instances

variable {ts inner : List Token}

instance instDecidableBraces : Decidable (∃ left right : Token, left.isSign "\x7b" = true ∧
    right.isSign "\x7d" = true ∧ ts = left :: inner ++ [right]) :=
  decidable_of_iff _ exists_braces_iff.symm

instance instDecidableReturned : Decidable (∃ keyword opening closing tail,
    keyword.isWord "return" = true ∧
    (∀ t ∈ opening, t.isSign "(" = true) ∧ (∀ t ∈ closing, t.isSign ")" = true) ∧
    opening.length = closing.length ∧ (tail = [] ∨ ∃ t, tail = [t] ∧ t.isSign ";" = true) ∧
    ts = keyword :: (opening ++ inner ++ closing ++ tail)) :=
  decidable_of_iff _ exists_returned_iff.symm

instance instDecidableQuoted {cs name : List Char} :
    Decidable (∃ quote, (quote = '"' ∨ quote = '\'') ∧ cs = quote :: name ++ [quote]) :=
  decidable_of_iff (cs = '"' :: name ++ ['"'] ∨ cs = '\'' :: name ++ ['\'']) exists_quote_iff.symm

variable {t : Tree} {β : Type}

/-- A statement about all nodes of one form can be checked, if the form can be recognized. -/
@[reducible] def Tree.decidableForall {P : NodeId → Node → β → Prop}
    [∀ id n b, Decidable (P id n b)] {make : β → Kind NodeId} (view : Kind NodeId → Option β)
    (hview : ∀ {kind : Kind NodeId} {b : β}, view kind = some b ↔ kind = make b) :
    Decidable (∀ (id : NodeId) (node : Node) (b : β), t.nodes[id]? = some node →
      node.kind = make b → P id node b) :=
  decidable_of_iff (∀ (id : NodeId) (node : Node), t.nodes[id]? = some node →
      ∀ b ∈ view node.kind, P id node b)
    ⟨fun h id n b hn hb => h id n hn b (hview.2 hb), fun h id n hn b hb => h id n b hn (hview.1 hb)⟩

instance Tree.instDecidableBlocks {P : NodeId → Node → List NodeId → Prop}
    [∀ id n b, Decidable (P id n b)] :
    Decidable (∀ (id : NodeId) (node : Node) (body : List NodeId), t.nodes[id]? = some node →
      node.kind = .block body → P id node body) :=
  Tree.decidableForall Kind.blockBody? Kind.blockBody?_eq_some

instance Tree.instDecidableReturns {P : NodeId → Node → Option NodeId → Prop}
    [∀ id n b, Decidable (P id n b)] :
    Decidable (∀ (id : NodeId) (node : Node) (argument : Option NodeId),
      t.nodes[id]? = some node → node.kind = .returnStatement argument → P id node argument) :=
  Tree.decidableForall Kind.returned? Kind.returned?_eq_some

instance Tree.instDecidableStrings {P : NodeId → Node → String → Prop}
    [∀ id n b, Decidable (P id n b)] :
    Decidable (∀ (id : NodeId) (node : Node) (name : String), t.nodes[id]? = some node →
      node.kind = .literal (.string (some name)) → P id node name) :=
  Tree.decidableForall Kind.quoted? Kind.quoted?_eq_some

end Instances

instance Context.instDecidableWellFormed (ctx : Context) : Decidable ctx.WellFormed :=
  decidable_of_iff _ (Context.wellFormed_iff ctx).symm

end Pare
