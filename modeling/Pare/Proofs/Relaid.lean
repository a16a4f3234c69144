import Pare.Proofs.Related
import Pare.Proofs.WellFormed

/-!
**Two layouts of one program.**

The same code can be laid out in many ways: blanks, line breaks and comments between the tokens may
come and go, and all places in the text move.  What does not change is the number of a token in the
stream of code tokens.  Tokens with one number are twins, and every question about neighbours has
twins for an answer, although it is asked with byte offsets.

Main definitions:

* `Pare.Context.Relaid` — two well-formed contexts that differ in their layout only;
* `Pare.Context.Twin` — tokens with one number;
* `Pare.Context.Stretch` — spans that run from one token to another, the same in both contexts;
* `Pare.Alike` — two computations that both have results, which are related.

Main results:

* `Pare.Context.Relaid.tree_kind_eq`, `Pare.Context.Relaid.tree_parent_eq` — the trees look the
  same;
* `Pare.Context.Relaid.stretch` — every node but the program is a stretch;
* `Pare.Context.Stretch.notAfter_eq` — stretches have the same order in both contexts;
* `Pare.Context.Stretch.tokenBefore`, `Pare.Context.Stretch.tokenAfter` — neighbours are twins.
-/

set_option relaxedAutoImplicit false
set_option autoImplicit false

namespace Pare

/-! ### Computations in two contexts -/

section Alike

variable {α β γ δ : Type} {R : α → β → Prop} {S : γ → δ → Prop}

/-- Both computations have a result, and the results are related. -/
def Alike (R : α → β → Prop) (x : Except Fault α) (y : Except Fault β) : Prop :=
  ∃ a b, x = .ok a ∧ y = .ok b ∧ R a b

theorem alike_pure {a : α} {b : β} (h : R a b) : Alike R (pure a) (pure b) := ⟨a, b, rfl, rfl, h⟩

theorem Alike.bind {x : Except Fault α} {y : Except Fault β} {f : α → Except Fault γ}
    {g : β → Except Fault δ} (hx : Alike R x y) (hf : ∀ a b, R a b → Alike S (f a) (g b)) :
    Alike S (x >>= f) (y >>= g) := by
  obtain ⟨a, b, rfl, rfl, hab⟩ := hx
  exact hf a b hab

/-- Computations that have results whatever these are. -/
theorem Succeeds.alike {P : α → Prop} {Q : β → Prop} {x : Except Fault α} {y : Except Fault β}
    (hx : Succeeds x P) (hy : Succeeds y Q) : Alike (fun a b => P a ∧ Q b) x y := by
  obtain ⟨a, rfl, ha⟩ := hx
  obtain ⟨b, rfl, hb⟩ := hy
  exact ⟨a, b, rfl, rfl, ha, hb⟩

/-- Computations made for every member of a list. -/
theorem alike_mapM {ι : Type} {f : ι → Except Fault α} {g : ι → Except Fault β} {is : List ι}
    (h : ∀ i ∈ is, Alike R (f i) (g i)) : Alike (List.Forall₂ R) (is.mapM f) (is.mapM g) := by
  induction is with
  | nil => exact alike_pure .nil
  | cons i is ih =>
      rw [List.mapM_cons, List.mapM_cons]
      refine (h i (List.mem_cons_self ..)).bind fun a b hab => ?_
      refine (ih fun j hj => h j (List.mem_cons_of_mem i hj)).bind fun as bs habs => ?_
      exact alike_pure (.cons hab habs)

end Alike

/-! ### Order by number -/

/-- In a stream, the order of places is the order of numbers. -/
theorem InOrder.lt_iff {ts : List Token} (h : InOrder ts) {i j : Nat} {t u : Token}
    (ht : ts[i]? = some t) (hu : ts[j]? = some u) :
    (t.span.stop ≤ u.span.start ↔ i < j) ∧ (t.span.start < u.span.start ↔ i < j) ∧
      (t.span.stop < u.span.stop ↔ i < j) := by
  obtain ⟨hi, rfl⟩ := List.getElem?_eq_some_iff.1 ht
  obtain ⟨hj, rfl⟩ := List.getElem?_eq_some_iff.1 hu
  have hpair := List.pairwise_iff_getElem.1 h.apart
  have hti := h.nonempty _ (List.getElem_mem hi)
  have htj := h.nonempty _ (List.getElem_mem hj)
  rcases Nat.lt_trichotomy i j with hlt | rfl | hgt
  · have hbefore : ts[i].span.stop ≤ ts[j].span.start := hpair i j hi hj hlt
    omega
  · omega
  · have hbefore : ts[j].span.stop ≤ ts[i].span.start := hpair j i hj hi hgt
    omega

/-! ### Contexts that differ in layout -/

namespace Context

/-- Two well-formed contexts that differ in their layout only. -/
structure Relaid (a b : Context) : Prop where
  left : a.WellFormed
  right : b.WellFormed
  /-- The nodes have the same kinds, with the same parts, and the same parents. -/
  nodes : a.tree.nodes.toList.map (fun n => (n.kind, n.parent)) =
    b.tree.nodes.toList.map fun n => (n.kind, n.parent)
  /-- The code tokens are the same, one by one. -/
  tokens : a.source.tokens.toList.map Token.word = b.source.tokens.toList.map Token.word
  /-- Every node but the program holds the same tokens, by their numbers. -/
  covers : ∀ (id : NodeId) (m n : Node), id ≠ Tree.root → a.tree.nodes[id]? = some m →
    b.tree.nodes[id]? = some n → ∀ (i : Nat) (t u : Token),
      a.source.tokens.toList[i]? = some t → b.source.tokens.toList[i]? = some u →
      (m.span.contains t.span = true ↔ n.span.contains u.span = true)
  /-- The programs start with their texts. -/
  starts : (∀ m ∈ a.tree.nodes[Tree.root]?, m.span.start = 0) ∧
    ∀ n ∈ b.tree.nodes[Tree.root]?, n.span.start = 0

/-- Tokens with one number. -/
def Twin (a b : Context) (t u : Token) : Prop :=
  ∃ i : Nat, a.source.tokens.toList[i]? = some t ∧ b.source.tokens.toList[i]? = some u

/-- Spans that run from one code token to another, the same in both contexts. -/
def Stretch (a b : Context) (s s' : Span) : Prop :=
  ∃ first first' last last', a.Twin b first first' ∧ a.Twin b last last' ∧
    s.start = first.span.start ∧ s'.start = first'.span.start ∧
    s.stop = last.span.stop ∧ s'.stop = last'.span.stop

variable {a b : Context}

/-! ### The trees -/

namespace Relaid

/-- A number has a node in both trees or in neither. -/
theorem node_cases (h : a.Relaid b) (id : NodeId) :
    (a.tree.nodes[id]? = none ∧ b.tree.nodes[id]? = none) ∨
      ∃ m n, a.tree.nodes[id]? = some m ∧ b.tree.nodes[id]? = some n ∧ m.kind = n.kind ∧
        m.parent = n.parent := by
  have hget := congrArg (·[id]?) h.nodes
  simp only [List.getElem?_map, Array.getElem?_toList] at hget
  cases hm : a.tree.nodes[id]? with
  | none =>
      rw [hm] at hget
      exact .inl ⟨rfl, Option.map_eq_none_iff.1 hget.symm⟩
  | some m =>
      rw [hm] at hget
      obtain ⟨n, hn, hsame⟩ := Option.map_eq_some_iff.1 hget.symm
      exact .inr ⟨m, n, rfl, hn, (Prod.mk.inj hsame).1.symm, (Prod.mk.inj hsame).2.symm⟩

/-- A node of one tree is a node of the other. -/
theorem exists_node (h : a.Relaid b) {id : NodeId} {m : Node}
    (hm : a.tree.nodes[id]? = some m) :
    ∃ n, b.tree.nodes[id]? = some n ∧ m.kind = n.kind ∧ m.parent = n.parent := by
  rcases h.node_cases id with ⟨hnone, -⟩ | ⟨m', n, hm', hn, hkind, hparent⟩
  · rw [hm] at hnone
    cases hnone
  · obtain rfl : m = m' := Option.some.inj (hm.symm.trans hm')
    exact ⟨n, hn, hkind, hparent⟩

theorem size_eq (h : a.Relaid b) : a.tree.size = b.tree.size := by
  have hlen := congrArg List.length h.nodes
  rwa [List.length_map, List.length_map, Array.length_toList, Array.length_toList] at hlen

theorem tree_kind_eq (h : a.Relaid b) (id : NodeId) : a.tree.kind id = b.tree.kind id := by
  rcases h.node_cases id with ⟨hm, hn⟩ | ⟨m, n, hm, hn, hkind, -⟩
  · rw [Tree.kind, Tree.kind, Tree.node, Tree.node, hm, hn]
  · rw [Tree.kind_eq_ok hm, Tree.kind_eq_ok hn, hkind]

theorem tree_parent_eq (h : a.Relaid b) (id : NodeId) : a.tree.parent id = b.tree.parent id := by
  rcases h.node_cases id with ⟨hm, hn⟩ | ⟨m, n, hm, hn, -, hparent⟩
  · rw [Tree.parent, Tree.parent, Tree.node, Tree.node, hm, hn]
  · rw [Tree.parent_eq_ok hm, Tree.parent_eq_ok hn, hparent]

theorem parts_eq (h : a.Relaid b) (id : NodeId) : a.tree.parts id = b.tree.parts id := by
  rcases h.node_cases id with ⟨hm, hn⟩ | ⟨m, n, hm, hn, hkind, -⟩
  · rw [Tree.parts, Tree.parts, hm, hn]
  · rw [Tree.parts_eq hm, Tree.parts_eq hn, hkind]

theorem kind_eq (h : a.Relaid b) (id : NodeId) : a.kind id = b.kind id := h.tree_kind_eq id

theorem preorder_eq (h : a.Relaid b) (depth : Nat) (id : NodeId) :
    a.tree.preorder depth id = b.tree.preorder depth id := by
  induction depth generalizing id with
  | zero => rfl
  | succ depth ih => rw [Tree.preorder, Tree.preorder, h.parts_eq, funext ih]

/-- Both trees are walked in the same order. -/
theorem descendants_eq (h : a.Relaid b) :
    a.tree.descendants Tree.root = b.tree.descendants Tree.root := by
  obtain ⟨m, hm, -⟩ := h.left.root
  obtain ⟨n, hn, -⟩ := h.exists_node hm
  rw [h.left.shaped.ranked.descendants_eq_ok (Tree.lt_size hm),
    h.right.shaped.ranked.descendants_eq_ok (Tree.lt_size hn), h.size_eq, h.preorder_eq]

end Relaid

/-! ### Twins -/

section Twins

variable {t t' u u' : Token}

theorem Twin.word_eq (h : a.Relaid b) (ht : a.Twin b t u) :
    t.kind = u.kind ∧ t.value = u.value := by
  obtain ⟨i, hi, hi'⟩ := ht
  have hget := congrArg (·[i]?) h.tokens
  simpa [hi, hi', Token.word] using hget

theorem Twin.isSign_eq (h : a.Relaid b) (ht : a.Twin b t u) (text : String) :
    t.isSign text = u.isSign text := by
  obtain ⟨hkind, hvalue⟩ := ht.word_eq h
  rw [Token.isSign, Token.isSign, hkind, hvalue]

/-- Twins stand in the same order in both contexts. -/
theorem Twin.lt_iff (h : a.Relaid b) (ht : a.Twin b t u) (ht' : a.Twin b t' u') :
    (t.span.stop ≤ t'.span.start ↔ u.span.stop ≤ u'.span.start) ∧
      (t.span.start < t'.span.start ↔ u.span.start < u'.span.start) ∧
      (t.span.stop < t'.span.stop ↔ u.span.stop < u'.span.stop) := by
  obtain ⟨i, hi, hi'⟩ := ht
  obtain ⟨j, hj, hj'⟩ := ht'
  obtain ⟨hbefore, hstart, hstop⟩ := h.left.source.tokens.lt_iff hi hj
  obtain ⟨hbefore', hstart', hstop'⟩ := h.right.source.tokens.lt_iff hi' hj'
  exact ⟨hbefore.trans hbefore'.symm, hstart.trans hstart'.symm, hstop.trans hstop'.symm⟩

theorem Twin.span_eq_iff (h : a.Relaid b) (ht : a.Twin b t u) (ht' : a.Twin b t' u') :
    t.span = t'.span ↔ u.span = u'.span := by
  obtain ⟨-, hstart, hstop⟩ := ht.lt_iff h ht'
  obtain ⟨-, hstart', hstop'⟩ := ht'.lt_iff h ht
  rw [Span.ext_iff, Span.ext_iff]
  omega

/-- The streams are twins, number by number. -/
theorem Relaid.forall₂ (h : a.Relaid b) :
    List.Forall₂ (a.Twin b) a.source.tokens.toList b.source.tokens.toList := by
  have hlen : a.source.tokens.toList.length = b.source.tokens.toList.length := by
    have hlen := congrArg List.length h.tokens
    simpa using hlen
  refine List.forall₂_iff_get.2 ⟨hlen, fun i hi hi' => ⟨i, ?_, ?_⟩⟩
  · exact List.getElem?_eq_getElem hi
  · exact List.getElem?_eq_getElem hi'

theorem Relaid.filter (h : a.Relaid b) {p q : Token → Bool}
    (hpq : ∀ t u, a.Twin b t u → (p t = true ↔ q u = true)) :
    List.Forall₂ (a.Twin b) (a.source.tokens.toList.filter p) (b.source.tokens.toList.filter q) :=
  List.rel_filter (fun t u => hpq t u) h.forall₂

end Twins

/-! ### Stretches -/

theorem Twin.stretch {t u : Token} (h : a.Twin b t u) : a.Stretch b t.span u.span :=
  ⟨t, u, t, u, h, h, rfl, rfl, rfl, rfl⟩

section Nodes

variable {id : NodeId} {m n : Node}

/-- A node has the same tokens in both contexts. -/
theorem Relaid.tokensOf (h : a.Relaid b) (hm : a.tree.nodes[id]? = some m)
    (hn : b.tree.nodes[id]? = some n) (hroot : id ≠ Tree.root) :
    List.Forall₂ (a.Twin b) (a.tokensOf id) (b.tokensOf id) := by
  rw [tokensOf_eq hm, tokensOf_eq hn]
  refine h.filter fun t u ⟨i, hi, hi'⟩ => ?_
  exact h.covers id m n hroot hm hn i t u hi hi'

/-- Every node but the program is a stretch. -/
theorem Relaid.stretch (h : a.Relaid b) (hm : a.tree.nodes[id]? = some m)
    (hn : b.tree.nodes[id]? = some n) (hroot : id ≠ Tree.root) : a.Stretch b m.span n.span := by
  have htokens := h.tokensOf hm hn hroot
  obtain ⟨first, hfirst, hstart⟩ := h.left.shaped.exists_first hm hroot
  obtain ⟨first', hfirst', hstart'⟩ := h.right.shaped.exists_first hn hroot
  obtain ⟨last, hlast, hstop⟩ := h.left.shaped.exists_last hm hroot
  obtain ⟨last', hlast', hstop'⟩ := h.right.shaped.exists_last hn hroot
  have hhead := rel_head? htokens
  have hend := rel_getLast? htokens
  rw [hfirst, hfirst', Option.rel_some_some] at hhead
  rw [hlast, hlast', Option.rel_some_some] at hend
  exact ⟨first, first', last, last', hhead, hend, hstart.symm, hstart'.symm, hstop.symm,
    hstop'.symm⟩

/-- The first tokens of a node are twins. -/
theorem Relaid.firstToken (h : a.Relaid b) (hm : a.tree.nodes[id]? = some m)
    (hn : b.tree.nodes[id]? = some n) (hroot : id ≠ Tree.root) :
    Alike (Option.Rel (a.Twin b)) (a.firstToken id) (b.firstToken id) := by
  rw [h.left.shaped.firstToken_eq_ok hm, h.right.shaped.firstToken_eq_ok hn]
  exact alike_pure (rel_head? (h.tokensOf hm hn hroot))

end Nodes

namespace Stretch

variable {s s' r r' : Span}

/-- Stretches have the same order in both contexts. -/
theorem notAfter_eq (h : a.Relaid b) (hs : a.Stretch b s s') (hr : a.Stretch b r r') :
    s.notAfter r = s'.notAfter r' := by
  obtain ⟨first, first', last, last', hfirst, hlast, hstart, hstart', hstop, hstop'⟩ := hs
  obtain ⟨head, head', tail, tail', hhead, htail, hbegin, hbegin', hend, hend'⟩ := hr
  obtain ⟨-, hlt, -⟩ := hfirst.lt_iff h hhead
  obtain ⟨-, hgt, -⟩ := hhead.lt_iff h hfirst
  obtain ⟨-, -, hlate⟩ := htail.lt_iff h hlast
  rw [Bool.eq_iff_iff, Span.notAfter_iff, Span.notAfter_iff]
  omega

/-- The tokens before a stretch are twins. -/
theorem tokenBefore (h : a.Relaid b) (hs : a.Stretch b s s') :
    Option.Rel (a.Twin b) (a.source.tokenBefore s) (b.source.tokenBefore s') := by
  obtain ⟨first, first', -, -, hfirst, -, hstart, hstart', -⟩ := hs
  rw [Source.tokenBefore_eq h.left.source.tokens, Source.tokenBefore_eq h.right.source.tokens]
  refine rel_getLast? (h.filter fun t u htu => ?_)
  rw [decide_eq_true_iff, decide_eq_true_iff, hstart, hstart']
  exact (htu.lt_iff h hfirst).1

/-- The tokens after a stretch are twins. -/
theorem tokenAfter (h : a.Relaid b) (hs : a.Stretch b s s') :
    Option.Rel (a.Twin b) (a.source.tokenAfter s) (b.source.tokenAfter s') := by
  obtain ⟨-, -, last, last', -, hlast, -, -, hstop, hstop'⟩ := hs
  rw [Source.tokenAfter_eq h.left.source.tokens, Source.tokenAfter_eq h.right.source.tokens]
  refine rel_head? (h.filter fun t u htu => ?_)
  rw [decide_eq_true_iff, decide_eq_true_iff, hstop, hstop']
  exact (hlast.lt_iff h htu).1

/-- The parentheses around a stretch are twins. -/
theorem groupingAt (h : a.Relaid b) (hs : a.Stretch b s s') :
    Option.Rel (fun p q => a.Twin b p.1 q.1 ∧ a.Twin b p.2 q.2) (a.groupingAt s)
      (b.groupingAt s') := by
  rw [Context.groupingAt, Context.groupingAt]
  rcases rel_cases (hs.tokenBefore h) with ⟨hx, hy⟩ | ⟨left, left', hx, hy, hleft⟩
  · rw [hx, hy]
    exact .none
  rcases rel_cases (hs.tokenAfter h) with ⟨hz, hw⟩ | ⟨right, right', hz, hw, hright⟩
  · rw [hx, hy, hz, hw]
    exact .none
  -- what was found is in place, so only the signs count
  have hle := (Source.tokenBefore_eq_some h.left.source.tokens hx).2.1
  have hle' := (Source.tokenBefore_eq_some h.right.source.tokens hy).2.1
  have hge := (Source.tokenAfter_eq_some h.left.source.tokens hz).2.1
  have hge' := (Source.tokenAfter_eq_some h.right.source.tokens hw).2.1
  simp only [hx, hy, hz, hw, hle, hle', hge, hge', hleft.isSign_eq h, hright.isSign_eq h,
    Option.bind_eq_bind, Option.bind_some, decide_true, Bool.and_true]
  split
  · exact .some ⟨hleft, hright⟩
  · exact .none

end Stretch

/-- Nothing stands before a program, so no parentheses stand around it. -/
theorem groupingAt_eq_none {ctx : Context} (h : ctx.WellFormed) {s : Span} (hstart : s.start = 0) :
    ctx.groupingAt s = none := by
  rw [groupingAt]
  cases hbefore : ctx.source.tokenBefore s with
  | none => rfl
  | some t =>
      obtain ⟨hmem, hle, -⟩ := Source.tokenBefore_eq_some h.source.tokens hbefore
      have hlt := h.source.tokens.nonempty t hmem
      omega

/-- The parentheses around a node are twins. -/
theorem Relaid.groupingAt (h : a.Relaid b) {id : NodeId} {m n : Node}
    (hm : a.tree.nodes[id]? = some m) (hn : b.tree.nodes[id]? = some n) :
    Option.Rel (fun p q => a.Twin b p.1 q.1 ∧ a.Twin b p.2 q.2) (a.groupingAt m.span)
      (b.groupingAt n.span) := by
  by_cases hroot : id = Tree.root
  · subst hroot
    rw [groupingAt_eq_none h.left (h.starts.1 m hm), groupingAt_eq_none h.right (h.starts.2 n hn)]
    exact .none
  · exact (h.stretch hm hn hroot).groupingAt h

end Context

end Pare
