import Pare.Proofs.Nesting
import Pare.Proofs.Preorder

/-!
**Numbers go down the tree in order.**

Numbering takes a number for a node before it looks at the parts of the node, numbers the parts in
order, and only then knows the kind of the node.  So the numbers of a node and of all below it are
without a gap, parts have greater numbers than the whole, and a walk down the tree meets the nodes
in the order of their numbers.  All of this, and that parts and parents agree, is one fact about a
stretch of the array: it is a row of trees, one beside the other.

Main definitions:

* `Pare.Row` — a stretch of nodes that is a row of trees under one parent;
* `Pare.Tree.Numbered` — a tree that is the program and a row of its parts;
* `Pare.Extends`, `Pare.Adds` — more nodes behind those of an array, and a computation that adds a
  row of trees to those added before;
* `Pare.Tree.Preordered` — numbers, parents, parts and spans agree.

Main results:

* `Pare.Row.append`, `Pare.Row.congr` — rows can be joined, and depend on their own nodes only;
* `Pare.Row.behind`, `Pare.Row.exists_parent` — every node of a row has its parts as a row behind
  it, and is listed by its parent;
* `Pare.Row.flatMap_preorder` — a walk meets the nodes of a row in the order of their numbers;
* `Pare.Ast.adds_numberKind` — numbering the parts of a construct makes a row of them;
* `Pare.Concrete.toTree_preordered` — **the tree of a program is numbered in order**.
-/

set_option relaxedAutoImplicit false
set_option autoImplicit false

namespace Pare

/-! ### Rows of trees -/

/-- The nodes from `lo` up to `hi` are the trees with the given numbers, one beside the other, each
a node with all below it.  All of them are parts of `parent` and lie inside the span `outer`. -/
inductive Row (nodes : Array Node) : NodeId → Span → Nat → List NodeId → Nat → Prop
  | nil {parent : NodeId} {outer : Span} {lo : Nat} : Row nodes parent outer lo [] lo
  | cons {parent : NodeId} {outer : Span} {lo mid hi : Nat} {ids : List NodeId} {node : Node}
      (hnode : nodes[lo]? = some node) (hparent : node.parent = some parent)
      (hinside : outer.contains node.span = true)
      (hbelow : Row nodes lo node.span (lo + 1) node.kind.children mid)
      (hrest : Row nodes parent outer mid ids hi) : Row nodes parent outer lo (lo :: ids) hi

namespace Row

variable {nodes : Array Node} {parent : NodeId} {outer : Span} {lo hi : Nat} {ids : List NodeId}

theorem le (h : Row nodes parent outer lo ids hi) : lo ≤ hi := by
  induction h with
  | nil => exact Nat.le_refl _
  | cons _ _ _ _ _ ihbelow ihrest => omega

/-- Rows that meet can be joined. -/
theorem append {mid : Nat} {more : List NodeId} (h : Row nodes parent outer lo ids mid)
    (h' : Row nodes parent outer mid more hi) : Row nodes parent outer lo (ids ++ more) hi := by
  induction h with
  | nil => exact h'
  | cons hnode hparent hinside hbelow _ _ ihrest =>
      exact .cons hnode hparent hinside hbelow (ihrest h')

/-- A row depends on its own nodes only. -/
theorem congr {nodes' : Array Node} (h : Row nodes parent outer lo ids hi)
    (hsame : ∀ i, lo ≤ i → i < hi → nodes'[i]? = nodes[i]?) :
    Row nodes' parent outer lo ids hi := by
  induction h with
  | nil => exact .nil
  | @cons parent outer lo mid hi ids node hnode hparent hinside hbelow hrest ihbelow ihrest =>
      have hmid := hbelow.le
      have hhi := hrest.le
      refine .cons ?_ hparent hinside (ihbelow fun i hi => ?_) (ihrest fun i hi => ?_)
      · rw [hsame lo (Nat.le_refl _) (by omega), hnode]
      · intro hlt
        exact hsame i (by omega) (by omega)
      · exact hsame i (by omega)

/-- The trees of a row have increasing numbers, all of them numbers of its nodes. -/
theorem pairwise_lt (h : Row nodes parent outer lo ids hi) :
    (ids.Pairwise fun a b : Nat => a < b) ∧ ∀ id : Nat, id ∈ ids → lo ≤ id ∧ id < hi := by
  induction h with
  | nil => exact ⟨.nil, by simp⟩
  | @cons parent outer lo mid hi ids node _ _ _ hbelow hrest _ ihrest =>
      have hmid := hbelow.le
      have hhi := hrest.le
      obtain ⟨hpair, hbounds⟩ := ihrest
      refine ⟨List.pairwise_cons.2 ⟨fun id hid => ?_, hpair⟩, fun id hid => ?_⟩
      · have := hbounds id hid
        omega
      · rcases List.mem_cons.1 hid with rfl | hid
        · omega
        · have := hbounds id hid
          omega

/-- A tree of a row is a node with the parent of the row, inside the span of the row. -/
theorem of_mem (h : Row nodes parent outer lo ids hi) {id : NodeId} (hid : id ∈ ids) :
    ∃ node, nodes[id]? = some node ∧ node.parent = some parent ∧
      outer.contains node.span = true := by
  induction h with
  | nil => simp at hid
  | cons hnode hparent hinside _ _ _ ihrest =>
      rcases List.mem_cons.1 hid with rfl | hid
      · exact ⟨_, hnode, hparent, hinside⟩
      · exact ihrest hid

/-- Every node of a row has its parts as a row behind it. -/
theorem behind (h : Row nodes parent outer lo ids hi) {id : Nat} (hlo : lo ≤ id) (hhi : id < hi) :
    ∃ node stop, nodes[id]? = some node ∧ stop ≤ hi ∧
      Row nodes id node.span (id + 1) node.kind.children stop := by
  induction h with
  | nil => omega
  | @cons parent outer lo mid hi ids node hnode _ _ hbelow hrest ihbelow ihrest =>
      have hmid := hbelow.le
      have hend := hrest.le
      rcases Nat.eq_or_lt_of_le hlo with rfl | hlt
      · exact ⟨node, mid, hnode, hend, hbelow⟩
      · rcases Nat.lt_or_ge id mid with hin | hout
        · obtain ⟨inner, stop, hinner, hstop, hrow⟩ := ihbelow hlt hin
          exact ⟨inner, stop, hinner, Nat.le_trans hstop hend, hrow⟩
        · exact ihrest hout hhi

/-- Every node of a row is one of its trees or is listed by another node of the row. -/
theorem exists_parent (h : Row nodes parent outer lo ids hi) {id : Nat} (hlo : lo ≤ id)
    (hhi : id < hi) : ∃ node up, nodes[id]? = some node ∧ node.parent = some up ∧
      (up = parent ∧ id ∈ ids ∨ ∃ whole, nodes[up]? = some whole ∧ id ∈ whole.kind.children) := by
  induction h with
  | nil => omega
  | @cons parent outer lo mid hi ids node hnode hparent _ hbelow hrest ihbelow ihrest =>
      rcases Nat.eq_or_lt_of_le hlo with rfl | hlt
      · exact ⟨node, parent, hnode, hparent, .inl ⟨rfl, List.mem_cons_self ..⟩⟩
      · rcases Nat.lt_or_ge id mid with hin | hout
        · obtain ⟨inner, up, hinner, hup, ⟨rfl, hlisted⟩ | hlisted⟩ := ihbelow hlt hin
          · exact ⟨inner, _, hinner, hup, .inr ⟨node, hnode, hlisted⟩⟩
          · exact ⟨inner, up, hinner, hup, .inr hlisted⟩
        · obtain ⟨inner, up, hinner, hup, ⟨rfl, hlisted⟩ | hlisted⟩ := ihrest hout hhi
          · exact ⟨inner, up, hinner, hup, .inl ⟨rfl, List.mem_cons_of_mem lo hlisted⟩⟩
          · exact ⟨inner, up, hinner, hup, .inr hlisted⟩

/-- A walk meets the nodes of a row in the order of their numbers. -/
theorem flatMap_preorder {t : Tree} (h : Row t.nodes parent outer lo ids hi) (hranked : t.Ranked) :
    ids.flatMap (t.preorder t.size) = List.range' lo (hi - lo) := by
  induction h with
  | nil => simp
  | @cons parent outer lo mid hi ids node hnode _ _ hbelow hrest ihbelow ihrest =>
      have hmid := hbelow.le
      have hhi := hrest.le
      have hfirst : t.preorder t.size lo = List.range' lo (mid - lo) := by
        have hcount : mid - lo = mid - (lo + 1) + 1 := by omega
        rw [hranked.preorder_eq, Tree.parts_eq hnode, ihbelow, hcount, List.range'_succ]
      have hsplit : hi - lo = (mid - lo) + (hi - mid) := by omega
      have hstep : lo + 1 * (mid - lo) = mid := by omega
      rw [List.flatMap_cons, hfirst, ihrest, hsplit, ← List.range'_append, hstep]

end Row

/-! ### Numbered trees -/

/-- The nodes of a tree are the program, which lies in its own span, and its parts as a row. -/
def Tree.Numbered (t : Tree) (span : Span) : Prop :=
  ∃ root, t.nodes[Tree.root]? = some root ∧ root.parent = none ∧ root.span = span ∧
    Row t.nodes Tree.root root.span 1 root.kind.children t.size

/-- What has a parent is a node. -/
theorem Tree.exists_node_of_parent {t : Tree} {id : NodeId} {up : Option NodeId}
    (h : t.parent id = .ok up) : ∃ node, t.nodes[id]? = some node := by
  cases hnode : t.nodes[id]? with
  | none =>
      rw [Tree.parent, Tree.node, hnode] at h
      cases h
  | some node => exact ⟨node, rfl⟩

namespace Tree.Numbered

variable {t : Tree} {span : Span}

/-- Every node has its parts as a row behind it. -/
theorem behind (h : t.Numbered span) {id : Nat} {node : Node} (hnode : t.nodes[id]? = some node) :
    ∃ stop, stop ≤ t.size ∧ Row t.nodes id node.span (id + 1) node.kind.children stop := by
  obtain ⟨root, hroot, -, -, hrow⟩ := h
  have hlt : id < t.size := Tree.lt_size hnode
  rcases Nat.eq_zero_or_pos id with rfl | hpos
  · obtain rfl : node = root := Option.some.inj (hnode.symm.trans hroot)
    exact ⟨t.size, Nat.le_refl _, hrow⟩
  · obtain ⟨inner, stop, hinner, hstop, hbelow⟩ := hrow.behind hpos hlt
    obtain rfl : node = inner := Option.some.inj (hnode.symm.trans hinner)
    exact ⟨stop, hstop, hbelow⟩

theorem ranked (h : t.Numbered span) : t.Ranked := by
  refine Tree.ranked_iff.2 fun id node hnode part hpart => ?_
  obtain ⟨stop, hstop, hrow⟩ := h.behind hnode
  obtain ⟨hlt, hbefore⟩ := hrow.pairwise_lt.2 part hpart
  exact ⟨hlt, Nat.lt_of_lt_of_le hbefore hstop⟩

/-- A node is listed by its parent, and by no other node. -/
theorem mem_parts_iff (h : t.Numbered span) {id up : NodeId} :
    id ∈ t.parts up ↔ t.parent id = .ok (some up) := by
  constructor
  · intro hid
    unfold Tree.parts at hid
    split at hid
    · rename_i whole hwhole
      obtain ⟨stop, -, hrow⟩ := h.behind hwhole
      obtain ⟨node, hnode, hparent, -⟩ := hrow.of_mem hid
      rw [Tree.parent_eq_ok hnode, hparent]
    · simp at hid
  · intro hid
    obtain ⟨node, hnode⟩ := Tree.exists_node_of_parent hid
    have hparent : node.parent = some up :=
      Except.ok.inj ((Tree.parent_eq_ok hnode).symm.trans hid)
    obtain ⟨root, hroot, hnone, -, hrow⟩ := h
    rcases Nat.eq_zero_or_pos id with rfl | hpos
    · obtain rfl : node = root := Option.some.inj (hnode.symm.trans hroot)
      rw [hnone] at hparent
      cases hparent
    · obtain ⟨inner, up', hinner, hup, hlisted⟩ := hrow.exists_parent hpos (Tree.lt_size hnode)
      obtain rfl : node = inner := Option.some.inj (hnode.symm.trans hinner)
      obtain rfl : up = up' := Option.some.inj (hparent.symm.trans hup)
      rcases hlisted with ⟨rfl, hlisted⟩ | ⟨whole, hwhole, hlisted⟩
      · rwa [Tree.parts_eq hroot]
      · rwa [Tree.parts_eq hwhole]

/-- A part has a greater number than the whole and lies inside it. -/
theorem of_mem_parts (h : t.Numbered span) {id part : NodeId} (hpart : part ∈ t.parts id) :
    id < part ∧ ∃ outer inner, t.span id = .ok outer ∧ t.span part = .ok inner ∧
      outer.contains inner = true := by
  refine ⟨(h.ranked id part hpart).1, ?_⟩
  unfold Tree.parts at hpart
  split at hpart
  · rename_i whole hwhole
    obtain ⟨stop, -, hrow⟩ := h.behind hwhole
    obtain ⟨node, hnode, -, hin⟩ := hrow.of_mem hpart
    exact ⟨whole.span, node.span, Tree.span_eq_ok hwhole, Tree.span_eq_ok hnode, hin⟩
  · simp at hpart

theorem nodup_parts (h : t.Numbered span) (id : NodeId) : (t.parts id).Nodup := by
  unfold Tree.parts
  split
  · rename_i whole hwhole
    obtain ⟨stop, -, hrow⟩ := h.behind hwhole
    exact hrow.pairwise_lt.1.imp fun hlt => Nat.ne_of_lt hlt
  · exact List.nodup_nil

/-- A walk from the program meets all nodes in the order of their numbers. -/
theorem descendants_eq_ok (h : t.Numbered span) :
    t.descendants Tree.root = .ok (List.range t.size) := by
  have hranked := h.ranked
  obtain ⟨root, hroot, -, -, hrow⟩ := h
  have hlt : Tree.root < t.size := Tree.lt_size hroot
  have hsplit : List.range t.size = Tree.root :: List.range' 1 (t.size - 1) := by
    obtain ⟨n, hn⟩ := Nat.exists_eq_succ_of_ne_zero (Nat.ne_of_gt hlt)
    rw [List.range_eq_range', hn]
    rfl
  rw [hranked.descendants_eq_ok hlt, hranked.preorder_eq, Tree.parts_eq hroot,
    hrow.flatMap_preorder hranked, hsplit]

end Tree.Numbered

/-! ### Adding nodes -/

/-- An array with more nodes behind those of another. -/
structure Extends (nodes nodes' : Array Node) : Prop where
  size_le : nodes.size ≤ nodes'.size
  same : ∀ i < nodes.size, nodes'[i]? = nodes[i]?

namespace Extends

theorem refl (nodes : Array Node) : Extends nodes nodes := ⟨Nat.le_refl _, fun _ _ => rfl⟩

theorem trans {a b c : Array Node} (hab : Extends a b) (hbc : Extends b c) : Extends a c := by
  refine ⟨Nat.le_trans hab.size_le hbc.size_le, fun i hi => ?_⟩
  rw [hbc.same i (Nat.lt_of_lt_of_le hi hab.size_le), hab.same i hi]

theorem push (nodes : Array Node) (node : Node) : Extends nodes (nodes.push node) := by
  refine ⟨by simp, fun i hi => ?_⟩
  rw [Array.getElem?_push, if_neg (Nat.ne_of_lt hi)]

/-- To fill in a node that was added changes the node itself and nothing before or behind it. -/
theorem fill {nodes nodes' : Array Node} {n : Node} (h : Extends (nodes.push n) nodes')
    (f : Node → Node) : Extends nodes (nodes'.modify nodes.size f) ∧
      (nodes'.modify nodes.size f)[nodes.size]? = some (f n) ∧
      ∀ i, i ≠ nodes.size → (nodes'.modify nodes.size f)[i]? = nodes'[i]? := by
  have hother : ∀ i, i ≠ nodes.size → (nodes'.modify nodes.size f)[i]? = nodes'[i]? := by
    intro i hi
    rw [Array.getElem?_modify, if_neg (Ne.symm hi)]
  have hall := (Extends.push nodes n).trans h
  refine ⟨⟨?_, fun i hi => ?_⟩, ?_, hother⟩
  · rw [Array.size_modify]
    exact hall.size_le
  · rw [hother i (Nat.ne_of_lt hi), hall.same i hi]
  · rw [Array.getElem?_modify, if_pos rfl, h.same nodes.size (by simp), Array.getElem?_push,
      if_pos rfl]
    rfl

/-- A row is still there when nodes are added. -/
theorem row {nodes nodes' : Array Node} (h : Extends nodes nodes') {parent : NodeId} {outer : Span}
    {lo : Nat} {ids : List NodeId} (hrow : Row nodes parent outer lo ids nodes.size) :
    Row nodes' parent outer lo ids nodes.size :=
  hrow.congr fun i _ hi => h.same i hi

end Extends

section Adds

variable {α β : Type} {parent : NodeId} {outer : Span}

/-- A computation that only adds nodes: if the last nodes are a row of the trees in `before`, then
afterwards they are a row of the trees that the result refers to. -/
def Adds (parent : NodeId) (outer : Span) (before : List NodeId) (m : StateM (Array Node) α)
    (refers : α → List NodeId) : Prop :=
  ∀ (lo : Nat) (nodes : Array Node), Row nodes parent outer lo before nodes.size →
    Extends nodes (m.run nodes).2 ∧
      Row (m.run nodes).2 parent outer lo (refers (m.run nodes).1) (m.run nodes).2.size

/-- A result that refers to the trees of the row; these have increasing numbers. -/
theorem adds_pure {before : List NodeId} {refers : α → List NodeId} {a : α}
    (h : (before.Pairwise fun i j : Nat => i < j) → refers a = before) :
    Adds parent outer before (pure a) refers := by
  intro lo nodes hrow
  exact ⟨.refl nodes, (h hrow.pairwise_lt.1).symm ▸ hrow⟩

/-- What follows a computation finds its trees behind those that were there. -/
theorem Adds.bind {before : List NodeId} {m : StateM (Array Node) α}
    {k : α → StateM (Array Node) β} {refers : α → List NodeId} {refers' : β → List NodeId}
    (hm : Adds parent outer [] m refers)
    (hk : ∀ a, Adds parent outer (before ++ refers a) (k a) refers') :
    Adds parent outer before (m >>= k) refers' := by
  intro lo nodes hrow
  obtain ⟨hext, hadded⟩ := hm nodes.size nodes .nil
  obtain ⟨hext', hall⟩ := hk _ lo _ ((hext.row hrow).append hadded)
  exact ⟨hext.trans hext', hall⟩

end Adds

namespace Ast

/-- A node takes the next number, its parts are numbered behind it, and then its kind is filled
in. -/
theorem run_number_node (parent : Option NodeId) (span : Span) (kind : Kind Ast)
    (nodes : Array Node) : (number parent (node span kind)).run nodes =
      let r := (numberKind nodes.size kind).run (nodes.push ⟨.other [], span, parent⟩)
      (nodes.size, r.2.modify nodes.size fun n => { n with kind := r.1 }) := by
  rw [number]
  rfl

/-- A node takes the next number, and its parts are a row behind it. -/
theorem run_number (parent : Option NodeId) {span : Span} {kind : Kind Ast}
    (hkind : ∀ id, Adds id span [] (numberKind id kind) Kind.children) (nodes : Array Node) :
    ∃ kind' nodes', (number parent (node span kind)).run nodes = (nodes.size, nodes') ∧
      Extends nodes nodes' ∧ nodes'[nodes.size]? = some ⟨kind', span, parent⟩ ∧
      Row nodes' nodes.size span (nodes.size + 1) kind'.children nodes'.size := by
  have hrun := run_number_node parent span kind nodes
  obtain ⟨hext, hrow⟩ :=
    hkind nodes.size (nodes.size + 1) (nodes.push ⟨.other [], span, parent⟩) (by simpa using .nil)
  generalize (numberKind nodes.size kind).run (nodes.push ⟨.other [], span, parent⟩) = r at *
  obtain ⟨hall, hnode, hother⟩ := hext.fill fun n => { n with kind := r.1 }
  refine ⟨r.1, _, hrun, hall, hnode, ?_⟩
  rw [Array.size_modify]
  exact hrow.congr fun i hi _ => hother i (Nat.ne_of_gt hi)

mutual

/-- Numbering a part adds it. -/
theorem adds_number {id : NodeId} {outer : Span} :
    ∀ {t : Ast}, t.Within outer → Adds id outer [] (number (some id) t) ([·])
  | node span kind, h => by
      cases h with
      | node hspan hparts =>
          intro lo nodes hrow
          cases hrow
          obtain ⟨kind', nodes', hrun, hext, hnode, hbelow⟩ :=
            run_number (some id) (fun _ => adds_numberKind hparts) nodes
          rw [hrun]
          exact ⟨hext, .cons hnode rfl hspan hbelow .nil⟩

/-- Numbering the parts of a construct adds them in the order in which the construct lists them. -/
theorem adds_numberKind {id : NodeId} {span : Span} :
    ∀ {kind : Kind Ast},
      AllWithin span (@Kind.children Ast (Classical.typeDecidableEq Ast) kind) →
      Adds id span [] (numberKind id kind) Kind.children
  | .literal _, _ | .identifier _, _ | .emptyStatement, _ => adds_pure fun _ => rfl
  | .program _, h | .block _, h | .array _, h | .object _, h | .sequence _, h | .function _, h
  | .jsxElement _, h | .jsxFragment _, h | .declaration .., h | .functionDeclaration _, h
  | .classDeclaration _, h | .other _, h =>
      (adds_numberAll h).bind fun _ => adds_pure fun _ => rfl
  | .await _, h | .unary .., h | .update .., h | .expressionStatement _, h =>
      (adds_number (allWithin_cons.1 h).1).bind fun _ => adds_pure fun _ => rfl
  | .yield .., h | .returnStatement _, h =>
      (adds_numberOption h).bind fun _ => adds_pure fun _ => rfl
  | .binary .., h | .logical .., h | .assignment .., h | .member .., h | .whileStatement .., h
  | .doWhileStatement .., h => by
      simp only [Kind.children, allWithin_cons] at h
      obtain ⟨hfirst, hsecond, -⟩ := h
      exact (adds_number hfirst).bind fun _ => (adds_number hsecond).bind fun _ =>
        adds_pure fun _ => rfl
  | .conditional .., h | .forInStatement .., h => by
      simp only [Kind.children, allWithin_cons] at h
      obtain ⟨hfirst, hsecond, hthird, -⟩ := h
      exact (adds_number hfirst).bind fun _ => (adds_number hsecond).bind fun _ =>
        (adds_number hthird).bind fun _ => adds_pure fun _ => rfl
  | .call .., h | .construct .., h => by
      simp only [Kind.children, allWithin_cons] at h
      exact (adds_number h.1).bind fun _ => (adds_numberAll h.2).bind fun _ =>
        adds_pure fun _ => rfl
  | .arrow .., h => by
      simp only [Kind.children, allWithin_append, allWithin_cons] at h
      obtain ⟨hparams, hbody, -⟩ := h
      exact (adds_numberAll hparams).bind fun _ => (adds_number hbody).bind fun _ =>
        adds_pure fun _ => rfl
  | .declarator .., h => by
      simp only [Kind.children, allWithin_cons] at h
      exact (adds_number h.1).bind fun _ => (adds_numberOption h.2).bind fun _ =>
        adds_pure fun _ => rfl
  | .ifStatement .., h => by
      simp only [Kind.children, allWithin_cons] at h
      obtain ⟨htest, hthen, helse⟩ := h
      exact (adds_number htest).bind fun _ => (adds_number hthen).bind fun _ =>
        (adds_numberOption helse).bind fun _ => adds_pure fun _ => rfl
  | .forStatement .., h => by
      simp only [Kind.children, allWithin_append, allWithin_cons] at h
      obtain ⟨⟨⟨hinit, htest⟩, hstep⟩, hbody, -⟩ := h
      exact (adds_numberOption hinit).bind fun _ => (adds_numberOption htest).bind fun _ =>
        (adds_numberOption hstep).bind fun _ => (adds_number hbody).bind fun _ =>
          adds_pure fun _ => rfl
  | .property _ _ true _ _, h =>
      (adds_number (allWithin_cons.1 h).1).bind fun _ => adds_pure fun _ => rfl
  | .property key value false _ _, h => by
      -- as trees, the key and the value may be equal, but they get two numbers
      have hboth : key.Within span ∧ value.Within span := by
        simp only [Kind.children] at h
        split at h
        · rename_i hsame
          obtain rfl : key = value := by simpa using hsame
          exact ⟨(allWithin_cons.1 h).1, (allWithin_cons.1 h).1⟩
        · exact ⟨(allWithin_cons.1 h).1, (allWithin_cons.1 (allWithin_cons.1 h).2).1⟩
      refine (adds_number hboth.1).bind fun k => (adds_number hboth.2).bind fun v =>
        adds_pure fun hlt => ?_
      have hne : k ≠ v := Nat.ne_of_lt (by simpa using hlt)
      simp [Kind.children, hne]

/-- Numbering some parts adds them in order. -/
theorem adds_numberAll {id : NodeId} {outer : Span} :
    ∀ {ts : List Ast}, AllWithin outer ts → Adds id outer [] (numberAll id ts) fun ids => ids
  | [], _ => adds_pure fun _ => rfl
  | _ :: _, h =>
      (adds_number (allWithin_cons.1 h).1).bind fun _ =>
        (adds_numberAll (allWithin_cons.1 h).2).bind fun _ => adds_pure fun _ => rfl

/-- Numbering a part that may be missing. -/
theorem adds_numberOption {id : NodeId} {outer : Span} :
    ∀ {o : Option Ast}, AllWithin outer o.toList →
      Adds id outer [] (numberOption id o) Option.toList
  | none, _ => adds_pure fun _ => rfl
  | some _, h => (adds_number (allWithin_cons.1 h).1).bind fun _ => adds_pure fun _ => rfl

end

end Ast

/-! ### The tree of a program -/

/-- The program and its parts are numbered in order. -/
theorem Concrete.Nested.numbered {program : Concrete} (h : program.Nested) {text : List Char}
    (hstop : program.span.stop ≤ Text.byteSize text) :
    (Concrete.toTree text program).Numbered (.upTo 0 (Text.byteSize text)) := by
  have hin : (Span.upTo 0 (Text.byteSize text)).contains program.span = true :=
    Span.contains_iff.2 ⟨Nat.zero_le _, by simpa using hstop⟩
  have hkind : ∀ id, Adds id (.upTo 0 (Text.byteSize text)) []
      (Ast.numberKind id (.program (Part.asts (Concrete.toParts text program.children))))
      Kind.children := fun _ => Ast.adds_numberKind (h.allWithin text hin)
  obtain ⟨kind', nodes', hrun, -, hnode, hrow⟩ := Ast.run_number none hkind #[]
  have hnodes : (Concrete.toTree text program).nodes = nodes' := congrArg Prod.snd hrun
  refine ⟨⟨kind', _, none⟩, ?_, rfl, rfl, ?_⟩
  · rw [hnodes]
    exact hnode
  · rw [Tree.size, hnodes]
    exact hrow

/-- Numbers, parents, parts and spans agree, in the tree of a text with some number of bytes. -/
structure Tree.Preordered (t : Tree) (size : Nat) : Prop where
  /-- The program is number zero, has no parent and spans the text. -/
  root : t.parent Tree.root = .ok none ∧ t.span Tree.root = .ok ⟨0, size, Nat.zero_le size⟩
  /-- A node is listed by its parent and by no other node. -/
  mem_parts_iff : ∀ id up, id ∈ t.parts up ↔ t.parent id = .ok (some up)
  /-- No part is listed twice. -/
  nodup_parts : ∀ id, (t.parts id).Nodup
  /-- A part has a greater number than the whole and lies inside it. -/
  of_mem_parts : ∀ id part, part ∈ t.parts id → id < part ∧
    ∃ outer inner, t.span id = .ok outer ∧ t.span part = .ok inner ∧ outer.contains inner = true
  /-- A walk from the program meets every node once, in the order of the numbers. -/
  descendants : t.descendants Tree.root = .ok (List.range t.size)

/-- **The tree of a program is numbered in order**: if every node of the concrete tree includes its
children and the text includes the program, then parents and parts agree in the numbered tree, parts
come after the whole and lie inside it, and a walk meets the nodes in the order of their numbers. -/
theorem Concrete.toTree_preordered {text : List Char} {program : Concrete} (h : program.Nested)
    (hstop : program.span.stop ≤ Text.byteSize text) :
    (Concrete.toTree text program).Preordered (Text.byteSize text) := by
  have hnumbered := h.numbered hstop
  obtain ⟨root, hroot, hnone, hspan, -⟩ := id hnumbered
  refine ⟨⟨?_, ?_⟩, fun id up => hnumbered.mem_parts_iff, hnumbered.nodup_parts,
    fun id part => hnumbered.of_mem_parts, hnumbered.descendants_eq_ok⟩
  · rw [Tree.parent_eq_ok hroot, hnone]
  · rw [Tree.span_eq_ok hroot, hspan]
    simp [Span.upTo]

/-- The text `({a,b(){}})` behind a line break. -/
def methodText : List Char := "\n(\x7ba,b()\x7b\x7d\x7d)".toList

/-- The program of this text, with all its signs. -/
def methodProgram : Concrete :=
  let leaf (label : Label) (role : Option Role) (start stop : Nat) : Concrete :=
    .node label role (.upTo start stop) []
  .node (.construct .program) none (.upTo 1 12) [
    .node (.construct .expressionStatement) none (.upTo 1 12) [
      .node (.construct .parenthesized) none (.upTo 1 12) [
        leaf (.sign "(") none 1 2,
        .node (.construct .object) none (.upTo 2 11) [
          leaf (.sign "\x7b") none 2 3,
          leaf (.construct .shorthandIdentifier) none 3 4,
          leaf (.sign ",") none 4 5,
          .node (.construct .methodDefinition) none (.upTo 5 10) [
            leaf (.construct .propertyIdentifier) (some .name) 5 6,
            .node (.construct .formalParameters) (some .parameters) (.upTo 6 8)
              [leaf (.sign "(") none 6 7, leaf (.sign ")") none 7 8],
            .node (.construct .statementBlock) (some .body) (.upTo 8 10)
              [leaf (.sign "\x7b") none 8 9, leaf (.sign "\x7d") none 9 10]],
          leaf (.sign "\x7d") none 10 11],
        leaf (.sign ")") none 11 12]]]

/-- The parentheses have no node, the property with one name for key and value has one part, and the
function of the method is a node of its own. -/
theorem Concrete.toTree_preordered_method :
    methodProgram.Nested ∧ methodProgram.span.stop ≤ Text.byteSize methodText ∧
      (Concrete.toTree methodText methodProgram).size = 10 ∧
      (Concrete.toTree methodText methodProgram).Preordered (Text.byteSize methodText) := by
  have hnested : methodProgram.Nested := by
    simp [methodProgram, Span.contains, Concrete.span]
  have hstop : methodProgram.span.stop ≤ Text.byteSize methodText := by decide
  exact ⟨hnested, hstop, by decide, Concrete.toTree_preordered hnested hstop⟩

end Pare
