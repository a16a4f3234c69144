import Pare.Proofs.Similarity

/-!
**Numbering loses nothing.**

The numbered tree of a program can be read back: what stands under a number is the tree of kinds
that was given this number, with all its spans.  So whatever is found in a numbered tree can be
followed back to the tree it was made from.

Main definitions:

* `Pare.Reads` — the nodes under a number read as a tree of kinds;
* `Pare.Enters` — a computation after which what it has added has a property, whatever is added
  later.

Main results:

* `Pare.Ast.enters_number` — what was numbered can be read back;
* `Pare.Kind.Lift.exists_of_mem_children` — parts correspond to parts;
* `Pare.Concrete.reads_toTree` — **the numbered tree of a program reads as its tree of kinds**.
-/

set_option relaxedAutoImplicit false
set_option autoImplicit false

namespace Pare

/-! ### Reading back -/

/-- The nodes under a number read as a tree of kinds: the node has the span and the kind of the
tree, and the nodes under its parts read as the parts of the tree. -/
inductive Reads (nodes : Array Node) : NodeId → Ast → Prop
  | node {id : NodeId} {n : Node} {kind : Kind Ast} (hnode : nodes[id]? = some n)
      (hkind : Kind.Lift (Reads nodes) n.kind kind) : Reads nodes id (.node n.span kind)

/-! ### Computations that add nodes -/

section Enters

variable {α β : Type}

/-- The computation only adds nodes, and wherever the nodes that it has added are found again, the
result has the property. -/
def Enters (m : StateM (Array Node) α) (R : Array Node → α → Prop) : Prop :=
  ∀ nodes : Array Node, Extends nodes (m.run nodes).2 ∧
    ∀ final : Array Node, (∀ i, nodes.size ≤ i → i < (m.run nodes).2.size →
      final[i]? = (m.run nodes).2[i]?) → R final (m.run nodes).1

theorem enters_pure {R : Array Node → α → Prop} {a : α} (h : ∀ final, R final a) :
    Enters (pure a) R :=
  fun nodes => ⟨.refl nodes, fun final _ => h final⟩

theorem Enters.bind {m : StateM (Array Node) α} {k : α → StateM (Array Node) β}
    {R : Array Node → α → Prop} {S : Array Node → β → Prop} (hm : Enters m R)
    (hk : ∀ a, Enters (k a) fun final b => R final a → S final b) : Enters (m >>= k) S := by
  intro nodes
  obtain ⟨hext, hfirst⟩ := hm nodes
  obtain ⟨hext', hsecond⟩ := hk (m.run nodes).1 (m.run nodes).2
  refine ⟨hext.trans hext', fun final hfinal => hsecond final ?_ (hfirst final ?_)⟩
  · intro i hlo hhi
    exact hfinal i (Nat.le_trans hext.size_le hlo) hhi
  · intro i hlo hhi
    exact (hfinal i hlo (Nat.lt_of_lt_of_le hhi hext'.size_le)).trans (hext'.same i hhi)

end Enters

namespace Ast

mutual

/-- What was numbered can be read back. -/
theorem enters_number (parent : Option NodeId) :
    ∀ t : Ast, Enters (number parent t) fun final id => Reads final id t
  | node span kind => by
      intro nodes
      obtain ⟨hext, hkind⟩ :=
        enters_numberKind nodes.size kind (nodes.push ⟨.other [], span, parent⟩)
      rw [run_number_node]
      generalize (numberKind nodes.size kind).run (nodes.push ⟨.other [], span, parent⟩) = r at *
      obtain ⟨hall, hnode, hother⟩ := hext.fill fun n => { n with kind := r.1 }
      refine ⟨hall, fun final hfinal => ?_⟩
      -- the parts are found where they were, behind the node
      rw [Array.size_modify] at hfinal
      have hlift := hkind final fun i hlo hhi => by
        rw [Array.size_push] at hlo
        rw [hfinal i (Nat.le_of_succ_le hlo) hhi, hother i (Nat.ne_of_gt hlo)]
      have hlt : nodes.size + 1 ≤ r.2.size := by simpa using hext.size_le
      exact .node ((hfinal nodes.size (Nat.le_refl _) hlt).trans hnode) hlift

/-- The parts of a construct can be read back. -/
theorem enters_numberKind (id : NodeId) :
    ∀ kind : Kind Ast, Enters (numberKind id kind) fun final k => Kind.Lift (Reads final) k kind
  | .literal _ => enters_pure fun _ => .literal _
  | .identifier _ => enters_pure fun _ => .identifier _
  | .emptyStatement => enters_pure fun _ => .emptyStatement
  | .program ts => (enters_numberAll id ts).bind fun _ => enters_pure fun _ h => .program h
  | .block ts => (enters_numberAll id ts).bind fun _ => enters_pure fun _ h => .block h
  | .array ts => (enters_numberAll id ts).bind fun _ => enters_pure fun _ h => .array h
  | .object ts => (enters_numberAll id ts).bind fun _ => enters_pure fun _ h => .object h
  | .sequence ts => (enters_numberAll id ts).bind fun _ => enters_pure fun _ h => .sequence h
  | .function ts => (enters_numberAll id ts).bind fun _ => enters_pure fun _ h => .function h
  | .jsxElement ts => (enters_numberAll id ts).bind fun _ => enters_pure fun _ h => .jsxElement h
  | .jsxFragment ts => (enters_numberAll id ts).bind fun _ => enters_pure fun _ h => .jsxFragment h
  | .declaration _ ts =>
      (enters_numberAll id ts).bind fun _ => enters_pure fun _ h => .declaration _ h
  | .functionDeclaration ts =>
      (enters_numberAll id ts).bind fun _ => enters_pure fun _ h => .functionDeclaration h
  | .classDeclaration ts =>
      (enters_numberAll id ts).bind fun _ => enters_pure fun _ h => .classDeclaration h
  | .other ts => (enters_numberAll id ts).bind fun _ => enters_pure fun _ h => .other h
  | .await t => (enters_number _ t).bind fun _ => enters_pure fun _ h => .await h
  | .unary _ t => (enters_number _ t).bind fun _ => enters_pure fun _ h => .unary _ h
  | .update _ _ t => (enters_number _ t).bind fun _ => enters_pure fun _ h => .update _ _ h
  | .expressionStatement t =>
      (enters_number _ t).bind fun _ => enters_pure fun _ h => .expressionStatement h
  | .yield o _ => (enters_numberOption id o).bind fun _ => enters_pure fun _ h => .yield _ h
  | .returnStatement o =>
      (enters_numberOption id o).bind fun _ => enters_pure fun _ h => .returnStatement h
  | .binary _ l r => (enters_number _ l).bind fun _ => (enters_number _ r).bind fun _ =>
      enters_pure fun _ hr hl => .binary _ hl hr
  | .logical _ l r => (enters_number _ l).bind fun _ => (enters_number _ r).bind fun _ =>
      enters_pure fun _ hr hl => .logical _ hl hr
  | .assignment _ l r => (enters_number _ l).bind fun _ => (enters_number _ r).bind fun _ =>
      enters_pure fun _ hr hl => .assignment _ hl hr
  | .member o p _ _ => (enters_number _ o).bind fun _ => (enters_number _ p).bind fun _ =>
      enters_pure fun _ hp ho => .member _ _ ho hp
  | .whileStatement t b => (enters_number _ t).bind fun _ => (enters_number _ b).bind fun _ =>
      enters_pure fun _ hb ht => .whileStatement ht hb
  | .doWhileStatement b t => (enters_number _ b).bind fun _ => (enters_number _ t).bind fun _ =>
      enters_pure fun _ ht hb => .doWhileStatement hb ht
  | .property _ v true _ _ => (enters_number _ v).bind fun _ =>
      enters_pure fun _ h => .shorthand _ _ h
  | .property k v false _ _ => (enters_number _ k).bind fun _ => (enters_number _ v).bind fun _ =>
      enters_pure fun _ hv hk => .property _ _ hk hv
  | .conditional t c a => (enters_number _ t).bind fun _ => (enters_number _ c).bind fun _ =>
      (enters_number _ a).bind fun _ => enters_pure fun _ ha hc ht => .conditional ht hc ha
  | .forInStatement l r b _ => (enters_number _ l).bind fun _ => (enters_number _ r).bind fun _ =>
      (enters_number _ b).bind fun _ => enters_pure fun _ hb hr hl => .forInStatement _ hl hr hb
  | .call f ts _ => (enters_number _ f).bind fun _ => (enters_numberAll id ts).bind fun _ =>
      enters_pure fun _ h hf => .call _ hf h
  | .construct f ts => (enters_number _ f).bind fun _ => (enters_numberAll id ts).bind fun _ =>
      enters_pure fun _ h hf => .construct hf h
  | .arrow ts b _ _ => (enters_numberAll id ts).bind fun _ => (enters_number _ b).bind fun _ =>
      enters_pure fun _ hb h => .arrow _ _ h hb
  | .declarator t o => (enters_number _ t).bind fun _ => (enters_numberOption id o).bind fun _ =>
      enters_pure fun _ ho ht => .declarator ht ho
  | .ifStatement t c o => (enters_number _ t).bind fun _ => (enters_number _ c).bind fun _ =>
      (enters_numberOption id o).bind fun _ => enters_pure fun _ ho hc ht => .ifStatement ht hc ho
  | .forStatement i t s b => (enters_numberOption id i).bind fun _ =>
      (enters_numberOption id t).bind fun _ => (enters_numberOption id s).bind fun _ =>
        (enters_number _ b).bind fun _ =>
          enters_pure fun _ hb hs ht hi => .forStatement hi ht hs hb

/-- Some parts can be read back. -/
theorem enters_numberAll (id : NodeId) :
    ∀ ts : List Ast, Enters (numberAll id ts) fun final ids => List.Forall₂ (Reads final) ids ts
  | [] => enters_pure fun _ => .nil
  | t :: ts => (enters_number (some id) t).bind fun _ => (enters_numberAll id ts).bind fun _ =>
      enters_pure fun _ hts ht => .cons ht hts

/-- A part that may be missing can be read back. -/
theorem enters_numberOption (id : NodeId) :
    ∀ o : Option Ast, Enters (numberOption id o) fun final r => Option.Rel (Reads final) r o
  | none => enters_pure fun _ => .none
  | some t => (enters_number (some id) t).bind fun _ => enters_pure fun _ h => .some h

end

end Ast

/-- **The numbered tree of a program reads as its tree of kinds**, from the program on. -/
theorem Concrete.reads_toTree (text : List Char) (program : Concrete) :
    Reads (Concrete.toTree text program).nodes Tree.root
      (.node (.upTo 0 (Text.byteSize text))
        (.program (Part.asts (Concrete.toParts text program.children)))) :=
  (Ast.enters_number none _ #[]).2 _ fun _ _ _ => rfl

/-! ### Parts -/

/-- Every part of a kind is related to one of a corresponding kind. -/
theorem Kind.Lift.exists_of_mem_children {α β : Type} [DecidableEq α] [DecidableEq β]
    {R : α → β → Prop} {k : Kind α} {l : Kind β} (h : Kind.Lift R k l) {a : α}
    (ha : a ∈ k.children) : ∃ b ∈ l.children, R a b := by
  cases h with
  | literal | identifier | emptyStatement => simp [Kind.children] at ha
  | program h | block h | array h | object h | sequence h | function h | jsxElement h
  | jsxFragment h | declaration _ h | functionDeclaration h | classDeclaration h | other h =>
      exact exists_of_mem_of_forall₂ h ha
  | await h | unary _ h | update _ _ h | expressionStatement h =>
      exact exists_of_mem_of_forall₂ (.cons h .nil) ha
  | yield _ ho | returnStatement ho => exact exists_of_mem_of_forall₂ (optionRel_toList ho) ha
  | binary _ hl hr | logical _ hl hr | assignment _ hl hr | member _ _ hl hr
  | whileStatement hl hr | doWhileStatement hl hr =>
      exact exists_of_mem_of_forall₂ (.cons hl (.cons hr .nil)) ha
  | conditional ht hc he | forInStatement _ ht hc he =>
      exact exists_of_mem_of_forall₂ (.cons ht (.cons hc (.cons he .nil))) ha
  | call _ hf h | construct hf h => exact exists_of_mem_of_forall₂ (.cons hf h) ha
  | arrow _ _ h hb => exact exists_of_mem_of_forall₂ (List.rel_append h (.cons hb .nil)) ha
  | declarator ht ho => exact exists_of_mem_of_forall₂ (.cons ht (optionRel_toList ho)) ha
  | ifStatement ht hc ho =>
      exact exists_of_mem_of_forall₂ (.cons ht (.cons hc (optionRel_toList ho))) ha
  | forStatement hi ht hs hb =>
      have hheader := List.rel_append (List.rel_append (optionRel_toList hi) (optionRel_toList ht))
        (optionRel_toList hs)
      exact exists_of_mem_of_forall₂ (List.rel_append hheader (.cons hb .nil)) ha
  | @shorthand v k' v' _ _ hv =>
      obtain rfl : a = v := by simpa [Kind.children] using ha
      exact ⟨v', by simp [Kind.children], hv⟩
  | @property k v k' v' method computed hk hv =>
      -- where key and value are one part, it is listed once
      have hmem : ∀ b, b = k' ∨ b = v' →
          b ∈ (Kind.property k' v' false method computed).children := by
        intro b hb
        simp only [Kind.children, Bool.false_or, decide_eq_true_eq]
        split <;> simp_all
      have ha : a = k ∨ a = v := by
        simp only [Kind.children] at ha
        split at ha <;> simp_all
      rcases ha with rfl | rfl
      · exact ⟨k', hmem k' (.inl rfl), hk⟩
      · exact ⟨v', hmem v' (.inr rfl), hv⟩

end Pare
