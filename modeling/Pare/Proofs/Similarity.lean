import Pare.Proofs.Numbering
import Pare.Proofs.Related

/-!
**Trees that differ in their spans only.**

Numbering reads the kinds of a tree and copies the spans.  So two trees that are the same but for
their spans get the same numbers, the same kinds with the same parts, and the same parents.  This
is shown construct by construct: two kinds correspond if they are the same construct with the same
names, operators and flags and their parts correspond.

Main definitions:

* `Pare.Kind.Lift` — the same construct with related parts;
* `Pare.Tree.outline` — the kinds and parents of all nodes, without their spans;
* `Pare.Agree` — two computations that do the same to arrays of the same outline;
* `Pare.Ast.Similar` — two trees whose numbering agrees.

Main results:

* `Pare.Agree.bind` — computations that agree step by step agree;
* `Pare.Kind.Lift.agree` — kinds with similar parts are numbered in the same way;
* `Pare.Ast.similar_node` — **nodes of corresponding kinds are similar, whatever their spans**.
-/

set_option relaxedAutoImplicit false
set_option autoImplicit false

namespace Pare

/-! ### Corresponding kinds -/

/-- The same construct with the same names, operators and flags, whose parts are related one by one.
A property that has one name for key and value has one part. -/
inductive Kind.Lift {α β : Type} (R : α → β → Prop) : Kind α → Kind β → Prop
  | program {as : List α} {bs : List β} (h : List.Forall₂ R as bs) :
      Lift R (.program as) (.program bs)
  | literal (value : Literal) : Lift R (.literal value) (.literal value)
  | identifier (name : String) : Lift R (.identifier name) (.identifier name)
  | binary (op : String) {l r : α} {l' r' : β} (hl : R l l') (hr : R r r') :
      Lift R (.binary op l r) (.binary op l' r')
  | logical (op : String) {l r : α} {l' r' : β} (hl : R l l') (hr : R r r') :
      Lift R (.logical op l r) (.logical op l' r')
  | assignment (op : String) {l r : α} {l' r' : β} (hl : R l l') (hr : R r r') :
      Lift R (.assignment op l r) (.assignment op l' r')
  | conditional {t c a : α} {t' c' a' : β} (ht : R t t') (hc : R c c') (ha : R a a') :
      Lift R (.conditional t c a) (.conditional t' c' a')
  | call {f : α} {f' : β} {as : List α} {bs : List β} (optional : Bool) (hf : R f f')
      (h : List.Forall₂ R as bs) : Lift R (.call f as optional) (.call f' bs optional)
  | construct {f : α} {f' : β} {as : List α} {bs : List β} (hf : R f f')
      (h : List.Forall₂ R as bs) : Lift R (.construct f as) (.construct f' bs)
  | member {o p : α} {o' p' : β} (computed optional : Bool) (ho : R o o') (hp : R p p') :
      Lift R (.member o p computed optional) (.member o' p' computed optional)
  | array {as : List α} {bs : List β} (h : List.Forall₂ R as bs) : Lift R (.array as) (.array bs)
  | object {as : List α} {bs : List β} (h : List.Forall₂ R as bs) : Lift R (.object as) (.object bs)
  | shorthand {v : α} {k' v' : β} (method computed : Bool) (hv : R v v') :
      Lift R (.property v v true method computed) (.property k' v' true method computed)
  | property {k v : α} {k' v' : β} (method computed : Bool) (hk : R k k') (hv : R v v') :
      Lift R (.property k v false method computed) (.property k' v' false method computed)
  | arrow {as : List α} {bs : List β} {b : α} {b' : β} (expression isAsync : Bool)
      (h : List.Forall₂ R as bs) (hb : R b b') :
      Lift R (.arrow as b expression isAsync) (.arrow bs b' expression isAsync)
  | function {as : List α} {bs : List β} (h : List.Forall₂ R as bs) :
      Lift R (.function as) (.function bs)
  | await {a : α} {a' : β} (ha : R a a') : Lift R (.await a) (.await a')
  | yield {o : Option α} {o' : Option β} (delegate : Bool) (ho : Option.Rel R o o') :
      Lift R (.yield o delegate) (.yield o' delegate)
  | sequence {as : List α} {bs : List β} (h : List.Forall₂ R as bs) :
      Lift R (.sequence as) (.sequence bs)
  | unary (op : String) {a : α} {a' : β} (ha : R a a') : Lift R (.unary op a) (.unary op a')
  | update (op : String) (leading : Bool) {a : α} {a' : β} (ha : R a a') :
      Lift R (.update op leading a) (.update op leading a')
  | jsxElement {as : List α} {bs : List β} (h : List.Forall₂ R as bs) :
      Lift R (.jsxElement as) (.jsxElement bs)
  | jsxFragment {as : List α} {bs : List β} (h : List.Forall₂ R as bs) :
      Lift R (.jsxFragment as) (.jsxFragment bs)
  | declaration (binding : Binding) {as : List α} {bs : List β} (h : List.Forall₂ R as bs) :
      Lift R (.declaration binding as) (.declaration binding bs)
  | declarator {t : α} {t' : β} {o : Option α} {o' : Option β} (ht : R t t')
      (ho : Option.Rel R o o') : Lift R (.declarator t o) (.declarator t' o')
  | functionDeclaration {as : List α} {bs : List β} (h : List.Forall₂ R as bs) :
      Lift R (.functionDeclaration as) (.functionDeclaration bs)
  | classDeclaration {as : List α} {bs : List β} (h : List.Forall₂ R as bs) :
      Lift R (.classDeclaration as) (.classDeclaration bs)
  | returnStatement {o : Option α} {o' : Option β} (ho : Option.Rel R o o') :
      Lift R (.returnStatement o) (.returnStatement o')
  | expressionStatement {e : α} {e' : β} (he : R e e') :
      Lift R (.expressionStatement e) (.expressionStatement e')
  | ifStatement {t c : α} {t' c' : β} {o : Option α} {o' : Option β} (ht : R t t') (hc : R c c')
      (ho : Option.Rel R o o') : Lift R (.ifStatement t c o) (.ifStatement t' c' o')
  | forStatement {i t s : Option α} {i' t' s' : Option β} {b : α} {b' : β} (hi : Option.Rel R i i')
      (ht : Option.Rel R t t') (hs : Option.Rel R s s') (hb : R b b') :
      Lift R (.forStatement i t s b) (.forStatement i' t' s' b')
  | forInStatement {l r b : α} {l' r' b' : β} (overValues : Bool) (hl : R l l') (hr : R r r')
      (hb : R b b') :
      Lift R (.forInStatement l r b overValues) (.forInStatement l' r' b' overValues)
  | whileStatement {t b : α} {t' b' : β} (ht : R t t') (hb : R b b') :
      Lift R (.whileStatement t b) (.whileStatement t' b')
  | doWhileStatement {b t : α} {b' t' : β} (hb : R b b') (ht : R t t') :
      Lift R (.doWhileStatement b t) (.doWhileStatement b' t')
  | block {as : List α} {bs : List β} (h : List.Forall₂ R as bs) : Lift R (.block as) (.block bs)
  | emptyStatement : Lift R .emptyStatement .emptyStatement
  | other {as : List α} {bs : List β} (h : List.Forall₂ R as bs) : Lift R (.other as) (.other bs)

/-! ### Outlines -/

/-- The kinds and parents of some nodes, without their spans. -/
def outlineOf (nodes : Array Node) : Array (Kind NodeId × Option NodeId) :=
  nodes.map fun n => (n.kind, n.parent)

/-- The kinds and parents of all nodes of a tree, without their spans. -/
def Tree.outline (t : Tree) : Array (Kind NodeId × Option NodeId) := outlineOf t.nodes

@[simp] theorem size_outlineOf (nodes : Array Node) : (outlineOf nodes).size = nodes.size := by
  simp [outlineOf]

theorem outlineOf_push (nodes : Array Node) (n : Node) :
    outlineOf (nodes.push n) = (outlineOf nodes).push (n.kind, n.parent) := by
  simp [outlineOf]

theorem outlineOf_modify (nodes : Array Node) (id : Nat) (kind : Kind NodeId) :
    outlineOf (nodes.modify id fun n => { n with kind := kind }) =
      (outlineOf nodes).modify id fun p => (kind, p.2) := by
  refine Array.ext_getElem? fun i => ?_
  simp only [outlineOf, Array.getElem?_map, Array.getElem?_modify]
  split
  · cases nodes[i]? <;> rfl
  · rfl

/-! ### Computations that agree -/

section Agree

variable {α β : Type}

/-- Two computations that, from nodes of one outline, have one result and leave nodes of one
outline. -/
def Agree (m m' : StateM (Array Node) α) : Prop :=
  ∀ nodes nodes' : Array Node, outlineOf nodes = outlineOf nodes' →
    (m.run nodes).1 = (m'.run nodes').1 ∧ outlineOf (m.run nodes).2 = outlineOf (m'.run nodes').2

theorem agree_pure (a : α) : Agree (pure a) (pure a) := fun _ _ h => ⟨rfl, h⟩

theorem Agree.bind {m m' : StateM (Array Node) α} {k k' : α → StateM (Array Node) β}
    (hm : Agree m m') (hk : ∀ a, Agree (k a) (k' a)) : Agree (m >>= k) (m' >>= k') := by
  intro nodes nodes' h
  obtain ⟨hresult, hnodes⟩ := hm nodes nodes' h
  have hrest := hk (m.run nodes).1 _ _ hnodes
  change ((k (m.run nodes).1).run _).1 = ((k' (m'.run nodes').1).run _).1 ∧
    outlineOf ((k (m.run nodes).1).run _).2 = outlineOf ((k' (m'.run nodes').1).run _).2
  rwa [← hresult]

end Agree

/-! ### Similar trees -/

namespace Ast

/-- Two trees whose numbering agrees. -/
def Similar (a b : Ast) : Prop := ∀ parent, Agree (number parent a) (number parent b)

theorem agree_numberAll {id : NodeId} {as bs : List Ast} (h : List.Forall₂ Similar as bs) :
    Agree (numberAll id as) (numberAll id bs) := by
  induction h with
  | nil => exact agree_pure []
  | cons hab _ ih => exact (hab (some id)).bind fun _ => ih.bind fun _ => agree_pure _

theorem agree_numberOption {id : NodeId} {a b : Option Ast} (h : Option.Rel Similar a b) :
    Agree (numberOption id a) (numberOption id b) := by
  cases h with
  | some hab => exact (hab (some id)).bind fun _ => agree_pure _
  | none => exact agree_pure none

end Ast

/-- Kinds with similar parts are numbered in the same way. -/
theorem Kind.Lift.agree {k l : Kind Ast} (h : Kind.Lift Ast.Similar k l) (id : NodeId) :
    Agree (Ast.numberKind id k) (Ast.numberKind id l) := by
  -- parts are numbered in the order of the fields, and each one agrees with its counterpart
  cases h with
  | literal | identifier | emptyStatement => exact agree_pure _
  | program h | block h | array h | object h | sequence h | function h | jsxElement h
  | jsxFragment h | declaration _ h | functionDeclaration h | classDeclaration h | other h =>
      exact (Ast.agree_numberAll h).bind fun _ => agree_pure _
  | await ha | unary _ ha | update _ _ ha | expressionStatement ha | shorthand _ _ ha =>
      exact (ha _).bind fun _ => agree_pure _
  | yield _ ho | returnStatement ho =>
      exact (Ast.agree_numberOption ho).bind fun _ => agree_pure _
  | binary _ hl hr | logical _ hl hr | assignment _ hl hr | member _ _ hl hr
  | whileStatement hl hr | doWhileStatement hl hr | property _ _ hl hr =>
      exact (hl _).bind fun _ => (hr _).bind fun _ => agree_pure _
  | conditional ht hc ha | forInStatement _ ht hc ha =>
      exact (ht _).bind fun _ => (hc _).bind fun _ => (ha _).bind fun _ => agree_pure _
  | call _ hf h | construct hf h =>
      exact (hf _).bind fun _ => (Ast.agree_numberAll h).bind fun _ => agree_pure _
  | arrow _ _ h hb => exact (Ast.agree_numberAll h).bind fun _ => (hb _).bind fun _ => agree_pure _
  | declarator ht ho =>
      exact (ht _).bind fun _ => (Ast.agree_numberOption ho).bind fun _ => agree_pure _
  | ifStatement ht hc ho =>
      exact (ht _).bind fun _ => (hc _).bind fun _ => (Ast.agree_numberOption ho).bind fun _ =>
        agree_pure _
  | forStatement hi ht hs hb =>
      exact (Ast.agree_numberOption hi).bind fun _ => (Ast.agree_numberOption ht).bind fun _ =>
        (Ast.agree_numberOption hs).bind fun _ => (hb _).bind fun _ => agree_pure _

/-- **Nodes of corresponding kinds are similar, whatever their spans.** -/
theorem Ast.similar_node {k l : Kind Ast} (h : Kind.Lift Similar k l) (span span' : Span) :
    (node span k).Similar (node span' l) := by
  intro parent nodes nodes' hsame
  have hsize : nodes.size = nodes'.size := by
    simpa using congrArg Array.size hsame
  obtain ⟨hkind, hnodes⟩ := h.agree nodes.size (nodes.push ⟨.other [], span, parent⟩)
    (nodes'.push ⟨.other [], span', parent⟩) (by rw [outlineOf_push, outlineOf_push, hsame])
  rw [run_number_node, run_number_node, ← hsize]
  exact ⟨rfl, by rw [outlineOf_modify, outlineOf_modify, hnodes, hkind]⟩

end Pare
