import Pare.Concrete.Ast

/-!
**What a construct makes of its parts.**

The kind of a construct is put together from its parts, which are picked by their roles, as the
first construct among them, or all in order.  Some constructs also take a part apart: the clause
after `else`, the parameters of an arrow function, the arguments of a call.  This module says which
trees can become the parts of a kind, so that what all of these have can be carried up a tree.

Main definitions:

* `Pare.Concrete.Everywhere` — a property of all nodes of a tree;
* `Pare.Concrete.Apart` — parts that stand one after another;
* `Pare.Concrete.at?`, `Pare.Concrete.first?` — the part in a role and the first construct;
* `Pare.Label.opens` — the parts that a node takes apart.

Main results:

* `Pare.Concrete.toPart_eq` — a part beside its tree, without recursion;
* `Pare.forall_children_kindOf` — **what the parts of a kind can be**.
-/

set_option relaxedAutoImplicit false
set_option autoImplicit false

namespace Pare

/-! ### All nodes of a tree -/

namespace Concrete

/-- A property of all nodes of a tree. -/
inductive Everywhere (P : Concrete → Prop) : Concrete → Prop
  | node {t : Concrete} (here : P t) (below : ∀ c ∈ t.children, Everywhere P c) : Everywhere P t

theorem Everywhere.here {P : Concrete → Prop} {t : Concrete} (h : t.Everywhere P) : P t := by
  cases h with
  | node here _ => exact here

theorem Everywhere.of_mem {P : Concrete → Prop} {t : Concrete} (h : t.Everywhere P) {c : Concrete}
    (hc : c ∈ t.children) : c.Everywhere P := by
  cases h with
  | node _ below => exact below c hc

theorem Everywhere.imp {P Q : Concrete → Prop} {t : Concrete} (h : t.Everywhere P)
    (hPQ : ∀ c, P c → Q c) : t.Everywhere Q := by
  induction h with
  | node here _ ih => exact .node (hPQ _ here) ih

theorem everywhere_node_iff {P : Concrete → Prop} {label : Label} {role : Option Role} {span : Span}
    {children : List Concrete} : (Concrete.node label role span children).Everywhere P ↔
      P (.node label role span children) ∧ ∀ c ∈ children, c.Everywhere P :=
  ⟨fun h => ⟨h.here, fun _ hc => h.of_mem hc⟩, fun h => .node h.1 h.2⟩

mutual

/-- Whether a property holds of all nodes of a tree can be computed if it can for one node. -/
def decideEverywhere (P : Concrete → Prop) [DecidablePred P] :
    (t : Concrete) → Decidable (t.Everywhere P)
  | .node _ _ _ children =>
      haveI := decideAllEverywhere P children
      decidable_of_iff' _ everywhere_node_iff

/-- The same for some trees. -/
def decideAllEverywhere (P : Concrete → Prop) [DecidablePred P] :
    (ts : List Concrete) → Decidable (∀ t ∈ ts, t.Everywhere P)
  | [] => .isTrue (by simp)
  | t :: rest =>
      haveI := decideEverywhere P t
      haveI := decideAllEverywhere P rest
      decidable_of_iff' _ List.forall_mem_cons

end

instance (P : Concrete → Prop) [DecidablePred P] (t : Concrete) : Decidable (t.Everywhere P) :=
  decideEverywhere P t

/-- The parts of the node stand one after another. -/
def Apart (t : Concrete) : Prop := t.children.Pairwise fun a b => a.span.stop ≤ b.span.start

instance (t : Concrete) : Decidable t.Apart := inferInstanceAs (Decidable (List.Pairwise _ _))

end Concrete

/-! ### Parts and their trees -/

theorem Concrete.toParts_eq_map (text : List Char) (ts : List Concrete) :
    Concrete.toParts text ts = ts.map (Concrete.toPart text) := by
  induction ts with
  | nil => rfl
  | cons t ts ih => rw [Concrete.toParts, ih, List.map_cons]

theorem Concrete.source_toPart (text : List Char) (t : Concrete) : (t.toPart text).source = t := by
  cases t
  rw [toPart]

theorem Concrete.source_mem_of_mem_toParts {text : List Char} {ts : List Concrete} {p : Part}
    (h : p ∈ toParts text ts) : p.source ∈ ts := by
  rw [toParts_eq_map] at h
  obtain ⟨t, ht, rfl⟩ := List.mem_map.1 h
  rwa [source_toPart]

theorem Concrete.toPart_eq (text : List Char) (t : Concrete) : t.toPart text =
    ⟨t, assemble text t.label t.span (toParts text t.children),
      Part.asts (toParts text t.children)⟩ := by
  cases t
  rw [toPart]
  rfl

namespace Concrete

/-- The first part in a role, comments aside. -/
def at? (t : Concrete) (r : Role) : Option Concrete :=
  t.children.find? fun c => c.role == some r && !c.isExtra

/-- The first construct among the parts, comments aside. -/
def first? (t : Concrete) : Option Concrete := t.children.find? fun c => c.isNamed && !c.isExtra

theorem at?_toParts (text : List Char) (t : Concrete) (r : Role) :
    Part.at? (toParts text t.children) r = (t.at? r).map (toPart text) := by
  have htest : (fun p : Part => p.source.role == some r && !p.source.isExtra) ∘ toPart text =
      fun c => c.role == some r && !c.isExtra := by
    funext c
    simp only [Function.comp_apply, source_toPart]
  rw [Part.at?, toParts_eq_map, List.find?_map, htest]
  rfl

theorem first?_toParts (text : List Char) (t : Concrete) :
    Part.first? (toParts text t.children) = t.first?.map (toPart text) := by
  have htest : Part.counts ∘ toPart text = fun c => c.isNamed && !c.isExtra := by
    funext c
    simp only [Function.comp_apply, Part.counts, source_toPart]
  rw [Part.first?, toParts_eq_map, List.find?_map, htest]
  rfl

theorem mem_of_first? {t c : Concrete} (h : t.first? = some c) : c ∈ t.children :=
  List.mem_of_find?_eq_some h

/-- Parentheses have the tree of the first construct in them. -/
theorem toAst_of_parenthesized {text : List Char} {t inner : Concrete}
    (hlabel : t.label = .construct .parenthesized) (hfirst : t.first? = some inner) :
    t.toAst text = inner.toAst text := by
  simp only [toAst, toPart_eq text t, hlabel, assemble, first?_toParts, hfirst, Option.map_some]

end Concrete

/-! ### The parts of a construct -/

/-- Does a node take this part of it apart, so that what is directly inside the part becomes part of
the node? -/
def Label.opens (whole : Label) (part : Concrete) : Bool :=
  match whole with
  | .construct .ifStatement => part.role == some .alternative
  | .construct .arrowFunction => part.role == some .parameters
  | .construct .newExpression => part.role == some .arguments
  | .construct .callExpression => part.is .arguments
  | _ => false

section Parts

variable {P : Ast → Prop} {span : Span} {parts : List Part}

theorem forall_asts (h : ∀ p ∈ parts, P p.ast) : ∀ t ∈ Part.asts parts, P t := by
  intro t ht
  obtain ⟨p, hp, rfl⟩ := List.mem_map.1 ht
  exact h p (List.mem_filter.1 hp).1

theorem mem_of_at? {r : Role} {p : Part} (hp : Part.at? parts r = some p) : p ∈ parts :=
  List.mem_of_find?_eq_some hp

theorem role_of_at? {r : Role} {p : Part} (hp : Part.at? parts r = some p) :
    p.source.role = some r := by
  have hfound := List.find?_some hp
  simp only [Bool.and_eq_true, beq_iff_eq] at hfound
  exact hfound.1

theorem of_need (h : ∀ p ∈ parts, P p.ast) (hmissing : P (.missing span.stop)) (r : Role) :
    P (Part.need parts r span) := by
  unfold Part.need
  split
  · rename_i p hp
    exact h p (mem_of_at? hp)
  · exact hmissing

theorem forall_ast? (h : ∀ p ∈ parts, P p.ast) (r : Role) :
    ∀ t ∈ (Part.ast? parts r).toList, P t := by
  intro t ht
  obtain ⟨p, hp, rfl⟩ := Option.map_eq_some_iff.1 (Option.mem_toList.1 ht)
  exact h p (mem_of_at? hp)

theorem forall_header? (h : ∀ p ∈ parts, P p.ast) (r : Role) :
    ∀ t ∈ (Part.header? parts r).toList, P t := by
  intro t ht
  obtain ⟨p, hp, rfl⟩ := Option.map_eq_some_iff.1 (Option.mem_toList.1 ht)
  exact h p (mem_of_at? (Option.filter_eq_some_iff.1 hp).1)

theorem forall_first? (h : ∀ p ∈ parts, P p.ast) :
    ∀ t ∈ ((Part.first? parts).map Part.ast).toList, P t := by
  intro t ht
  obtain ⟨p, hp, rfl⟩ := Option.map_eq_some_iff.1 (Option.mem_toList.1 ht)
  exact h p (List.mem_of_find?_eq_some hp)

theorem forall_filter (h : ∀ p ∈ parts, P p.ast) (q : Part → Bool) :
    ∀ t ∈ (parts.filter q).map Part.ast, P t := by
  intro t ht
  obtain ⟨p, hp, rfl⟩ := List.mem_map.1 ht
  exact h p (List.mem_filter.1 hp).1

/-- The first construct directly inside the other branch of an `if`. -/
theorem forall_head?_inner
    (hinner : ∀ p ∈ parts, Label.opens (.construct .ifStatement) p.source = true →
      ∀ t ∈ p.inner, P t) :
    ∀ t ∈ ((Part.at? parts .alternative).bind fun p => p.inner.head?).toList, P t := by
  intro t ht
  obtain ⟨p, hp, hhead⟩ := Option.bind_eq_some_iff.1 (Option.mem_toList.1 ht)
  have hopens : Label.opens (.construct .ifStatement) p.source = true := by
    simp [Label.opens, role_of_at? hp]
  exact hinner p (mem_of_at? hp) hopens t (List.mem_of_mem_head? hhead)

/-- What a `new` passes. -/
theorem forall_inner
    (hinner : ∀ p ∈ parts, Label.opens (.construct .newExpression) p.source = true →
      ∀ t ∈ p.inner, P t) :
    ∀ t ∈ ((Part.at? parts .arguments).map Part.inner).getD [], P t := by
  cases hp : Part.at? parts .arguments with
  | none => simp
  | some p => exact hinner p (mem_of_at? hp) (by simp [Label.opens, role_of_at? hp])

theorem forall_arrowParameters (h : ∀ p ∈ parts, P p.ast)
    (hinner : ∀ p ∈ parts, Label.opens (.construct .arrowFunction) p.source = true →
      ∀ t ∈ p.inner, P t) :
    ∀ t ∈ arrowParameters parts, P t := by
  unfold arrowParameters
  split
  · rename_i single hsingle
    simpa using h single (mem_of_at? hsingle)
  · rename_i list _ hlist
    exact hinner list (mem_of_at? hlist) (by simp [Label.opens, role_of_at? hlist])
  · simp

/-- A property lists its key and its value, or only its value. -/
theorem forall_children_property {key value : Ast} (hkey : P key) (hvalue : P value)
    (shorthand method computed : Bool) :
    ∀ t ∈ @Kind.children Ast (Classical.typeDecidableEq Ast)
      (.property key value shorthand method computed), P t := by
  simp only [Kind.children]
  split
  · simpa using hvalue
  · simpa using ⟨hkey, hvalue⟩

/-- What all parts of a construct have, and all parts of those that it takes apart, its parts as a
tree of kinds have; these may also be the place of a missing part, the function that a method stands
for, or the name that is both key and value. -/
theorem forall_children_kindOf {text : List Char} {c : Construct} (h : ∀ p ∈ parts, P p.ast)
    (hinner : ∀ p ∈ parts, Label.opens (.construct c) p.source = true → ∀ t ∈ p.inner, P t)
    (hmissing : P (.missing span.stop))
    (hmethod : P (methodFunction span parts))
    (hname : P (.node span (.identifier (Text.excerpt text span)))) :
    ∀ t ∈ @Kind.children Ast (Classical.typeDecidableEq Ast) (kindOf text c span parts), P t := by
  have hall := forall_asts h
  have hneed := of_need h hmissing
  have hast? := forall_ast? h
  have hheader := forall_header? h
  have hfirst := forall_first? h
  cases c with
  | expressionStatement | awaitExpression =>
      simp only [kindOf]
      split
      · rename_i e he
        rw [he] at hfirst
        exact hfirst
      · simp [Kind.children]
  | returnStatement | yieldExpression => exact hfirst
  | variableDeclaration | lexicalDeclaration => exact forall_filter h _
  | ifStatement =>
      exact List.forall_mem_cons.2 ⟨hneed .condition, List.forall_mem_cons.2
        ⟨hneed .consequence, forall_head?_inner hinner⟩⟩
  | forStatement =>
      simp only [kindOf, Kind.children, List.forall_mem_append, List.forall_mem_singleton]
      exact ⟨⟨⟨hheader .initializer, hheader .condition⟩, hheader .increment⟩, hneed .body⟩
  | arrowFunction =>
      exact List.forall_mem_append.2
        ⟨forall_arrowParameters h hinner, List.forall_mem_singleton.2 (hneed .body)⟩
  | binaryExpression =>
      simp only [kindOf, binaryKind]
      split <;> simp [Kind.children, hneed]
  | callExpression =>
      simp only [kindOf]
      split
      · rename_i args hargs
        split
        · rename_i hlist
          exact List.forall_mem_cons.2 ⟨hneed .callee, hinner args (mem_of_at? hargs) hlist⟩
        · exact hall
      · exact hall
  | newExpression => exact List.forall_mem_cons.2 ⟨hneed .callee, forall_inner hinner⟩
  | variableDeclarator => exact List.forall_mem_cons.2 ⟨hneed .name, hast? .value⟩
  | pair => exact forall_children_property (hneed .key) (hneed .value) _ _ _
  | shorthandIdentifier => exact forall_children_property hname hname _ _ _
  | methodDefinition => exact forall_children_property (hneed .name) hmethod _ _ _
  | jsxElement =>
      simp only [kindOf]
      split <;> exact hall
  | _ => first | exact hall | simp [kindOf, Kind.children, hneed]

end Parts

end Pare
