import Pare.Proofs.Parts

/-!
**Parts lie inside the whole.**

In a concrete tree the span of a node includes the spans of its children.  The tree of kinds keeps
this, although it is put together quite differently: parentheses are left out, the parts of an inner
list become parts of the construct around it, a method is given a function of its own span, and a
part that the text does not have gets an empty place at the end of the construct.

Main definitions:

* `Pare.Concrete.Nested` — every node includes its children;
* `Pare.Ast.Within` — a tree that lies inside a span and whose nodes include their parts;
* `Pare.AllWithin` — the same of all members of a list.

Main results:

* `Pare.allWithin_kindOf` — the parts of a construct lie inside it;
* `Pare.Concrete.Nested.inside` — **the tree of kinds of a nested tree is nested**.
-/

set_option relaxedAutoImplicit false
set_option autoImplicit false

namespace Pare

/-! ### Spans -/

theorem Span.contains_self (s : Span) : s.contains s = true :=
  Span.contains_iff.2 ⟨Nat.le_refl _, Nat.le_refl _⟩

theorem Span.contains_trans {a b c : Span} (hab : a.contains b = true) (hbc : b.contains c = true) :
    a.contains c = true := by
  rw [Span.contains_iff] at hab hbc ⊢
  omega

/-- The place at the end of a span lies inside it. -/
theorem Span.contains_point_stop (s : Span) : s.contains (.point s.stop) = true :=
  Span.contains_iff.2 ⟨s.start_le_stop, Nat.le_refl _⟩

/-! ### Nested trees -/

/-- Every node of the tree includes its children. -/
inductive Concrete.Nested : Concrete → Prop
  | node {label : Label} {role : Option Role} {span : Span} {children : List Concrete}
      (hinside : ∀ c ∈ children, span.contains c.span = true) (hbelow : ∀ c ∈ children, Nested c) :
      Nested (.node label role span children)

@[simp] theorem Concrete.nested_node_iff {label : Label} {role : Option Role} {span : Span}
    {children : List Concrete} : (Concrete.node label role span children).Nested ↔
      (∀ c ∈ children, span.contains c.span = true) ∧ ∀ c ∈ children, c.Nested := by
  constructor
  · rintro ⟨hinside, hbelow⟩
    exact ⟨hinside, hbelow⟩
  · rintro ⟨hinside, hbelow⟩
    exact .node hinside hbelow

open Classical in
/-- A tree of kinds that lies inside a span and whose nodes include their parts. -/
inductive Ast.Within : Span → Ast → Prop
  | node {outer span : Span} {kind : Kind Ast} (hspan : outer.contains span = true)
      (hparts : ∀ t ∈ kind.children, Within span t) : Within outer (.node span kind)

/-- All trees of a list lie inside a span. -/
def AllWithin (span : Span) (ts : List Ast) : Prop := ∀ t ∈ ts, t.Within span

@[simp] theorem allWithin_nil (span : Span) : AllWithin span [] := by simp [AllWithin]

@[simp] theorem allWithin_cons {span : Span} {t : Ast} {ts : List Ast} :
    AllWithin span (t :: ts) ↔ t.Within span ∧ AllWithin span ts := by
  simp [AllWithin]

@[simp] theorem allWithin_append {span : Span} {ts us : List Ast} :
    AllWithin span (ts ++ us) ↔ AllWithin span ts ∧ AllWithin span us := by
  simp only [AllWithin, List.mem_append]
  exact ⟨fun h => ⟨fun t ht => h t (.inl ht), fun t ht => h t (.inr ht)⟩,
    fun h t ht => ht.elim (h.1 t) (h.2 t)⟩

namespace Ast

/-- What lies inside a span lies inside every larger one. -/
theorem Within.mono {outer span : Span} {t : Ast} (h : t.Within span)
    (hspan : outer.contains span = true) : t.Within outer := by
  cases h with
  | node hin hparts => exact .node (Span.contains_trans hspan hin) hparts

/-- A node lies inside its own span if its parts do. -/
theorem within_node {span : Span} {kind : Kind Ast}
    (h : AllWithin span (@Kind.children Ast (Classical.typeDecidableEq Ast) kind)) :
    (Ast.node span kind).Within span :=
  .node (Span.contains_self span) h

theorem within_missing (span : Span) : (missing span.stop).Within span :=
  .node (Span.contains_point_stop span) (by simp [Kind.children])

end Ast

/-! ### Parts inside the whole -/

/-- A part whose tree, with the trees directly inside it, lies inside a span. -/
structure Part.Inside (span : Span) (p : Part) : Prop where
  ast : p.ast.Within span
  inner : AllWithin span p.inner

section Inside

variable {span : Span} {parts : List Part}

theorem allWithin_asts (h : ∀ p ∈ parts, p.Inside span) : AllWithin span (Part.asts parts) :=
  forall_asts fun p hp => (h p hp).ast

theorem within_methodFunction (h : ∀ p ∈ parts, p.Inside span) :
    (methodFunction span parts).Within span := by
  have hast? := forall_ast? fun p hp => (h p hp).ast
  exact Ast.within_node (List.forall_mem_append.2 ⟨hast? .parameters, hast? .body⟩)

/-- The parts of a construct lie inside it. -/
theorem allWithin_kindOf (h : ∀ p ∈ parts, p.Inside span) (text : List Char) (c : Construct) :
    AllWithin span
      (@Kind.children Ast (Classical.typeDecidableEq Ast) (kindOf text c span parts)) :=
  forall_children_kindOf (fun p hp => (h p hp).ast) (fun p hp _ => (h p hp).inner)
    (Ast.within_missing span) (within_methodFunction h)
    (Ast.within_node (by simp [Kind.children]))

theorem within_assemble (h : ∀ p ∈ parts, p.Inside span) (text : List Char) (label : Label) :
    (assemble text label span parts).Within span := by
  unfold assemble
  split
  · split
    · rename_i inner hinner
      exact (h inner (List.mem_of_find?_eq_some hinner)).ast
    · exact Ast.within_node (by simp [Kind.children])
  · exact Ast.within_node (allWithin_kindOf h text _)
  · exact Ast.within_node (allWithin_asts h)

end Inside

/-! ### The tree of kinds -/

/-- **The tree of kinds of a nested tree is nested**, inside every span that includes the tree. -/
theorem Concrete.Nested.inside {t : Concrete} (h : t.Nested) (text : List Char) {outer : Span}
    (houter : outer.contains t.span = true) : (t.toPart text).Inside outer := by
  induction h generalizing outer with
  | @node label role span children hinside hbelow ih =>
      have hparts : ∀ p ∈ Concrete.toParts text children, p.Inside span := by
        intro p hp
        rw [Concrete.toParts_eq_map] at hp
        obtain ⟨c, hc, rfl⟩ := List.mem_map.1 hp
        exact ih c hc (hinside c hc)
      rw [Concrete.toPart]
      refine ⟨(within_assemble hparts text label).mono houter, fun t ht => ?_⟩
      exact (allWithin_asts hparts t ht).mono houter

/-- The constructs directly inside a node lie inside every span that includes the node. -/
theorem Concrete.Nested.allWithin {t : Concrete} (h : t.Nested) (text : List Char) {outer : Span}
    (houter : outer.contains t.span = true) :
    AllWithin outer (Part.asts (Concrete.toParts text t.children)) := by
  obtain ⟨label, role, span, children⟩ := t
  exact (h.inside text houter).inner

end Pare
