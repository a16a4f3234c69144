import Mathlib.Tactic.MkIffOfInductiveProp
import Pare.Proofs.Leaves
import Pare.Proofs.Readback

/-!
**Where the nodes of a numbered tree come from.**

Every node of the numbered tree of a program reads as a tree of kinds, and this was made from a node
of the concrete tree that shows, with few exceptions: the program itself, the place of a missing
part, the function that a method stands for, and a name that is both key and value.  None of these
has an expression in one of the slots where its parentheses can be dropped.  So each expression in
such a slot was made from a part of a construct of the program, in the slot of the same name.

Main definitions:

* `Pare.Slot` — the slots of an expression in the construct around it;
* `Pare.Kind.slots`, `Pare.Concrete.slots` — the expressions in these slots, in a kind and in a
  construct;
* `Pare.Concrete.Delimited` — what the grammar gives for parentheses and tokens;
* `Pare.StemsFrom` — a tree of kinds that is made on the way from a program to its tree.

Main results:

* `Pare.stemsFrom_toAst` — the tree of a node that shows stems from the program;
* `Pare.StemsFrom.of_mem_children`, `Pare.StemsFrom.exists_of_mem_slots` — so do its parts, and
  those in the slots were made from the parts of a construct;
* `Pare.Concrete.exists_stem` — **every node of the numbered tree reads as a tree that stems from
  the program**.
-/

set_option relaxedAutoImplicit false
set_option autoImplicit false

namespace Pare

/-! ### Slots -/

/-- The slots of an expression in the construct around it. -/
inductive Slot where
  /-- What a variable starts with. -/
  | initializer
  /-- What a function returns. -/
  | returned
  /-- An element of an array. -/
  | element
  /-- The value of a property. -/
  | paired
  /-- The body of an arrow function that is no block. -/
  | body
  /-- What is assigned without computing. -/
  | assigned
  /-- The expression that is a statement. -/
  | statement
deriving DecidableEq, Repr

/-- The parts of a construct that are in these slots. -/
def Kind.slots {α : Type} : Kind α → List (Slot × α)
  | .declarator _ init => init.toList.map (Slot.initializer, ·)
  | .returnStatement argument => argument.toList.map (Slot.returned, ·)
  | .array elements => elements.map (Slot.element, ·)
  | .property _ value false false _ => [(.paired, value)]
  | .arrow _ body true _ => [(.body, body)]
  | .assignment op _ right => if op = "=" then [(.assigned, right)] else []
  | .expressionStatement expression => [(.statement, expression)]
  | _ => []

namespace Concrete

/-- The text of the operator of an assignment, which a plain one does not have as a part. -/
def operator (text : List Char) (t : Concrete) : String :=
  ((t.at? .operator).map fun c => Text.excerpt text c.span).getD "="

/-- The parts of a construct that are in these slots, with the parentheses around them. -/
def slots (text : List Char) (t : Concrete) : List (Slot × Concrete) :=
  match t.label with
  | .construct .variableDeclarator => (t.at? .value).toList.map (Slot.initializer, ·)
  | .construct .returnStatement => t.first?.toList.map (Slot.returned, ·)
  | .construct .array =>
      (t.children.filter fun c => c.isNamed && !c.isExtra).map (Slot.element, ·)
  | .construct .pair => (t.at? .value).toList.map (Slot.paired, ·)
  | .construct .arrowFunction =>
      ((t.at? .body).filter fun c => !c.is .statementBlock).toList.map (Slot.body, ·)
  | .construct .assignmentExpression | .construct .augmentedAssignment =>
      if t.operator text = "=" then (t.at? .right).toList.map (Slot.assigned, ·) else []
  | .construct .expressionStatement => t.first?.toList.map (Slot.statement, ·)
  | _ => []

/-- Is the node the sign with this text? -/
def isLeaf (text : List Char) (sign : String) (t : Concrete) : Bool :=
  t.label == .sign sign && t.children.isEmpty && Text.excerpt text t.span == sign

/-- Are the parts of the node `(`, a construct and `)`, comments aside? -/
def encloses (text : List Char) (t : Concrete) : Bool :=
  match t.children.filter fun c => !c.isExtra with
  | [left, inner, right] => left.isLeaf text "(" && inner.isNamed && right.isLeaf text ")"
  | _ => false

/-- What the grammar gives for parentheses and for what is taken as one token. -/
@[mk_iff]
structure Delimited (text : List Char) (t : Concrete) : Prop where
  /-- The parts stand one after another. -/
  apart : t.Apart
  /-- Comments, the text of markup and the line `#!` have no parts. -/
  whole : t.label ∈ [Construct.comment, .htmlComment, .jsxText, .hashBangLine].map .construct →
    t.children = []
  /-- Parentheses hold one construct. -/
  enclosing : t.is .parenthesized = true → t.encloses text = true
  /-- What a node takes apart is not taken as one token. -/
  opened : ∀ c ∈ t.children, t.label.opens c = true → isAtomic c.label = false
  /-- A property has a value. -/
  value : t.is .pair = true → (t.at? .value).isSome = true
  /-- An assignment has a right side. -/
  right : t.is .assignmentExpression = true ∨ t.is .augmentedAssignment = true →
    (t.at? .right).isSome = true

instance (text : List Char) (t : Concrete) : Decidable (t.Delimited text) :=
  decidable_of_iff' _ (delimited_iff text t)

end Concrete

/-! ### Stems -/

/-- A tree of kinds that is made on the way from a program to its tree. -/
inductive StemsFrom (text : List Char) (program : Concrete) : Ast → Prop
  | construct {u : Concrete} {c : Construct} (hshows : program.Shows u)
      (hlabel : u.label = .construct c) (hne : c ≠ .parenthesized) :
      StemsFrom text program
        (.node u.span (kindOf text c u.span (Concrete.toParts text u.children)))
  | sign {u : Concrete} {s : String} (hshows : program.Shows u) (hlabel : u.label = .sign s) :
      StemsFrom text program
        (.node u.span (.other (Part.asts (Concrete.toParts text u.children))))
  | root (span : Span) : StemsFrom text program
      (.node span (.program (Part.asts (Concrete.toParts text program.children))))
  | method {u : Concrete} (hshows : program.Shows u) (hopen : Concrete.isAtomic u.label = false) :
      StemsFrom text program (methodFunction u.span (Concrete.toParts text u.children))
  | missing (offset : Nat) : StemsFrom text program (.missing offset)
  | name (span : Span) (name : String) : StemsFrom text program (.node span (.identifier name))

section Stems

variable {text : List Char} {program : Concrete}

/-- A node that encloses a construct has it as its only one. -/
theorem Concrete.exists_of_encloses {t : Concrete} (h : t.encloses text = true) :
    ∃ left inner right, t.children.filter (fun c => !c.isExtra) = [left, inner, right] ∧
      left.isLeaf text "(" = true ∧ right.isLeaf text ")" = true ∧ t.first? = some inner := by
  unfold encloses at h
  split at h
  · rename_i left inner right hparts
    simp only [Bool.and_eq_true] at h
    obtain ⟨⟨hleft, hinner⟩, hright⟩ := h
    have hsign : left.isNamed = false := by
      simp only [isLeaf, Bool.and_eq_true, beq_iff_eq] at hleft
      simp only [isNamed, hleft.1.1]
    refine ⟨left, inner, right, hparts, hleft, hright, ?_⟩
    have hfirst : t.first? = (t.children.filter fun c => !c.isExtra).find? isNamed := by
      simp [first?, List.find?_filter, Bool.and_comm]
    simp [hfirst, hparts, hsign, hinner]
  · cases h

theorem Concrete.Shows.child {u c : Concrete} (h : program.Shows u)
    (hopen : isAtomic u.label = false) (hc : c ∈ u.children) : program.Shows c :=
  h.trans (.inside hopen hc (.here c))

/-- A construct other than parentheses has the kind that it makes of its parts. -/
theorem Concrete.toAst_of_construct {t : Concrete} {c : Construct} (hlabel : t.label = .construct c)
    (hne : c ≠ .parenthesized) :
    t.toAst text = .node t.span (kindOf text c t.span (toParts text t.children)) := by
  simp only [toAst, toPart_eq text t, hlabel]
  unfold assemble
  split
  · rename_i h
    cases h
    exact absurd rfl hne
  · rename_i h
    cases h
    rfl
  · rename_i h
    cases h

theorem Concrete.toAst_of_sign {t : Concrete} {s : String} (hlabel : t.label = .sign s) :
    t.toAst text = .node t.span (.other (Part.asts (toParts text t.children))) := by
  simp only [toAst, toPart_eq text t, hlabel, assemble]

/-- The tree of a node that shows stems from the program. -/
theorem stemsFrom_toAst (h : program.Everywhere (Concrete.Delimited text)) {u : Concrete}
    (hshows : program.Shows u) : StemsFrom text program (u.toAst text) := by
  have hu := hshows.everywhere h
  induction hu with
  | @node u hhere _ ih =>
      cases hlabel : u.label with
      | sign s =>
          rw [Concrete.toAst_of_sign hlabel]
          exact .sign hshows hlabel
      | construct c =>
          by_cases hne : c = .parenthesized
          · subst hne
            obtain ⟨_, inner, _, _, _, _, hfirst⟩ :=
              Concrete.exists_of_encloses (hhere.enclosing (by simp [Concrete.is, hlabel]))
            have hmem := Concrete.mem_of_first? hfirst
            rw [Concrete.toAst_of_parenthesized hlabel hfirst]
            exact ih inner hmem (hshows.child (by rw [hlabel]; rfl) hmem)
          · rw [Concrete.toAst_of_construct hlabel hne]
            exact .construct hshows hlabel hne

/-- The trees of the parts of a node that is open stem from the program. -/
theorem stemsFrom_parts (h : program.Everywhere (Concrete.Delimited text)) {u : Concrete}
    (hshows : program.Shows u) (hopen : Concrete.isAtomic u.label = false) :
    ∀ p ∈ Concrete.toParts text u.children, StemsFrom text program p.ast := by
  intro p hp
  rw [Concrete.toParts_eq_map] at hp
  obtain ⟨c, hc, rfl⟩ := List.mem_map.1 hp
  exact stemsFrom_toAst h (hshows.child hopen hc)

/-- What is taken as one token has no parts in its kind. -/
theorem children_kindOf_of_isAtomic {u : Concrete} (hu : u.Delimited text) {c : Construct}
    (hlabel : u.label = .construct c) (hatomic : Concrete.isAtomic u.label = true) (span : Span) :
    @Kind.children Ast (Classical.typeDecidableEq Ast)
      (kindOf text c span (Concrete.toParts text u.children)) = [] := by
  have hwhole := hu.whole
  rw [hlabel] at hatomic hwhole
  simp only [Concrete.isAtomic, List.contains_cons, Bool.or_eq_true, beq_iff_eq,
    List.contains_nil, Bool.false_eq_true, or_false] at hatomic
  rcases hatomic with rfl | rfl | rfl | rfl | rfl | rfl | rfl | rfl
  iterate 4 rfl
  all_goals
    rw [hwhole (by decide)]
    rfl

/-- The parts of a tree that stems from a program do so too. -/
theorem StemsFrom.of_mem_children {span : Span} {kind : Kind Ast}
    (h : StemsFrom text program (.node span kind))
    (hprogram : Concrete.isAtomic program.label = false)
    (hdelimited : program.Everywhere (Concrete.Delimited text)) :
    ∀ b ∈ @Kind.children Ast (Classical.typeDecidableEq Ast) kind, StemsFrom text program b := by
  cases h with
  | @construct u c hshows hlabel hne =>
      have hu := hshows.everywhere hdelimited
      by_cases hopen : Concrete.isAtomic u.label = false
      · have hparts := stemsFrom_parts hdelimited hshows hopen
        refine forall_children_kindOf hparts (fun p hp hopens => ?_) (.missing _)
          (.method hshows hopen) (.name _ _)
        rw [Concrete.toParts_eq_map] at hp
        obtain ⟨part, hpart, rfl⟩ := List.mem_map.1 hp
        rw [Concrete.source_toPart, ← hlabel] at hopens
        -- what is taken apart is open, so what is inside it shows
        rw [Concrete.toPart_eq]
        exact forall_asts (stemsFrom_parts hdelimited (hshows.child hopen hpart)
          (hu.here.opened part hpart hopens))
      · rw [children_kindOf_of_isAtomic hu.here hlabel (by simpa using hopen)]
        simp
  | @sign u s hshows hlabel =>
      exact forall_asts (stemsFrom_parts hdelimited hshows (by rw [hlabel]; rfl))
  | root => exact forall_asts (stemsFrom_parts hdelimited (.here program) hprogram)
  | @method u hshows hopen =>
      have hast? := forall_ast? (stemsFrom_parts hdelimited hshows hopen)
      exact List.forall_mem_append.2 ⟨hast? .parameters, hast? .body⟩
  | missing | name => simp [Kind.children]

theorem exists_of_mem_ast? {u : Concrete} {r : Role} {b : Ast}
    (hb : b ∈ Part.ast? (Concrete.toParts text u.children) r) :
    ∃ v, u.at? r = some v ∧ b = v.toAst text := by
  rw [Part.ast?, Concrete.at?_toParts, Option.map_map] at hb
  obtain ⟨v, hv, rfl⟩ := Option.map_eq_some_iff.1 hb
  exact ⟨v, hv, rfl⟩

theorem exists_of_mem_first? {u : Concrete} {b : Ast}
    (hb : b ∈ (Part.first? (Concrete.toParts text u.children)).map Part.ast) :
    ∃ v, u.first? = some v ∧ b = v.toAst text := by
  rw [Concrete.first?_toParts, Option.map_map] at hb
  obtain ⟨v, hv, rfl⟩ := Option.map_eq_some_iff.1 hb
  exact ⟨v, hv, rfl⟩

/-- A part that is there is the one that is needed. -/
theorem exists_need_eq (text : List Char) {u : Concrete} {r : Role} (h : (u.at? r).isSome = true) :
    ∃ v, u.at? r = some v ∧ Part.need (Concrete.toParts text u.children) r u.span =
      v.toAst text := by
  obtain ⟨v, hv⟩ := Option.isSome_iff_exists.1 h
  refine ⟨v, hv, ?_⟩
  rw [Part.need, Concrete.at?_toParts, hv]
  rfl

theorem exists_of_mem_asts {u : Concrete} {b : Ast}
    (hb : b ∈ Part.asts (Concrete.toParts text u.children)) :
    ∃ v ∈ u.children, (v.isNamed && !v.isExtra) = true ∧ b = v.toAst text := by
  obtain ⟨p, hp, rfl⟩ := List.mem_map.1 hb
  obtain ⟨hp, hcounts⟩ := List.mem_filter.1 hp
  rw [Concrete.toParts_eq_map] at hp
  obtain ⟨v, hv, rfl⟩ := List.mem_map.1 hp
  rw [Part.counts, Concrete.source_toPart, Bool.and_eq_true] at hcounts
  exact ⟨v, hv, hcounts.1, rfl⟩

theorem Concrete.operator_eq (text : List Char) (u : Concrete) : u.operator text =
    (Part.text? text (toParts text u.children) .operator).getD "=" := by
  have htext : (fun p : Part => Text.excerpt text p.source.span) ∘ toPart text =
      fun c => Text.excerpt text c.span := by
    funext c
    simp only [Function.comp_apply, source_toPart]
  rw [operator, Part.text?, at?_toParts, Option.map_map, htext]

theorem mem_map_slot {α : Type} {as : List α} {a : α} {p slot : Slot} :
    (slot, a) ∈ as.map (p, ·) ↔ p = slot ∧ a ∈ as := by
  constructor
  · intro h
    obtain ⟨x, hx, heq⟩ := List.mem_map.1 h
    cases heq
    exact ⟨rfl, hx⟩
  · rintro ⟨rfl, ha⟩
    exact List.mem_map.2 ⟨a, ha, rfl⟩

/-- A part in a slot is a part, and of a construct that is not taken as one token. -/
theorem Concrete.mem_of_mem_slots {u v : Concrete} {slot : Slot}
    (h : (slot, v) ∈ u.slots text) : v ∈ u.children ∧ isAtomic u.label = false := by
  have hat : ∀ {p : Slot} {r : Role}, (slot, v) ∈ (u.at? r).toList.map (p, ·) →
      v ∈ u.children :=
    fun h => List.mem_of_find?_eq_some (Option.mem_toList.1 (mem_map_slot.1 h).2)
  have hfirst : ∀ {p : Slot}, (slot, v) ∈ u.first?.toList.map (p, ·) → v ∈ u.children :=
    fun h => mem_of_first? (Option.mem_toList.1 (mem_map_slot.1 h).2)
  unfold slots at h
  split at h
  case h_9 => simp at h
  all_goals
    rename_i hlabel
    refine ⟨?_, by rw [hlabel]; rfl⟩
  case h_1 | h_4 => exact hat h
  case h_2 | h_8 => exact hfirst h
  case h_3 => exact (List.mem_filter.1 (mem_map_slot.1 h).2).1
  case h_5 =>
      have hbody := Option.mem_filter_iff.1 (Option.mem_toList.1 (mem_map_slot.1 h).2)
      exact List.mem_of_find?_eq_some hbody.1
  case h_6 | h_7 =>
      split at h
      · exact hat h
      · simp at h

/-- A tree in a slot of a construct was made from the part in this slot. -/
theorem exists_of_mem_slots_kindOf {u : Concrete} (hu : u.Delimited text) {c : Construct}
    (hlabel : u.label = .construct c) {slot : Slot} {b : Ast}
    (hb : (slot, b) ∈ (kindOf text c u.span (Concrete.toParts text u.children)).slots) :
    ∃ v, (slot, v) ∈ u.slots text ∧ b = v.toAst text := by
  have his : u.is c = true := by rw [Concrete.is, hlabel, beq_self_eq_true]
  rw [Concrete.slots, hlabel]
  -- a construct that has no slots is left to the last case
  cases c with
  | variableDeclarator =>
      obtain ⟨rfl, hmem⟩ := mem_map_slot.1 hb
      obtain ⟨v, hv, rfl⟩ := exists_of_mem_ast? (Option.mem_toList.1 hmem)
      exact ⟨v, mem_map_slot.2 ⟨rfl, Option.mem_toList.2 hv⟩, rfl⟩
  | returnStatement =>
      obtain ⟨rfl, hmem⟩ := mem_map_slot.1 hb
      obtain ⟨v, hv, rfl⟩ := exists_of_mem_first? (Option.mem_toList.1 hmem)
      exact ⟨v, mem_map_slot.2 ⟨rfl, Option.mem_toList.2 hv⟩, rfl⟩
  | expressionStatement =>
      simp only [kindOf] at hb
      split at hb
      · rename_i t ht
        obtain ⟨v, hv, rfl⟩ := exists_of_mem_first? ht
        cases List.mem_singleton.1 hb
        exact ⟨v, mem_map_slot.2 ⟨rfl, Option.mem_toList.2 hv⟩, rfl⟩
      · simp [Kind.slots] at hb
  | array =>
      obtain ⟨rfl, hmem⟩ := mem_map_slot.1 hb
      obtain ⟨v, hv, hcounts, rfl⟩ := exists_of_mem_asts hmem
      exact ⟨v, mem_map_slot.2 ⟨rfl, List.mem_filter.2 ⟨hv, hcounts⟩⟩, rfl⟩
  | pair =>
      obtain ⟨v, hv, hneed⟩ := exists_need_eq text (hu.value his)
      cases List.mem_singleton.1 hb
      exact ⟨v, mem_map_slot.2 ⟨rfl, Option.mem_toList.2 hv⟩, hneed⟩
  | arrowFunction =>
      simp only [kindOf] at hb
      cases hexpression : (Part.at? (Concrete.toParts text u.children) .body).isSome &&
          !Part.isAt (Concrete.toParts text u.children) .body .statementBlock with
      | false => simp [hexpression, Kind.slots] at hb
      | true =>
          rw [hexpression] at hb
          rw [Part.isAt, Concrete.at?_toParts, Option.isSome_map, Bool.and_eq_true] at hexpression
          obtain ⟨v, hv, hneed⟩ := exists_need_eq text hexpression.1
          have hblock : v.is .statementBlock = false := by
            simpa [hv, Concrete.source_toPart] using hexpression.2
          have hbody : v ∈ (u.at? .body).filter fun c => !c.is .statementBlock := by
            simp [hv, hblock]
          cases List.mem_singleton.1 hb
          exact ⟨v, mem_map_slot.2 ⟨rfl, Option.mem_toList.2 hbody⟩, hneed⟩
  | assignmentExpression | augmentedAssignment =>
      obtain ⟨v, hv, hneed⟩ := exists_need_eq text (hu.right (by simp [his]))
      simp only [kindOf, Kind.slots, ← Concrete.operator_eq] at hb ⊢
      split at hb
      · rename_i hplain
        cases List.mem_singleton.1 hb
        rw [if_pos hplain]
        exact ⟨v, mem_map_slot.2 ⟨rfl, Option.mem_toList.2 hv⟩, hneed⟩
      · simp at hb
  | awaitExpression | callExpression | jsxElement =>
      simp only [kindOf] at hb
      repeat' split at hb
      all_goals simp [Kind.slots] at hb
  | binaryExpression =>
      simp only [kindOf, binaryKind] at hb
      split at hb <;> simp [Kind.slots] at hb
  | _ => simp [kindOf, Kind.slots] at hb

/-- Where a tree that stems from a program has a part in one of the slots, the two were made from
a construct of the program and its part in this slot. -/
theorem StemsFrom.exists_of_mem_slots {span : Span} {kind : Kind Ast}
    (h : StemsFrom text program (.node span kind))
    (hdelimited : program.Everywhere (Concrete.Delimited text)) {slot : Slot} {b : Ast}
    (hb : (slot, b) ∈ kind.slots) :
    ∃ u v, program.Shows u ∧ (slot, v) ∈ u.slots text ∧ u.toAst text = .node span kind ∧
      v.toAst text = b := by
  cases h with
  | @construct u c hshows hlabel hne =>
      obtain ⟨v, hslot, hv⟩ :=
        exists_of_mem_slots_kindOf (hshows.everywhere hdelimited).here hlabel hb
      exact ⟨u, v, hshows, hslot, Concrete.toAst_of_construct hlabel hne, hv.symm⟩
  | sign | root | method | missing | name => simp [Kind.slots] at hb

end Stems

/-! ### Numbered trees -/

theorem exists_of_mem_map_slot {α β : Type} {R : α → β → Prop} {as : List α} {bs : List β}
    (h : List.Forall₂ R as bs) {p slot : Slot} {a : α} (ha : (slot, a) ∈ as.map (p, ·)) :
    ∃ b, (slot, b) ∈ bs.map (p, ·) ∧ R a b := by
  obtain ⟨rfl, hmem⟩ := mem_map_slot.1 ha
  obtain ⟨b, hb, hab⟩ := exists_of_mem_of_forall₂ h hmem
  exact ⟨b, mem_map_slot.2 ⟨rfl, hb⟩, hab⟩

/-- What is in a slot of a kind is related to what is in this slot of a corresponding kind. -/
theorem Kind.Lift.exists_of_mem_slots {α β : Type} {R : α → β → Prop} {k : Kind α} {l : Kind β}
    (h : Kind.Lift R k l) {slot : Slot} {a : α} (ha : (slot, a) ∈ k.slots) :
    ∃ b, (slot, b) ∈ l.slots ∧ R a b := by
  cases h with
  | declarator _ ho | returnStatement ho => exact exists_of_mem_map_slot (optionRel_toList ho) ha
  | array h => exact exists_of_mem_map_slot h ha
  | expressionStatement he =>
      exact exists_of_mem_map_slot (.cons he .nil) ha
  | property method _ _ hv =>
      cases method with
      | false => exact exists_of_mem_map_slot (.cons hv .nil) ha
      | true => simp [slots] at ha
  | arrow expression _ _ hb =>
      cases expression with
      | true => exact exists_of_mem_map_slot (.cons hb .nil) ha
      | false => simp [slots] at ha
  | assignment op _ hr =>
      simp only [slots] at ha ⊢
      split
      · rename_i hop
        rw [if_pos hop] at ha
        exact exists_of_mem_map_slot (.cons hr .nil) ha
      · rename_i hop
        rw [if_neg hop] at ha
        simp at ha
  | _ => simp [slots] at ha

/-- Every node of a numbered tree but the program is a part of a node with a smaller number. -/
theorem Tree.Numbered.exists_whole {t : Tree} {span : Span} (h : t.Numbered span) {id : Nat}
    (hpos : 0 < id) {node : Node} (hnode : t.nodes[id]? = some node) :
    ∃ (up : Nat) (whole : Node), up < id ∧ t.nodes[up]? = some whole ∧
      id ∈ whole.kind.children := by
  have hlisted : ∃ (up : Nat) (whole : Node), t.nodes[up]? = some whole ∧
      id ∈ whole.kind.children := by
    obtain ⟨root, hroot, -, -, hrow⟩ := h
    obtain ⟨_, up, -, -, ⟨-, hid⟩ | ⟨whole, hwhole, hid⟩⟩ :=
      hrow.exists_parent hpos (Tree.lt_size hnode)
    · exact ⟨Tree.root, root, hroot, hid⟩
    · exact ⟨up, whole, hwhole, hid⟩
  obtain ⟨up, whole, hwhole, hid⟩ := hlisted
  exact ⟨up, whole, (h.ranked up id (by rwa [Tree.parts_eq hwhole])).1, hwhole, hid⟩

/-- **Every node of the numbered tree reads as a tree that stems from the program.** -/
theorem Concrete.exists_stem {text : List Char} {program : Concrete} (hnested : program.Nested)
    (hstop : program.span.stop ≤ Text.byteSize text) (hprogram : isAtomic program.label = false)
    (hdelimited : program.Everywhere (Delimited text)) {id : Nat} {node : Node}
    (hnode : (Concrete.toTree text program).nodes[id]? = some node) :
    ∃ a, Reads (Concrete.toTree text program).nodes id a ∧ StemsFrom text program a := by
  induction id using Nat.strongRecOn generalizing node with
  | ind id ih =>
      rcases Nat.eq_zero_or_pos id with rfl | hpos
      · exact ⟨_, reads_toTree text program, .root _⟩
      · -- the tree of the node is a part of the tree of its parent
        obtain ⟨up, whole, hlt, hwhole, hid⟩ := (hnested.numbered hstop).exists_whole hpos hnode
        obtain ⟨a, hreads, hstem⟩ := ih up hlt hwhole
        cases hreads with
        | @node _ n kind hn hkind =>
            obtain rfl : whole = n := Option.some.inj (hwhole.symm.trans hn)
            obtain ⟨b, hb, hreads⟩ :=
              @Kind.Lift.exists_of_mem_children _ _ _ (Classical.typeDecidableEq Ast) _ _ _ hkind
                _ hid
            exact ⟨b, hreads, hstem.of_mem_children hprogram hdelimited b hb⟩

end Pare
