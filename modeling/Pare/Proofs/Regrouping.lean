import Mathlib.Tactic.MkIffOfInductiveProp
import Pare.Proofs.Similarity

/-!
**Parentheses are invisible to the tree.**

The tree of kinds has no node for grouping: where a construct is asked for, the layers of
parentheses around it are skipped.  But several constructs look at their parts before anything is
skipped: at the body of an arrow function, to see whether it is a block; at the header of a loop, at
a key between brackets, at the arguments of a call, at the place of an operator, at the name of an
opening tag.  None of this sees a layer of parentheses around an expression.  So if layers are added
to a program or taken away, anywhere and any number of them, the numbered tree is the same but for
its spans.

Main definitions:

* `Pare.Concrete.Regular` — what the grammar gives for the parts that are looked at;
* `Pare.Concrete.Groups` — one layer of parentheses;
* `Pare.Regrouped` — two trees that differ in layers of parentheses;
* `Pare.Part.Twin` — what such trees have in common for the construct around them.

Main results:

* `Pare.lift_kindOf` — constructs with twins as parts are of corresponding kinds;
* `Pare.Regrouped.twin` — trees that differ in layers of parentheses are twins;
* `Pare.Regrouped.outline_toTree` — **their numbered trees differ in their spans only**.
-/

set_option relaxedAutoImplicit false
set_option autoImplicit false

namespace Pare

/-! ### Layers of parentheses -/

namespace Concrete

/-- The parts of a node as the grammar gives them, as far as they are looked at before parentheses
are skipped. -/
@[mk_iff]
structure Regular (t : Concrete) : Prop where
  /-- The parts stand one after another. -/
  apart : t.Apart
  /-- Operators, and the words that open declarations, are signs and hold text. -/
  signs : ∀ c ∈ t.children, c.role = some .operator ∨ c.role = some .kind →
    c.isNamed = false ∧ c.span.start < c.span.stop
  /-- The other branch of an `if` is a clause of its own. -/
  alternative : t.is .ifStatement = true → ∀ c ∈ t.children, c.role = some .alternative →
    c.is .elseClause = true
  /-- What a `new` passes is a list of arguments. -/
  arguments : t.is .newExpression = true → ∀ c ∈ t.children, c.role = some .arguments →
    c.is .arguments = true
  /-- What an arrow function takes, unless it is a single name, is a list of parameters. -/
  parameters : t.is .arrowFunction = true → ∀ c ∈ t.children, c.role = some .parameters →
    c.is .formalParameters = true
  /-- An element of markup starts with a tag. -/
  openTag : t.is .jsxElement = true → ∀ c ∈ t.children, c.role = some .openTag →
    c.is .jsxOpeningElement = true

instance (t : Concrete) : Decidable t.Regular :=
  decidable_of_iff' _ (regular_iff t)

end Concrete

/-- The constructs that the construct around them looks for.  No expression is one of them. -/
def Construct.isSought (c : Construct) : Bool :=
  [Construct.program, .hashBangLine, .comment, .htmlComment, .emptyStatement, .statementBlock,
    .variableDeclarator, .computedName, .arguments, .elseClause, .formalParameters,
    .jsxOpeningElement].contains c

/-- Is this a construct, and none that the construct around it looks for?  All expressions are. -/
def Label.isGroupable : Label → Bool
  | .construct c => !c.isSought
  | .sign _ => false

theorem Label.isGroupable_of_is {t : Concrete} {c : Construct} (hc : c.isSought = true)
    (h : t.is c = true) : t.label.isGroupable = false := by
  rw [Concrete.is, beq_iff_eq] at h
  simp [h, Label.isGroupable, hc]

theorem Concrete.isNamed_of_isGroupable {t : Concrete} (h : t.label.isGroupable = true) :
    t.isNamed = true := by
  unfold Concrete.isNamed
  cases hlabel : t.label with
  | construct c => rfl
  | sign s => simp [hlabel, Label.isGroupable] at h

/-- Signs, names and strings, in which nothing can be grouped. -/
def Label.isSpelled : Label → Bool
  | .construct c =>
      [Construct.string, .identifier, .propertyIdentifier, .privateIdentifier, .shorthandIdentifier,
        .shorthandIdentifierPattern, .statementIdentifier, .undefined].contains c
  | .sign _ => true

theorem Concrete.isSpelled_of_isNamed {t : Concrete} (h : t.isNamed = false) :
    t.label.isSpelled = true := by
  unfold Concrete.isNamed at h
  split at h
  · cases h
  · rename_i hlabel
    rw [hlabel]
    rfl

/-- One layer of parentheses around a node, which is the only construct inside, comments aside. -/
structure Concrete.Groups (outer inner : Concrete) : Prop where
  layer : outer.is .parenthesized = true
  only : outer.children.filter (fun c => c.isNamed && !c.isExtra) = [inner]
  groupable : inner.label.isGroupable = true

/-- Two trees, each of a text of its own, that differ in layers of parentheses: nodes are kept, with
their parts in the same roles, or have more layers around them in one tree than in the other.
Signs, names and strings keep their text. -/
inductive Regrouped (text text' : List Char) : Concrete → Concrete → Prop
  | keep {t t' : Concrete} (hlabel : t.label = t'.label)
      (htext : t.label.isSpelled = true → Text.excerpt text t.span = Text.excerpt text' t'.span)
      (hlength : t.children.length = t'.children.length)
      (hroles : ∀ p ∈ t.children.zip t'.children, p.1.role = p.2.role)
      (hparts : ∀ p ∈ t.children.zip t'.children, Regrouped text text' p.1 p.2) :
      Regrouped text text' t t'
  | group {t t' inner : Concrete} (hlayer : t'.Groups inner) (h : Regrouped text text' t inner) :
      Regrouped text text' t t'
  | ungroup {t t' inner : Concrete} (hlayer : t.Groups inner) (h : Regrouped text text' inner t') :
      Regrouped text text' t t'

/-! ### Twins -/

/-- Two parts that cannot be told apart by the construct around them. -/
structure Part.Twin (text text' : List Char) (p p' : Part) : Prop where
  label : p.source.label = p'.source.label ∨
    p.source.label.isGroupable = true ∧ p'.source.label.isGroupable = true
  text : p.source.isNamed = false →
    Text.excerpt text p.source.span = Text.excerpt text' p'.source.span
  ast : p.ast.Similar p'.ast
  inner : p.source.label.isGroupable = false → List.Forall₂ Ast.Similar p.inner p'.inner
  opens : p.source.label.isGroupable = false →
    (p.source.part? .name).isNone = (p'.source.part? .name).isNone

namespace Part.Twin

variable {text text' : List Char} {p p' : Part}

theorem isGroupable_eq (h : Twin text text' p p') :
    p.source.label.isGroupable = p'.source.label.isGroupable := by
  rcases h.label with hlabel | ⟨hleft, hright⟩
  · rw [hlabel]
  · rw [hleft, hright]

/-- Of what can be grouped, only the tree counts. -/
theorem of_groupable (hp : p.source.label.isGroupable = true)
    (hp' : p'.source.label.isGroupable = true) (hast : p.ast.Similar p'.ast) :
    Twin text text' p p' where
  label := .inr ⟨hp, hp'⟩
  text := fun hsign => by simp [Concrete.isNamed_of_isGroupable hp] at hsign
  ast := hast
  inner := fun hfixed => by simp [hp] at hfixed
  opens := fun hfixed => by simp [hp] at hfixed

theorem is_eq (h : Twin text text' p p') {c : Construct} (hc : c.isSought = true) :
    p.source.is c = p'.source.is c := by
  rcases h.label with hlabel | ⟨hleft, hright⟩
  · simp only [Concrete.is, hlabel]
  · have hne : ∀ label : Label, label.isGroupable = true → (label == .construct c) = false := by
      rintro label hlabel
      refine beq_eq_false_iff_ne.2 ?_
      rintro rfl
      simp [Label.isGroupable, hc] at hlabel
    rw [Concrete.is, Concrete.is, hne _ hleft, hne _ hright]

theorem isNamed_eq (h : Twin text text' p p') : p.source.isNamed = p'.source.isNamed := by
  rcases h.label with hlabel | ⟨hleft, hright⟩
  · simp only [Concrete.isNamed, hlabel]
  · rw [Concrete.isNamed_of_isGroupable hleft, Concrete.isNamed_of_isGroupable hright]

theorem sign_eq (h : Twin text text' p p') (s : String) :
    (p.source.label == .sign s) = (p'.source.label == .sign s) := by
  rcases h.label with hlabel | ⟨hleft, hright⟩
  · rw [hlabel]
  · have hne : ∀ label : Label, label.isGroupable = true → (label == .sign s) = false := by
      rintro label hlabel
      refine beq_eq_false_iff_ne.2 ?_
      rintro rfl
      simp [Label.isGroupable] at hlabel
    rw [hne _ hleft, hne _ hright]

theorem isExtra_eq (h : Twin text text' p p') : p.source.isExtra = p'.source.isExtra := by
  rw [Concrete.isExtra, Concrete.isExtra, h.is_eq rfl, h.is_eq rfl]

theorem counts_eq (h : Twin text text' p p') : p.counts = p'.counts := by
  rw [Part.counts, Part.counts, h.isNamed_eq, h.isExtra_eq]

end Part.Twin

/-- Twins that play the same role. -/
structure Part.Match (text text' : List Char) (p p' : Part) : Prop
    extends Part.Twin text text' p p' where
  role : p.source.role = p'.source.role

/-! ### What a construct sees of twins -/

section Parts

variable {text text' : List Char} {parts parts' : List Part}

/-- The parts in a role are twins, and have what all parts in this role have. -/
theorem rel_at?_of {P : Part → Prop} (h : List.Forall₂ (Part.Match text text') parts parts')
    {r : Role} (hP : ∀ p ∈ parts, p.source.role = some r → P p) :
    Option.Rel (fun p p' => p.Match text text' p' ∧ P p) (Part.at? parts r)
      (Part.at? parts' r) := by
  have hrel : Option.Rel _ (Part.at? parts r) (Part.at? parts' r) :=
    rel_find? (fun a b hab => by rw [hab.2.role, hab.2.isExtra_eq])
      ((List.forall₂_and_left _ _).2 ⟨hP, h⟩)
  match Part.at? parts r, Part.at? parts' r, hrel with
  | _, _, .some ⟨⟨hP, hab⟩, hrole⟩ =>
      simp only [Bool.and_eq_true, beq_iff_eq] at hrole
      exact .some ⟨hab, hP hrole.1⟩
  | _, _, .none => exact .none

theorem rel_at? (h : List.Forall₂ (Part.Match text text') parts parts') (r : Role) :
    Option.Rel (Part.Match text text') (Part.at? parts r) (Part.at? parts' r) := by
  have hrel := rel_at?_of h (r := r) (P := fun _ => True) fun _ _ _ => trivial
  match Part.at? parts r, Part.at? parts' r, hrel with
  | _, _, .some ⟨hab, _⟩ => exact .some hab
  | _, _, .none => exact .none

theorem similar_asts (h : List.Forall₂ (Part.Match text text') parts parts') :
    List.Forall₂ Ast.Similar (Part.asts parts) (Part.asts parts') := by
  refine List.rel_map (fun _ _ hab => hab.ast) (List.rel_filter (fun a b hab => ?_) h)
  simp only [hab.counts_eq, hab.is_eq (c := .hashBangLine) rfl]

theorem similar_need (h : List.Forall₂ (Part.Match text text') parts parts') (r : Role)
    (span span' : Span) : (Part.need parts r span).Similar (Part.need parts' r span') := by
  unfold Part.need
  match Part.at? parts r, Part.at? parts' r, rel_at? h r with
  | _, _, .some hab => exact hab.ast
  | _, _, .none => exact Ast.similar_node (.other .nil) _ _

theorem similar_ast? (h : List.Forall₂ (Part.Match text text') parts parts') (r : Role) :
    Option.Rel Ast.Similar (Part.ast? parts r) (Part.ast? parts' r) :=
  optionRel_map (fun _ _ hab => hab.ast) (rel_at? h r)

theorem rel_first? (h : List.Forall₂ (Part.Match text text') parts parts') :
    Option.Rel (Part.Match text text') (Part.first? parts) (Part.first? parts') := by
  have hrel : Option.Rel _ (Part.first? parts) (Part.first? parts') :=
    rel_find? (fun _ _ hab => hab.counts_eq) h
  match Part.first? parts, Part.first? parts', hrel with
  | _, _, .some ⟨hab, _⟩ => exact .some hab
  | _, _, .none => exact .none

theorem similar_first? (h : List.Forall₂ (Part.Match text text') parts parts') :
    Option.Rel Ast.Similar ((Part.first? parts).map Part.ast) ((Part.first? parts').map Part.ast) :=
  optionRel_map (fun _ _ hab => hab.ast) (rel_first? h)

theorem similar_header? (h : List.Forall₂ (Part.Match text text') parts parts') (r : Role) :
    Option.Rel Ast.Similar (Part.header? parts r) (Part.header? parts' r) := by
  unfold Part.header?
  match Part.at? parts r, Part.at? parts' r, rel_at? h r with
  | _, _, .some hab =>
      simp only [Option.filter_some, hab.isNamed_eq, hab.is_eq (c := .emptyStatement) rfl]
      split
      · exact .some hab.ast
      · exact .none
  | _, _, .none => exact .none

theorem similar_declarators (h : List.Forall₂ (Part.Match text text') parts parts') :
    List.Forall₂ Ast.Similar ((parts.filter fun p => p.source.is .variableDeclarator).map Part.ast)
      ((parts'.filter fun p => p.source.is .variableDeclarator).map Part.ast) := by
  refine List.rel_map (fun _ _ hab => hab.ast) (List.rel_filter (fun a b hab => ?_) h)
  simp only [hab.is_eq (c := .variableDeclarator) rfl]

theorem isSome_at?_eq (h : List.Forall₂ (Part.Match text text') parts parts') (r : Role) :
    (Part.at? parts r).isSome = (Part.at? parts' r).isSome := by
  match Part.at? parts r, Part.at? parts' r, rel_at? h r with
  | _, _, .some _ => rfl
  | _, _, .none => rfl

theorem isAt_eq (h : List.Forall₂ (Part.Match text text') parts parts') (r : Role) {c : Construct}
    (hc : c.isSought = true) : Part.isAt parts r c = Part.isAt parts' r c := by
  unfold Part.isAt
  match Part.at? parts r, Part.at? parts' r, rel_at? h r with
  | _, _, .some hab => simp only [Option.any_some, hab.is_eq hc]
  | _, _, .none => rfl

/-- Where only signs play a role, their text is the same. -/
theorem text?_eq (h : List.Forall₂ (Part.Match text text') parts parts') {r : Role}
    (hsigns : ∀ p ∈ parts, p.source.role = some r → p.source.isNamed = false) :
    Part.text? text parts r = Part.text? text' parts' r := by
  unfold Part.text?
  match Part.at? parts r, Part.at? parts' r, rel_at?_of h hsigns with
  | _, _, .some ⟨hab, hsign⟩ => rw [Option.map_some, Option.map_some, hab.text hsign]
  | _, _, .none => rfl

/-- Where a role is played by a construct that cannot be grouped, what is inside it is similar. -/
theorem similar_inner (h : List.Forall₂ (Part.Match text text') parts parts') {r : Role}
    {c : Construct} (hc : c.isSought = true)
    (hr : ∀ p ∈ parts, p.source.role = some r → p.source.is c = true) :
    Option.Rel (List.Forall₂ Ast.Similar) ((Part.at? parts r).map Part.inner)
      ((Part.at? parts' r).map Part.inner) :=
  optionRel_map (fun _ _ hab => hab.1.inner (Label.isGroupable_of_is hc hab.2)) (rel_at?_of h hr)

theorem similar_arrowParameters (h : List.Forall₂ (Part.Match text text') parts parts')
    (hr : ∀ p ∈ parts, p.source.role = some .parameters → p.source.is .formalParameters = true) :
    List.Forall₂ Ast.Similar (arrowParameters parts) (arrowParameters parts') := by
  unfold arrowParameters
  match Part.at? parts .parameter, Part.at? parts' .parameter, rel_at? h .parameter with
  | _, _, .some hab => exact .cons hab.ast .nil
  | _, _, .none =>
      match Part.at? parts .parameters, Part.at? parts' .parameters, rel_at?_of h hr with
      | _, _, .some ⟨hab, hlist⟩ => exact hab.inner (Label.isGroupable_of_is rfl hlist)
      | _, _, .none => exact .nil

theorem Part.at?_cons (p : Part) (rest : List Part) (r : Role) : Part.at? (p :: rest) r =
    if p.source.role = some r ∧ p.source.isExtra = false then some p else Part.at? rest r := by
  rw [Part.at?, List.find?_cons]
  split <;> simp_all [Part.at?]

/-- The first part in one of two roles. -/
def Part.either? (parts : List Part) (r s : Role) : Option Part :=
  parts.find? fun p => (p.source.role == some r || p.source.role == some s) && !p.source.isExtra

theorem Part.either?_cons (p : Part) (rest : List Part) (r s : Role) :
    Part.either? (p :: rest) r s =
      if (p.source.role = some r ∨ p.source.role = some s) ∧ p.source.isExtra = false then some p
      else Part.either? rest r s := by
  rw [Part.either?, List.find?_cons]
  split <;> simp_all [Part.either?]

/-- An update has its operator in front if the operator is the first of its two parts. -/
theorem leadsArgument_eq
    (hapart : parts.Pairwise fun p q => p.source.span.stop ≤ q.source.span.start)
    (hsigns : ∀ p ∈ parts, p.source.role = some .operator →
      p.source.span.start < p.source.span.stop) :
    leadsArgument parts = ((Part.at? parts .operator).isSome && (Part.at? parts .argument).isSome &&
      (Part.either? parts .operator .argument).any fun p => p.source.role == some .operator) := by
  induction parts with
  | nil => rfl
  | cons p rest ih =>
      obtain ⟨hafter, hapart⟩ := List.pairwise_cons.1 hapart
      have hrest := ih hapart fun q hq => hsigns q (List.mem_cons_of_mem p hq)
      have hlater : ∀ {r : Role} {q : Part}, Part.at? rest r = some q →
          p.source.span.stop ≤ q.source.span.start := fun hq =>
        hafter _ (List.mem_of_find?_eq_some hq)
      have hspan := p.source.span.start_le_stop
      simp only [leadsArgument, Part.at?_cons, Part.either?_cons] at hrest ⊢
      by_cases hextra : p.source.isExtra = false
      · by_cases hop : p.source.role = some .operator
        · -- the operator comes first, so it starts before the argument, if there is one
          have hlt := hsigns p (List.mem_cons_self ..) hop
          cases harg : Part.at? rest .argument with
          | none => simp [hextra, hop]
          | some arg =>
              have := hlater harg
              have hlead : p.source.span.start < arg.source.span.start := by omega
              simp [hextra, hop, hlead]
        · by_cases harg : p.source.role = some .argument
          · -- the argument comes first, so the operator, if there is one, does not start before it
            cases hop : Part.at? rest .operator with
            | none => simp [hextra, harg]
            | some op =>
                have := hlater hop
                have htrail : ¬ op.source.span.start < p.source.span.start := by omega
                simp [hextra, harg, htrail]
          · simpa [hop, harg] using hrest
      · simpa [hextra] using hrest

/-- The first of two parts plays the same role in both. -/
theorem any_either?_eq (h : List.Forall₂ (Part.Match text text') parts parts') (r s : Role) :
    ((Part.either? parts r s).any fun p => p.source.role == some r) =
      (Part.either? parts' r s).any fun p => p.source.role == some r := by
  have hrel : Option.Rel _ (Part.either? parts r s) (Part.either? parts' r s) :=
    rel_find? (fun a b hab => by rw [hab.role, hab.isExtra_eq]) h
  match Part.either? parts r s, Part.either? parts' r s, hrel with
  | _, _, .some ⟨hab, _⟩ => rw [Option.any_some, Option.any_some, hab.role]
  | _, _, .none => rfl

/-- The first part is the same sign in both, if it is one. -/
theorem any_head?_eq (h : List.Forall₂ (Part.Match text text') parts parts') (s : String) :
    (parts.head?.any fun p => p.source.label == .sign s) =
      parts'.head?.any fun p => p.source.label == .sign s := by
  cases h with
  | nil => rfl
  | cons hab _ => simp only [List.head?_cons, Option.any_some, hab.sign_eq]

theorem any_sign_eq (h : List.Forall₂ (Part.Match text text') parts parts') (s : String) :
    (parts.any fun p => p.source.label == .sign s) =
      parts'.any fun p => p.source.label == .sign s := by
  induction h with
  | nil => rfl
  | cons hab _ ih => rw [List.any_cons, List.any_cons, hab.sign_eq, ih]

theorem isSome_ast?_eq (h : List.Forall₂ (Part.Match text text') parts parts') (r : Role) :
    (Part.ast? parts r).isSome = (Part.ast? parts' r).isSome := by
  rw [Part.ast?, Part.ast?, Option.isSome_map, Option.isSome_map, isSome_at?_eq h]

/-- An opening tag has a name in both, or in neither. -/
theorem any_openTag_eq (h : List.Forall₂ (Part.Match text text') parts parts')
    (hr : ∀ p ∈ parts, p.source.role = some .openTag → p.source.is .jsxOpeningElement = true) :
    ((Part.at? parts .openTag).any fun p => (p.source.part? .name).isNone) =
      (Part.at? parts' .openTag).any fun p => (p.source.part? .name).isNone := by
  match Part.at? parts .openTag, Part.at? parts' .openTag, rel_at?_of h hr with
  | _, _, .some ⟨hab, htag⟩ =>
      rw [Option.any_some, Option.any_some, hab.opens (Label.isGroupable_of_is rfl htag)]
  | _, _, .none => rfl

end Parts

/-! ### Constructs -/

section Constructs

variable {text text' : List Char} {t t' : Concrete}

/-- What all children of a node have, its parts have. -/
theorem Concrete.of_mem_toParts {P : Concrete → Prop} (h : ∀ c ∈ t.children, P c) :
    ∀ p ∈ toParts text t.children, P p.source :=
  fun _ hp => h _ (source_mem_of_mem_toParts hp)

theorem Concrete.Regular.apart_toParts (h : t.Regular) : (toParts text t.children).Pairwise
    fun p q => p.source.span.stop ≤ q.source.span.start := by
  rw [toParts_eq_map, List.pairwise_map]
  simpa only [source_toPart, Apart] using h.apart

theorem Concrete.Regular.leadsArgument_eq (h : t.Regular) :
    leadsArgument (toParts text t.children) =
      ((Part.at? (toParts text t.children) .operator).isSome &&
        (Part.at? (toParts text t.children) .argument).isSome &&
        (Part.either? (toParts text t.children) .operator .argument).any
          fun p => p.source.role == some .operator) :=
  Pare.leadsArgument_eq h.apart_toParts fun p hp hrole =>
    (h.signs p.source (source_mem_of_mem_toParts hp) (.inl hrole)).2

/-- Constructs with twins as parts are of corresponding kinds. -/
theorem lift_kindOf {c : Construct} (hc : t.label = .construct c) (ht : t.Regular)
    (ht' : t'.Regular)
    (htext : t.label.isSpelled = true → Text.excerpt text t.span = Text.excerpt text' t'.span)
    (h : List.Forall₂ (Part.Match text text') (Concrete.toParts text t.children)
      (Concrete.toParts text' t'.children)) :
    Kind.Lift Ast.Similar (kindOf text c t.span (Concrete.toParts text t.children))
      (kindOf text' c t'.span (Concrete.toParts text' t'.children)) := by
  have his : t.is c = true := by rw [Concrete.is, hc, beq_self_eq_true]
  have hall := similar_asts h
  have hneed := fun r => similar_need h r t.span t'.span
  have hast? := similar_ast? h
  have hheader := similar_header? h
  have hoperator : Part.text? text (Concrete.toParts text t.children) .operator =
      Part.text? text' (Concrete.toParts text' t'.children) .operator :=
    text?_eq h (Concrete.of_mem_toParts fun c hc hrole => (ht.signs c hc (.inl hrole)).1)
  have hspelled : Label.isSpelled (.construct c) = true →
      Text.excerpt text t.span = Text.excerpt text' t'.span := fun h => htext (hc ▸ h)
  -- a part whose label is asked for, or that is taken apart, is not grouped; its twin has its label
  cases c with
  | program => exact .program hall
  | expressionStatement =>
      rcases rel_cases (similar_first? h) with ⟨hx, hy⟩ | ⟨e, e', hx, hy, he⟩
      · simp only [kindOf, hx, hy]
        exact .emptyStatement
      · simp only [kindOf, hx, hy]
        exact .expressionStatement he
  | returnStatement => exact .returnStatement (similar_first? h)
  | variableDeclaration | lexicalDeclaration =>
      have hword := text?_eq h (r := .kind)
        (Concrete.of_mem_toParts fun c hc hrole => (ht.signs c hc (.inr hrole)).1)
      simp only [kindOf, hword]
      exact .declaration _ (similar_declarators h)
  | variableDeclarator => exact .declarator (hneed .name) (hast? .value)
  | functionDeclaration | generatorFunctionDeclaration => exact .functionDeclaration hall
  | classDeclaration => exact .classDeclaration hall
  | functionExpression | generatorFunction => exact .function hall
  | ifStatement =>
      refine .ifStatement (hneed _) (hneed _) ?_
      rcases rel_cases (rel_at?_of h (Concrete.of_mem_toParts (ht.alternative his))) with
        ⟨hx, hy⟩ | ⟨a, b, hx, hy, hab, hclause⟩
      · rw [hx, hy]
        exact .none
      · rw [hx, hy]
        exact rel_head? (hab.inner (Label.isGroupable_of_is rfl hclause))
  | forStatement => exact .forStatement (hheader _) (hheader _) (hheader _) (hneed _)
  | forInStatement =>
      simp only [kindOf, hoperator]
      exact .forInStatement _ (hneed _) (hneed _) (hneed _)
  | whileStatement => exact .whileStatement (hneed _) (hneed _)
  | doStatement => exact .doWhileStatement (hneed _) (hneed _)
  | statementBlock => exact .block hall
  | emptyStatement => exact .emptyStatement
  | arrowFunction =>
      simp only [kindOf, isSome_at?_eq h, isAt_eq h .body (c := .statementBlock) rfl,
        any_head?_eq h]
      exact .arrow _ _ (similar_arrowParameters h (Concrete.of_mem_toParts (ht.parameters his)))
        (hneed _)
  | binaryExpression =>
      simp only [kindOf, binaryKind, hoperator]
      split
      · exact .logical _ (hneed _) (hneed _)
      · exact .binary _ (hneed _) (hneed _)
  | assignmentExpression | augmentedAssignment =>
      simp only [kindOf, hoperator]
      exact .assignment _ (hneed _) (hneed _)
  | ternaryExpression => exact .conditional (hneed _) (hneed _) (hneed _)
  | unaryExpression =>
      simp only [kindOf, hoperator]
      exact .unary _ (hneed _)
  | updateExpression =>
      simp only [kindOf, hoperator, ht.leadsArgument_eq, ht'.leadsArgument_eq, isSome_at?_eq h,
        any_either?_eq h]
      exact .update _ _ (hneed _)
  | awaitExpression =>
      rcases rel_cases (similar_first? h) with ⟨hx, hy⟩ | ⟨e, e', hx, hy, he⟩
      · simp only [kindOf, hx, hy]
        exact .other .nil
      · simp only [kindOf, hx, hy]
        exact .await he
  | yieldExpression =>
      simp only [kindOf, any_sign_eq h]
      exact .yield _ (similar_first? h)
  | callExpression =>
      rcases rel_cases (rel_at? h .arguments) with ⟨hx, hy⟩ | ⟨a, b, hx, hy, hab⟩
      · simp only [kindOf, hx, hy]
        exact .other hall
      · simp only [kindOf, isSome_ast?_eq h, hx, hy, hab.is_eq (c := .arguments) rfl]
        split
        · rename_i hargs
          rw [← hab.is_eq rfl] at hargs
          exact .call _ (hneed _) (hab.inner (Label.isGroupable_of_is rfl hargs))
        · exact .other hall
  | newExpression =>
      refine .construct (hneed _) ?_
      rcases rel_cases (similar_inner h rfl (Concrete.of_mem_toParts (ht.arguments his))) with
        ⟨hx, hy⟩ | ⟨a, b, hx, hy, hinner⟩
      · rw [hx, hy]
        exact .nil
      · rw [hx, hy]
        exact hinner
  | memberExpression | subscriptExpression =>
      simp only [kindOf, isSome_ast?_eq h]
      exact .member _ _ (hneed _) (hneed _)
  | array => exact .array hall
  | object => exact .object hall
  | pair =>
      simp only [kindOf, isAt_eq h .key (c := .computedName) rfl]
      exact .property _ _ (hneed _) (hneed _)
  | shorthandIdentifier =>
      simp only [kindOf, hspelled rfl]
      exact .shorthand _ _ (Ast.similar_node (.identifier _) _ _)
  | methodDefinition =>
      simp only [kindOf, isAt_eq h .name (c := .computedName) rfl]
      refine .property _ _ (hneed _) (Ast.similar_node (.function ?_) _ _)
      exact List.rel_append (optionRel_toList (hast? _)) (optionRel_toList (hast? _))
  | sequence => exact .sequence hall
  | string =>
      simp only [kindOf, hspelled rfl]
      exact .literal _
  | number | true | false | null | regex => exact .literal _
  | identifier | propertyIdentifier | privateIdentifier | shorthandIdentifierPattern
  | statementIdentifier | undefined =>
      simp only [kindOf, hspelled rfl]
      exact .identifier _
  | jsxElement =>
      simp only [kindOf, any_openTag_eq h (Concrete.of_mem_toParts (ht.openTag his))]
      split
      · exact .jsxFragment hall
      · exact .jsxElement hall
  | jsxSelfClosingElement => exact .jsxElement hall
  | templateString => exact .other .nil
  | _ => exact .other hall

/-- Nodes with one label and twins as parts have similar trees. -/
theorem similar_assemble (hlabel : t.label = t'.label) (ht : t.Regular) (ht' : t'.Regular)
    (htext : t.label.isSpelled = true → Text.excerpt text t.span = Text.excerpt text' t'.span)
    (h : List.Forall₂ (Part.Match text text') (Concrete.toParts text t.children)
      (Concrete.toParts text' t'.children)) :
    (assemble text t.label t.span (Concrete.toParts text t.children)).Similar
      (assemble text' t'.label t'.span (Concrete.toParts text' t'.children)) := by
  rw [← hlabel]
  unfold assemble
  split
  · match Part.first? _, Part.first? _, rel_first? h with
    | _, _, .some hab => exact hab.ast
    | _, _, .none => exact Ast.similar_node (.other .nil) _ _
  · rename_i c _ hc
    exact Ast.similar_node (lift_kindOf hc ht ht' htext h) _ _
  · exact Ast.similar_node (.other (similar_asts h)) _ _

end Constructs

/-! ### Regrouped trees -/

namespace Concrete.Groups

variable {outer inner : Concrete}

theorem label_eq (h : outer.Groups inner) : outer.label = .construct .parenthesized := by
  simpa [Concrete.is] using h.layer

theorem first?_eq (h : outer.Groups inner) : outer.first? = some inner := by
  rw [first?, ← List.head?_filter, h.only]
  rfl

/-- Parentheses can be grouped again. -/
theorem outer_groupable (h : outer.Groups inner) : outer.label.isGroupable = true := by
  rw [h.label_eq]
  rfl

/-- Parentheses have the tree of what they group. -/
theorem toAst_eq (h : outer.Groups inner) (text : List Char) :
    (outer.toPart text).ast = (inner.toPart text).ast :=
  toAst_of_parenthesized h.label_eq h.first?_eq

end Concrete.Groups

namespace Regrouped

variable {text text' : List Char} {t t' : Concrete}

/-- **Trees that differ in layers of parentheses are twins.** -/
theorem twin (h : Regrouped text text' t t') (ht : t.Everywhere Concrete.Regular)
    (ht' : t'.Everywhere Concrete.Regular) :
    (t.toPart text).Twin text text' (t'.toPart text') := by
  induction h with
  | @keep t t' hlabel htext hlength hroles hparts ih =>
      have hmatch : List.Forall₂ (Part.Match text text') (Concrete.toParts text t.children)
          (Concrete.toParts text' t'.children) := by
        rw [Concrete.toParts_eq_map, Concrete.toParts_eq_map, List.forall₂_map_left_iff,
          List.forall₂_map_right_iff]
        refine List.forall₂_iff_zip.2 ⟨hlength, fun {a b} hab => ?_⟩
        obtain ⟨ha, hb⟩ := List.of_mem_zip hab
        refine ⟨ih (a, b) hab (ht.of_mem ha) (ht'.of_mem hb), ?_⟩
        rw [Concrete.source_toPart, Concrete.source_toPart]
        exact hroles (a, b) hab
      have hname : Option.Rel _ (t.part? .name) (t'.part? .name) :=
        rel_find? (fun a b hab => by rw [hab])
          (List.forall₂_iff_zip.2 ⟨hlength, fun hab => hroles _ hab⟩)
      rw [Concrete.toPart_eq, Concrete.toPart_eq]
      refine ⟨.inl hlabel, fun hsign => htext (Concrete.isSpelled_of_isNamed hsign),
        similar_assemble hlabel ht.here ht'.here htext hmatch, fun _ => similar_asts hmatch,
        fun _ => ?_⟩
      match t.part? .name, t'.part? .name, hname with
      | _, _, .some _ => rfl
      | _, _, .none => rfl
  | @group t t' inner hlayer _ ih =>
      have htwin := ih ht (ht'.of_mem (Concrete.mem_of_first? hlayer.first?_eq))
      refine .of_groupable ?_ ?_ (hlayer.toAst_eq text' ▸ htwin.ast)
      · rw [htwin.isGroupable_eq, Concrete.source_toPart]
        exact hlayer.groupable
      · rw [Concrete.source_toPart]
        exact hlayer.outer_groupable
  | @ungroup t t' inner hlayer _ ih =>
      have htwin := ih (ht.of_mem (Concrete.mem_of_first? hlayer.first?_eq)) ht'
      refine .of_groupable ?_ ?_ (hlayer.toAst_eq text ▸ htwin.ast)
      · rw [Concrete.source_toPart]
        exact hlayer.outer_groupable
      · rw [← htwin.isGroupable_eq, Concrete.source_toPart]
        exact hlayer.groupable

/-- **Parentheses are invisible to the tree.**  If two programs differ only in layers of parentheses
around constructs that may be grouped, added or taken away anywhere and in any number, then their
numbered trees have the same nodes: the same number of them, with the same kinds, parts, names,
operators and flags, and the same parents. -/
theorem outline_toTree (h : Regrouped text text' t t') (hprogram : t.is .program = true)
    (ht : t.Everywhere Concrete.Regular) (ht' : t'.Everywhere Concrete.Regular) :
    (Concrete.toTree text t).outline = (Concrete.toTree text' t').outline := by
  have htwin := h.twin ht ht'
  rw [Concrete.toPart_eq, Concrete.toPart_eq] at htwin
  have hbody := htwin.inner (Label.isGroupable_of_is rfl hprogram)
  exact (Ast.similar_node (.program hbody) _ _ none #[] #[] rfl).2

end Regrouped

/-! ### An increment -/

/-- An increment of what stands in front of an offset, as a program. -/
def increment (operand : Concrete) (stop : Nat) : Concrete :=
  .node (.construct .program) none (.upTo 0 (stop + 2)) [
    .node (.construct .expressionStatement) none (.upTo 0 (stop + 2)) [
      .node (.construct .updateExpression) none (.upTo 0 (stop + 2)) [
        operand, .node (.sign "++") (some .operator) (.upTo stop (stop + 2)) []]]]

def bareIncrement : Concrete :=
  increment (.node (.construct .identifier) (some .argument) (.upTo 0 1) []) 1

/-- The program `(/**/(x))++`. -/
def groupedIncrement : Concrete :=
  increment (.node (.construct .parenthesized) (some .argument) (.upTo 0 9) [
    .node (.sign "(") none (.upTo 0 1) [],
    .node (.construct .comment) none (.upTo 1 5) [],
    .node (.construct .parenthesized) none (.upTo 5 8) [
      .node (.sign "(") none (.upTo 5 6) [],
      .node (.construct .identifier) none (.upTo 6 7) [],
      .node (.sign ")") none (.upTo 7 8) []],
    .node (.sign ")") none (.upTo 8 9) []]) 9

/-- A node without text of its own is kept around a part that is. -/
theorem Regrouped.around {text text' : List Char} {c c' : Concrete} {role : Option Role}
    {span span' : Span} (label : Label) (hlabel : label.isSpelled = false)
    (h : Regrouped text text' c c') (hrole : c.role = c'.role) :
    Regrouped text text' (.node label role span [c]) (.node label role span' [c']) := by
  refine .keep rfl ?_ rfl (by simpa [Concrete.children]) (by simpa [Concrete.children])
  intro hspelled
  rw [Concrete.label, hlabel] at hspelled
  cases hspelled

/-- Increments of operands that differ in layers of parentheses do so too. -/
theorem Regrouped.increment {text text' : List Char} {operand operand' : Concrete}
    {stop stop' : Nat} (h : Regrouped text text' operand operand')
    (hrole : operand.role = operand'.role) (htext : Text.excerpt text (.upTo stop (stop + 2)) =
      Text.excerpt text' (.upTo stop' (stop' + 2))) :
    Regrouped text text' (increment operand stop) (increment operand' stop') := by
  have hsign : Regrouped text text' (.node (.sign "++") (some .operator) (.upTo stop (stop + 2)) [])
      (.node (.sign "++") (some .operator) (.upTo stop' (stop' + 2)) []) :=
    .keep rfl (fun _ => htext) rfl (by simp [Concrete.children]) (by simp [Concrete.children])
  refine .around (.construct .program) rfl ?_ rfl
  refine .around (.construct .expressionStatement) rfl ?_ rfl
  refine .keep rfl ?_ rfl ?_ ?_
  · intro hspelled
    cases hspelled
  · simpa [Concrete.children] using ⟨hrole, rfl⟩
  · simpa [Concrete.children] using ⟨h, hsign⟩

/-- The operand may have two layers of parentheses around it, with a comment between them. -/
theorem regrouped_increment :
    Regrouped "x++".toList "(/**/(x))++".toList bareIncrement groupedIncrement := by
  have hname : Regrouped "x++".toList "(/**/(x))++".toList
      (.node (.construct .identifier) (some .argument) (.upTo 0 1) [])
      (.node (.construct .identifier) none (.upTo 6 7) []) :=
    .keep rfl (fun _ => by decide) rfl (by simp [Concrete.children]) (by simp [Concrete.children])
  exact .increment (.group ⟨rfl, rfl, rfl⟩ (.group ⟨rfl, rfl, rfl⟩ hname)) rfl (by decide)

theorem Regrouped.outline_toTree_increment :
    (bareIncrement.is .program = true ∧ bareIncrement.Everywhere Concrete.Regular ∧
      groupedIncrement.Everywhere Concrete.Regular ∧
      Regrouped "x++".toList "(/**/(x))++".toList bareIncrement groupedIncrement) ∧
    (Concrete.toTree "x++".toList bareIncrement).outline =
      (Concrete.toTree "(/**/(x))++".toList groupedIncrement).outline := by
  have hbare : bareIncrement.Everywhere Concrete.Regular := by decide
  have hgrouped : groupedIncrement.Everywhere Concrete.Regular := by decide
  exact ⟨⟨rfl, hbare, hgrouped, regrouped_increment⟩,
    regrouped_increment.outline_toTree rfl hbare hgrouped⟩

end Pare
