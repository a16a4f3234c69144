import Pare.Rule.Grouping
import Pare.Proofs.Outcome
import Pare.Proofs.WellFormed

/-!
**Where no parentheses are needed.**

The rule asks five questions about a node in parentheses, one after another, and each of them looks
at the kinds of the node and of its parent, at the tokens around them, or at the statements before
them.  Here it is said without these questions where a node needs no parentheses, and the questions
are shown to find out just that.

Main definitions:

* `Pare.Context.IsBody`, `Pare.Context.OpensBody` — bodies, and statements that open one with only
  strings before them;
* `Pare.Context.NeedsNone` — the places where a node needs no parentheses;
* `Pare.Context.Doubled` — parentheses directly inside those of the parent.

Main results:

* `Pare.inPrologue_answers` — **the search through a body tells which statements open it**;
* `Pare.exists_isRedundantGrouping` — the conditions have a result in every well-formed context;
* `Pare.isRedundantGrouping_answers` — **the conditions decide whether parentheses are redundant**.
-/

set_option relaxedAutoImplicit false
set_option autoImplicit false

namespace Pare

variable {ctx : Context}

/-! ### Bodies -/

def Kind.isFunction {α : Type} : Kind α → Bool
  | .functionDeclaration _ | .function _ | .arrow .. => true
  | _ => false

/-- The statements of the program, or of the block of a function. -/
inductive Context.IsBody (ctx : Context) : List NodeId → Prop
  | program {id : NodeId} {node : Node} {body : List NodeId}
      (hnode : ctx.tree.nodes[id]? = some node) (hkind : node.kind = .program body) :
      IsBody ctx body
  | function {id owner : NodeId} {node outer : Node} {body : List NodeId}
      (hnode : ctx.tree.nodes[id]? = some node) (hkind : node.kind = .block body)
      (hparent : node.parent = some owner) (houter : ctx.tree.nodes[owner]? = some outer)
      (hfunction : outer.kind.isFunction = true) : IsBody ctx body

/-- The string that a statement consists of. -/
def Context.string? (ctx : Context) (stmt : NodeId) : Option NodeId :=
  match ctx.kind stmt with
  | .ok (.expressionStatement expression) =>
      match ctx.kind expression with
      | .ok (.literal (.string _)) => some expression
      | _ => none
  | _ => none

/-- The statement stands in a body, with only strings before it. -/
def Context.OpensBody (ctx : Context) (stmt : NodeId) : Prop :=
  ∃ front back, ctx.IsBody (front ++ stmt :: back) ∧ ∀ s ∈ front, (ctx.string? s).isSome = true

theorem Context.string?_eq_some {stmt expression : NodeId} :
    ctx.string? stmt = some expression ↔ ctx.kind stmt = .ok (.expressionStatement expression) ∧
      ∃ value, ctx.kind expression = .ok (.literal (.string value)) := by
  unfold string?
  constructor
  · intro h
    split at h
    · split at h
      · obtain rfl := Option.some.inj h
        exact ⟨‹_›, _, ‹_›⟩
      · cases h
    · cases h
  · rintro ⟨hstmt, value, hvalue⟩
    rw [hstmt]
    dsimp only
    rw [hvalue]

theorem isStringStatement_eq_ok (h : ctx.Shaped) {id : NodeId} {node : Node}
    (hnode : ctx.tree.nodes[id]? = some node) :
    isStringStatement ctx id = .ok (ctx.string? id).isSome := by
  rw [isStringStatement, Context.string?, Context.kind_eq_ok hnode, ok_bind]
  cases hkind : node.kind with
  | expressionStatement expression =>
      obtain ⟨inner, hinner, -⟩ := h.exists_part hnode (show expression ∈ node.kind.children by
        simp [hkind, Kind.children])
      simp only [Context.kind_eq_ok hinner, ok_bind]
      split
      · rename_i hstring
        rw [hstring]
        rfl
      · split
        · rename_i hne _ _ hstring
          exact absurd (Except.ok.inj hstring) (hne _)
        · rfl
  | _ => rfl

/-- The statement is found if it is in the list with only strings before it. -/
theorem leadsWithStrings_answers (h : ctx.Shaped) (stmt : NodeId) {body : List NodeId}
    (hbody : ∀ id ∈ body, ∃ node, ctx.tree.nodes[id]? = some node) :
    Answers (leadsWithStrings ctx stmt body) (∃ front back, body = front ++ stmt :: back ∧
      ∀ s ∈ front, (ctx.string? s).isSome = true) := by
  induction body with
  | nil => exact answers_false (by simp)
  | cons candidate rest ih =>
      obtain ⟨node, hnode⟩ := hbody candidate (List.mem_cons_self ..)
      rw [leadsWithStrings]
      by_cases hfound : candidate = stmt
      · rw [if_pos (by simpa using hfound)]
        exact answers_pure ⟨fun _ => ⟨[], rest, by rw [hfound]; rfl, by simp⟩, fun _ => rfl⟩
      rw [if_neg (by simpa using hfound), isStringStatement_eq_ok h hnode, ok_bind]
      -- what is looked for is further on, behind the candidate
      have hcons : ∀ {front back : List NodeId}, candidate :: rest = front ++ stmt :: back →
          ∃ front', front = candidate :: front' ∧ rest = front' ++ stmt :: back := by
        intro front back hsplit
        cases front with
        | nil => exact absurd (List.cons.inj hsplit).1 hfound
        | cons first front' =>
            obtain ⟨rfl, hrest⟩ := List.cons.inj hsplit
            exact ⟨front', rfl, hrest⟩
      by_cases hstring : (ctx.string? candidate).isSome = true
      · rw [if_pos hstring]
        refine (ih fun id hid => hbody id (List.mem_cons_of_mem candidate hid)).congr ⟨?_, ?_⟩
        · rintro ⟨front, back, rfl, hfront⟩
          exact ⟨candidate :: front, back, rfl, List.forall_mem_cons.2 ⟨hstring, hfront⟩⟩
        · rintro ⟨front, back, hsplit, hfront⟩
          obtain ⟨front', rfl, hrest⟩ := hcons hsplit
          exact ⟨front', back, hrest, (List.forall_mem_cons.1 hfront).2⟩
      · rw [if_neg hstring]
        refine answers_false ?_
        rintro ⟨front, back, hsplit, hfront⟩
        obtain ⟨front', rfl, -⟩ := hcons hsplit
        exact hstring (List.forall_mem_cons.1 hfront).1

/-- The statements of a body are nodes. -/
theorem enclosingBody_yields (h : ctx.Shaped) {stmt : NodeId} {node : Node}
    (hnode : ctx.tree.nodes[stmt]? = some node) :
    Yields (ctx.tree.enclosingBody stmt) fun body =>
      ∀ id ∈ body, ∃ node, ctx.tree.nodes[id]? = some node := by
  rw [Tree.enclosingBody, Tree.parent_eq_ok hnode, ok_bind]
  rcases hparent : node.parent with _ | parent
  · exact yields_none
  obtain ⟨whole, hwhole⟩ := h.exists_parent hnode hparent
  have hparts : ∀ body : List NodeId, whole.kind.children = body →
      ∀ id ∈ body, ∃ node, ctx.tree.nodes[id]? = some node := by
    rintro _ rfl id hid
    obtain ⟨part, hpart, -⟩ := h.exists_part hwhole hid
    exact ⟨part, hpart⟩
  simp only [Tree.kind_eq_ok hwhole, ok_bind]
  split
  · rename_i body hkind
    exact yields_some (hparts body (by rw [hkind, Kind.children]))
  · rename_i body hkind
    rw [Tree.parent_eq_ok hwhole, ok_bind]
    rcases howner : whole.parent with _ | owner
    · exact yields_none
    obtain ⟨outer, houter⟩ := h.exists_parent hwhole howner
    have hbody := hparts body (by rw [hkind, Kind.children])
    simp only [Tree.kind_eq_ok houter, ok_bind]
    split
    · exact yields_some hbody
    · exact yields_some hbody
    · exact yields_some hbody
    · exact yields_none
  · exact yields_none

/-- The body that a statement is found to be in is a body. -/
theorem isBody_of_enclosingBody (h : ctx.Shaped) {stmt : NodeId} {node : Node}
    (hnode : ctx.tree.nodes[stmt]? = some node) {body : List NodeId}
    (hbody : ctx.tree.enclosingBody stmt = .ok (some body)) : ctx.IsBody body := by
  rw [Tree.enclosingBody, Tree.parent_eq_ok hnode, ok_bind] at hbody
  rcases hparent : node.parent with _ | parent
  · rw [hparent] at hbody
    cases hbody
  obtain ⟨whole, hwhole⟩ := h.exists_parent hnode hparent
  simp only [hparent, Tree.kind_eq_ok hwhole, ok_bind] at hbody
  split at hbody
  · obtain rfl := Option.some.inj (Except.ok.inj hbody)
    exact .program hwhole ‹_›
  · rename_i statements hkind
    rw [Tree.parent_eq_ok hwhole, ok_bind] at hbody
    rcases howner : whole.parent with _ | owner
    · rw [howner] at hbody
      cases hbody
    obtain ⟨outer, houter⟩ := h.exists_parent hwhole howner
    simp only [howner, Tree.kind_eq_ok houter, ok_bind] at hbody
    split at hbody
    case h_4 => cases hbody
    all_goals
      obtain rfl := Option.some.inj (Except.ok.inj hbody)
      refine .function hwhole hkind howner houter ?_
      rename_i hfunction
      rw [hfunction]
      rfl
  · cases hbody

/-- A statement of a body is found to be in it. -/
theorem enclosingBody_of_isBody (h : ctx.Shaped) {body : List NodeId} (hbody : ctx.IsBody body)
    {stmt : NodeId} (hstmt : stmt ∈ body) : ctx.tree.enclosingBody stmt = .ok (some body) := by
  cases hbody with
  | program hwhole hkind =>
      obtain ⟨-, node, hnode, hparent, -⟩ := h.parts _ _ hwhole stmt (by
        simpa [hkind, Kind.children] using hstmt)
      rw [Tree.enclosingBody, Tree.parent_eq_ok hnode, ok_bind, hparent]
      simp only [Tree.kind_eq_ok hwhole, ok_bind, hkind]
      rfl
  | @function _ owner _ outer _ hwhole hkind howner houter hfunction =>
      obtain ⟨-, node, hnode, hparent, -⟩ := h.parts _ _ hwhole stmt (by
        simpa [hkind, Kind.children] using hstmt)
      rw [Tree.enclosingBody, Tree.parent_eq_ok hnode, ok_bind, hparent]
      simp only [Tree.kind_eq_ok hwhole, ok_bind, hkind, Tree.parent_eq_ok hwhole, howner,
        Tree.kind_eq_ok houter]
      revert hfunction
      cases outer.kind <;> simp [Kind.isFunction] <;> rfl

/-- **The search through a body tells which statements open it.** -/
theorem inPrologue_answers (h : ctx.Shaped) {stmt : NodeId} {node : Node}
    (hnode : ctx.tree.nodes[stmt]? = some node) :
    Answers (inPrologue ctx stmt) (ctx.OpensBody stmt) := by
  obtain ⟨found, hfound, hnodes⟩ := enclosingBody_yields h hnode
  rw [inPrologue, hfound, ok_bind]
  cases found with
  | none =>
      refine answers_false ?_
      rintro ⟨front, back, hbody, -⟩
      have hsome := enclosingBody_of_isBody h hbody (show stmt ∈ front ++ stmt :: back by simp)
      cases hfound.symm.trans hsome
  | some body =>
      refine (leadsWithStrings_answers h stmt (hnodes body rfl)).congr ⟨?_, ?_⟩
      · rintro ⟨front, back, rfl, hfront⟩
        exact ⟨front, back, isBody_of_enclosingBody h hnode hfound, hfront⟩
      · rintro ⟨front, back, hbody, hfront⟩
        have hsome := enclosingBody_of_isBody h hbody (show stmt ∈ front ++ stmt :: back by simp)
        obtain rfl := Option.some.inj (Except.ok.inj (hfound.symm.trans hsome))
        exact ⟨front, back, rfl, hfront⟩

/-! ### Where no parentheses are needed -/

/-- The expressions that wait. -/
def Kind.isSuspension {α : Type} : Kind α → Bool
  | .await _ | .yield _ _ => true
  | _ => false

/-- The places, statements apart, where a literal or an identifier is read as it stands. -/
inductive Kind.Takes (id : NodeId) : Kind NodeId → Prop
  | init (target : NodeId) : Takes id (.declarator target (some id))
  | returned : Takes id (.returnStatement (some id))
  | element {elements : List NodeId} (h : id ∈ elements) : Takes id (.array elements)
  | value (key : NodeId) (computed : Bool) : Takes id (.property key id false false computed)

section Takes

variable {id target : NodeId} {part : Option NodeId}

@[simp] theorem Kind.takes_declarator : (declarator target part).Takes id ↔ part = some id := by
  constructor
  · intro h
    cases h
    rfl
  · rintro rfl
    exact .init target

@[simp] theorem Kind.takes_returnStatement : (returnStatement part).Takes id ↔ part = some id := by
  constructor
  · intro h
    cases h
    rfl
  · rintro rfl
    exact .returned

@[simp] theorem Kind.takes_array {elements : List NodeId} :
    (array elements).Takes id ↔ id ∈ elements := by
  constructor
  · intro h
    cases h
    assumption
  · exact .element

@[simp] theorem Kind.takes_property {key value : NodeId} {shorthand method computed : Bool} :
    (property key value shorthand method computed).Takes id ↔
      value = id ∧ method = false ∧ shorthand = false := by
  constructor
  · intro h
    cases h
    exact ⟨rfl, rfl, rfl⟩
  · rintro ⟨rfl, rfl, rfl⟩
    exact .value key computed

end Takes

/-- The places where an expression that waits extends to the end anyway. -/
inductive Kind.TakesSuspension (id : NodeId) : Kind NodeId → Prop
  | statement : TakesSuspension id (.expressionStatement id)
  | init (target : NodeId) : TakesSuspension id (.declarator target (some id))
  | returned : TakesSuspension id (.returnStatement (some id))
  | assigned (left : NodeId) : TakesSuspension id (.assignment "=" left id)

/-- The places where a node needs no parentheses: a part of a construct of a kind, which is the node
`parent`. -/
inductive Context.NeedsNone (ctx : Context) (id : NodeId) (node : Node) (parent : NodeId) :
    Kind NodeId → Prop
  /-- A literal or an identifier that is an initializer, a returned value, an element of an array,
  or the value of a property that is neither shorthand nor a method. -/
  | atom {kind : Kind NodeId} (hatom : node.kind.isAtom = true) (hplace : kind.Takes id) :
      NeedsNone ctx id node parent kind
  /-- A literal or an identifier that is a statement, but for the identifier `let`, and for a string
  that would open a body. -/
  | statement (hatom : node.kind.isAtom = true) (hlet : node.kind ≠ .identifier "let")
      (hstring : ∀ value, node.kind = .literal (.string value) → ¬ ctx.OpensBody parent) :
      NeedsNone ctx id node parent (.expressionStatement id)
  /-- An `await` or a `yield` that is a statement, an initializer, a returned or an assigned
  value. -/
  | suspension {kind : Kind NodeId} (hwaits : node.kind.isSuspension = true)
      (hplace : kind.TakesSuspension id) : NeedsNone ctx id node parent kind
  /-- The body of an arrow function that is neither an object nor a sequence, and starts with no
  brace. -/
  | body (params : List NodeId) (isAsync : Bool)
      (hobject : ∀ properties, node.kind ≠ .object properties)
      (hsequence : ∀ expressions, node.kind ≠ .sequence expressions)
      (hbrace : ∀ t ∈ (ctx.tokensOf id).head?, t.isSign "\x7b" = false) :
      NeedsNone ctx id node parent (.arrow params id true isAsync)
  /-- An element of markup that is returned. -/
  | markup (hjsx : node.kind.isJsx = true) :
      NeedsNone ctx id node parent (.returnStatement (some id))

/-- The parentheses around a span are the next tokens outside `left` and `right`. -/
def Context.Doubled (ctx : Context) (whole : Span) (left right : Token) : Prop :=
  ∃ before after, ctx.groupingAt whole = some (before, after) ∧
    ctx.source.tokenBefore left.span = some before ∧ ctx.source.tokenAfter right.span = some after

/-- A node that needs no parentheses is in a place where grouping is looked at. -/
theorem Context.NeedsNone.mem_groupingPlaces {id parent : NodeId} {node : Node}
    {kind : Kind NodeId} (h : ctx.NeedsNone id node parent kind) : id ∈ groupingPlaces kind := by
  cases h with
  | atom _ hplace =>
      cases hplace with
      | element h => exact h
      | _ => simp [groupingPlaces]
  | suspension _ hplace => cases hplace <;> simp [groupingPlaces]
  | _ => simp [groupingPlaces]

/-! ### The conditions -/

/-- The token after a span, known by its place. -/
theorem Source.WellFormed.tokenAfter_of_map {s : Source} (h : s.WellFormed) {span : Span}
    {t : Token} (ht : t ∈ s.lexemes) (hafter : (s.tokenAfter span).map Token.span = some t.span) :
    s.tokenAfter span = some t := by
  obtain ⟨next, hnext, hspan⟩ := Option.map_eq_some_iff.1 hafter
  obtain ⟨hmem, -, -⟩ := Source.tokenAfter_eq_some h.tokens hnext
  rw [hnext, h.lexemes_inOrder.eq_of_span (Source.mem_lexemes_of_token hmem) ht hspan]

/-- The token before a span, known by its place. -/
theorem Source.WellFormed.tokenBefore_of_map {s : Source} (h : s.WellFormed) {span : Span}
    {t : Token} (ht : t ∈ s.lexemes) (hbefore : (s.tokenBefore span).map Token.span = some t.span) :
    s.tokenBefore span = some t := by
  obtain ⟨last, hlast, hspan⟩ := Option.map_eq_some_iff.1 hbefore
  obtain ⟨hmem, -, -⟩ := Source.tokenBefore_eq_some h.tokens hlast
  rw [hlast, h.lexemes_inOrder.eq_of_span (Source.mem_lexemes_of_token hmem) ht hspan]

theorem isDoubleGrouped_answers (h : ctx.Shaped) {parent : NodeId} {whole : Node}
    (hparent : ctx.tree.nodes[parent]? = some whole) (left right : Token) :
    Answers (isDoubleGrouped ctx parent left right) (ctx.Doubled whole.span left right) := by
  rw [isDoubleGrouped, Context.grouping_eq_ok hparent, ok_bind]
  rcases hgrouping : ctx.groupingAt whole.span with _ | ⟨outerLeft, outerRight⟩
  · refine answers_false ?_
    rintro ⟨before, after, hsome, -⟩
    cases hgrouping.symm.trans hsome
  · obtain ⟨houter, houter', -⟩ := Context.groupingAt_eq_some hgrouping
    obtain ⟨hmem, -⟩ := Source.tokenBefore_eq_some h.source.tokens houter
    obtain ⟨hmem', -⟩ := Source.tokenAfter_eq_some h.source.tokens houter'
    refine answers_pure ?_
    rw [Bool.and_eq_true, beq_iff_eq, beq_iff_eq]
    constructor
    · rintro ⟨hbefore, hafter⟩
      exact ⟨outerLeft, outerRight, hgrouping,
        h.source.tokenBefore_of_map (Source.mem_lexemes_of_token hmem) hbefore,
        h.source.tokenAfter_of_map (Source.mem_lexemes_of_token hmem') hafter⟩
    · rintro ⟨before, after, hsome, hbefore, hafter⟩
      obtain ⟨rfl, rfl⟩ := Prod.mk.inj (Option.some.inj (hgrouping.symm.trans hsome))
      simp [hbefore, hafter]

section Conditions

variable {id parent : NodeId} {node whole : Node}

theorem statementNeedsGrouping_answers (h : ctx.Shaped) (hnode : ctx.tree.nodes[id]? = some node)
    (hparent : ctx.tree.nodes[parent]? = some whole) :
    Answers (statementNeedsGrouping ctx id parent) (node.kind = .identifier "let" ∨
      (∃ value, node.kind = .literal (.string value)) ∧ ctx.OpensBody parent) := by
  rw [statementNeedsGrouping, Context.kind_eq_ok hnode, ok_bind]
  split
  · rename_i name hkind
    exact answers_pure (by simp [hkind])
  · rename_i value hkind
    exact (inPrologue_answers h hparent).congr (by simp [hkind])
  · rename_i hname hstring
    refine answers_false ?_
    rintro (hlet | ⟨⟨value, hvalue⟩, -⟩)
    · exact hname _ hlet
    · exact hstring _ hvalue

theorem isPrimaryPlace_answers (h : ctx.Shaped) (hnode : ctx.tree.nodes[id]? = some node)
    (hparent : ctx.tree.nodes[parent]? = some whole) :
    Answers (isPrimaryPlace ctx id parent) (node.kind.isAtom = true ∧ (whole.kind.Takes id ∨
      whole.kind = .expressionStatement id ∧ node.kind ≠ .identifier "let" ∧
        ∀ value, node.kind = .literal (.string value) → ¬ ctx.OpensBody parent)) := by
  rw [isPrimaryPlace, Context.kind_eq_ok hnode, ok_bind, Context.kind_eq_ok hparent, ok_bind]
  cases hatom : node.kind.isAtom with
  | false => exact answers_false (by simp)
  | true =>
      rw [if_neg (by simp)]
      cases hkind : whole.kind with
      | expressionStatement expression =>
          dsimp only
          -- a statement takes its expression, unless that would mean something else there
          by_cases hplace : expression = id
          · obtain ⟨b, hb, hneeds⟩ := statementNeedsGrouping_answers h hnode hparent
            rw [if_pos (by simpa using hplace), hb, ok_bind]
            refine answers_pure ?_
            rw [Bool.not_eq_true', ← Bool.not_eq_true, hneeds, hplace]
            constructor
            · intro hnot
              exact ⟨rfl, .inr ⟨rfl, fun hlet => hnot (.inl hlet),
                fun value hvalue hopens => hnot (.inr ⟨⟨value, hvalue⟩, hopens⟩)⟩⟩
            · rintro ⟨-, hplace | ⟨-, hlet, hstring⟩⟩
              · cases hplace
              · rintro (hlet' | ⟨⟨value, hvalue⟩, hopens⟩)
                · exact hlet hlet'
                · exact hstring value hvalue hopens
          · rw [if_neg (by simpa using hplace)]
            refine answers_false ?_
            rintro ⟨-, htakes | ⟨hsame, -⟩⟩
            · cases htakes
            · exact hplace (Kind.expressionStatement.inj hsame)
      | declarator | returnStatement | array | property =>
          exact answers_pure (by simp [and_assoc])
      | _ =>
          refine answers_false ?_
          rintro ⟨-, htakes | ⟨hstmt, -⟩⟩
          · cases htakes
          · cases hstmt

theorem exists_isSuspendPlace (hnode : ctx.tree.nodes[id]? = some node)
    (hparent : ctx.tree.nodes[parent]? = some whole) :
    ∃ b, isSuspendPlace ctx id parent = .ok b := by
  rw [isSuspendPlace, Context.kind_eq_ok hnode, ok_bind]
  simp only [Context.kind_eq_ok hparent, ok_bind]
  split <;> first | exact ⟨_, rfl⟩ | (split <;> exact ⟨_, rfl⟩)

theorem isSuspendPlace_answers (hnode : ctx.tree.nodes[id]? = some node)
    (hparent : ctx.tree.nodes[parent]? = some whole) (hplace : id ∈ groupingPlaces whole.kind) :
    Answers (isSuspendPlace ctx id parent)
      (node.kind.isSuspension = true ∧ whole.kind.TakesSuspension id) := by
  rw [isSuspendPlace, Context.kind_eq_ok hnode, ok_bind]
  cases node.kind with
  | await | yield =>
      simp only [Context.kind_eq_ok hparent, ok_bind, Kind.isSuspension, true_and]
      -- most of these parents have a single place, so the node is at it
      cases hkind : whole.kind with
      | expressionStatement expression =>
          obtain rfl : id = expression := by simpa [hkind, groupingPlaces] using hplace
          exact answers_pure ⟨fun _ => .statement, fun _ => rfl⟩
      | declarator target init =>
          obtain rfl : init = some id := by simpa [hkind, groupingPlaces, eq_comm] using hplace
          exact answers_pure ⟨fun _ => .init target, fun _ => rfl⟩
      | returnStatement argument =>
          obtain rfl : argument = some id := by simpa [hkind, groupingPlaces, eq_comm] using hplace
          exact answers_pure ⟨fun _ => .returned, fun _ => rfl⟩
      | assignment operator left right =>
          refine answers_pure ?_
          rw [Bool.and_eq_true, beq_iff_eq, beq_iff_eq]
          constructor
          · rintro ⟨rfl, rfl⟩
            exact .assigned left
          · intro htakes
            cases htakes
            exact ⟨rfl, rfl⟩
      | _ =>
          refine answers_false ?_
          intro htakes
          cases htakes
  | _ => exact answers_false (by simp [Kind.isSuspension])

theorem isPlainArrowBody_answers (h : ctx.Shaped) (hnode : ctx.tree.nodes[id]? = some node)
    (hparent : ctx.tree.nodes[parent]? = some whole) :
    Answers (isPlainArrowBody ctx id parent)
      ((∃ params isAsync, whole.kind = .arrow params id true isAsync) ∧
        (∀ properties, node.kind ≠ .object properties) ∧
        (∀ expressions, node.kind ≠ .sequence expressions) ∧
        ∀ t ∈ (ctx.tokensOf id).head?, t.isSign "\x7b" = false) := by
  rw [isPlainArrowBody, Context.kind_eq_ok hparent, ok_bind]
  split
  · rename_i params body isAsync hkind
    by_cases hbody : body = id
    · rw [if_neg (by simpa using hbody), Context.kind_eq_ok hnode, ok_bind]
      split
      · rename_i properties hobject
        exact answers_false fun hplain => hplain.2.1 properties hobject
      · rename_i expressions hsequence
        exact answers_false fun hplain => hplain.2.2.1 expressions hsequence
      · rename_i hobject hsequence
        rw [h.firstToken_eq_ok hnode, ok_bind]
        refine answers_pure ?_
        rw [Bool.not_eq_true', Option.any_eq_false]
        constructor
        · intro hbrace
          exact ⟨⟨params, isAsync, by rw [hkind, hbody]⟩, hobject, hsequence, fun t ht => by
            simpa using hbrace t ht⟩
        · rintro ⟨-, -, -, hbrace⟩ t ht
          simpa using hbrace t ht
    · rw [if_pos (by simpa using hbody)]
      refine answers_false ?_
      rintro ⟨⟨params', isAsync', hkind'⟩, -⟩
      rw [hkind] at hkind'
      exact hbody (Kind.arrow.inj hkind').2.1
  · rename_i hnot
    refine answers_false ?_
    rintro ⟨⟨params, isAsync, hkind⟩, -⟩
    exact hnot _ _ _ hkind

theorem isReturnedJsx_answers (hnode : ctx.tree.nodes[id]? = some node)
    (hparent : ctx.tree.nodes[parent]? = some whole) :
    Answers (isReturnedJsx ctx id parent)
      (node.kind.isJsx = true ∧ whole.kind = .returnStatement (some id)) := by
  rw [isReturnedJsx, Context.kind_eq_ok hnode, ok_bind, Context.kind_eq_ok hparent, ok_bind]
  cases hjsx : node.kind.isJsx with
  | false => exact answers_false (by simp)
  | true =>
      rw [if_neg (by simp)]
      split
      · rename_i argument hkind
        exact answers_pure (by simp [hkind])
      · rename_i hnot
        exact answers_false fun hmarkup => hnot _ hmarkup.2

/-- The conditions have a result in every well-formed context. -/
theorem exists_isRedundantGrouping (h : ctx.Shaped) (hnode : ctx.tree.nodes[id]? = some node)
    (hparent : ctx.tree.nodes[parent]? = some whole) (left right : Token) :
    ∃ b, isRedundantGrouping ctx id parent left right = .ok b := by
  obtain ⟨b, hb⟩ := exists_isSuspendPlace hnode hparent
  have hsuspend : Answers (isSuspendPlace ctx id parent) (b = true) := ⟨b, hb, Iff.rfl⟩
  obtain ⟨redundant, hredundant, -⟩ := (isDoubleGrouped_answers h hparent left right).or
    ((isPrimaryPlace_answers h hnode hparent).or
      (hsuspend.or ((isPlainArrowBody_answers h hnode hparent).or
        (isReturnedJsx_answers hnode hparent))))
  exact ⟨redundant, hredundant⟩

/-- **The conditions decide whether parentheses are redundant**: they are directly inside those of
the parent, or the node needs none. -/
theorem isRedundantGrouping_answers (h : ctx.Shaped) (hnode : ctx.tree.nodes[id]? = some node)
    (hparent : ctx.tree.nodes[parent]? = some whole) (hplace : id ∈ groupingPlaces whole.kind)
    (left right : Token) :
    Answers (isRedundantGrouping ctx id parent left right)
      (ctx.Doubled whole.span left right ∨ ctx.NeedsNone id node parent whole.kind) := by
  have hall := (isDoubleGrouped_answers h hparent left right).or
    ((isPrimaryPlace_answers h hnode hparent).or
      ((isSuspendPlace_answers hnode hparent hplace).or
        ((isPlainArrowBody_answers h hnode hparent).or (isReturnedJsx_answers hnode hparent))))
  refine hall.congr (or_congr_right ⟨?_, ?_⟩)
  · rintro (⟨hatom, htakes | ⟨hstmt, hlet, hstring⟩⟩ | ⟨hwaits, htakes⟩ |
      ⟨⟨params, isAsync, harrow⟩, hobject, hsequence, hbrace⟩ | ⟨hjsx, hreturned⟩)
    · exact .atom hatom htakes
    · exact hstmt ▸ .statement hatom hlet hstring
    · exact .suspension hwaits htakes
    · exact harrow ▸ .body params isAsync hobject hsequence hbrace
    · exact hreturned ▸ .markup hjsx
  · intro hneeds
    generalize hkind : whole.kind = kind at hneeds ⊢
    cases hneeds with
    | atom hatom htakes => exact .inl ⟨hatom, .inl htakes⟩
    | statement hatom hlet hstring => exact .inl ⟨hatom, .inr ⟨rfl, hlet, hstring⟩⟩
    | suspension hwaits htakes => exact .inr (.inl ⟨hwaits, htakes⟩)
    | body params isAsync hobject hsequence hbrace =>
        exact .inr (.inr (.inl ⟨⟨params, isAsync, rfl⟩, hobject, hsequence, hbrace⟩))
    | markup hjsx => exact .inr (.inr (.inr ⟨hjsx, rfl⟩))

end Conditions

end Pare
