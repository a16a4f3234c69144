import Pare.Proofs.Redundancy

/-!
**Directives stay what they are.**

A body may begin with directives: statements that are nothing but a string, such as `"use strict"`.
Parentheses around the string make it an ordinary statement, and the directives end there.  Taking
them away would make a directive of it, and perhaps of the strings that follow it, so such
parentheses are not redundant, however many statements with and without parentheses stand before
them.

Main definitions:

* `Pare.Context.isGrouped` — are there parentheses directly around the node?
* `Pare.Context.prologue` — the directives of a body, with some nodes taken as grouped.

Main results:

* `Pare.Context.prologue_congr` — only strings with nothing but strings before them decide which
  statements are directives;
* `Pare.node_ne_of_opensBody` — **such a string is not reported**;
* `Pare.Rule.run_keeps_prologue` — **whatever the rule reports on parentheses, without them every
  body has the directives that it had**.
-/

set_option relaxedAutoImplicit false
set_option autoImplicit false

namespace Pare

variable {ctx : Context}

/-! ### Directives -/

/-- Are there parentheses directly around the node? -/
def Context.isGrouped (ctx : Context) (id : NodeId) : Bool :=
  match ctx.grouping id with
  | .ok (some _) => true
  | _ => false

/-- The directives of a body: the longest front of it that consists of bare strings. -/
def Context.prologue (ctx : Context) (grouped : NodeId → Bool) (body : List NodeId) :
    List NodeId :=
  body.takeWhile fun stmt => (ctx.string? stmt).any fun expression => !grouped expression

theorem Context.isGrouped_eq {id : NodeId} {node : Node} (hnode : ctx.tree.nodes[id]? = some node) :
    ctx.isGrouped id = (ctx.groupingAt node.span).isSome := by
  rw [isGrouped, Context.grouping_eq_ok hnode]
  cases ctx.groupingAt node.span <;> rfl

/-- Only strings with nothing but strings before them decide which statements are directives. -/
theorem Context.prologue_congr {grouped grouped' : NodeId → Bool} {body : List NodeId}
    (h : ∀ front stmt back expression, body = front ++ stmt :: back →
      (∀ s ∈ front, (ctx.string? s).isSome = true) → ctx.string? stmt = some expression →
      grouped expression = grouped' expression) :
    ctx.prologue grouped body = ctx.prologue grouped' body := by
  unfold prologue
  induction body with
  | nil => rfl
  | cons stmt rest ih =>
      have hsame : ((ctx.string? stmt).any fun e => !grouped e) =
          (ctx.string? stmt).any fun e => !grouped' e := by
        cases hstring : ctx.string? stmt with
        | none => rfl
        | some expression => simp [h [] stmt rest expression rfl (by simp) hstring]
      rw [List.takeWhile_cons, List.takeWhile_cons, hsame]
      by_cases hbare : ((ctx.string? stmt).any fun e => !grouped' e) = true
      · have hstring : (ctx.string? stmt).isSome = true := by
          obtain ⟨expression, hexpression, -⟩ := Option.any_eq_true _ _ |>.1 hbare
          exact Option.isSome_of_eq_some hexpression
        rw [if_pos hbare, if_pos hbare]
        refine congrArg _ (ih fun front s back e hsplit hfront hs => ?_)
        refine h (stmt :: front) s back e (by rw [hsplit]; rfl) ?_ hs
        exact List.forall_mem_cons.2 ⟨hstring, hfront⟩
      · rw [if_neg hbare, if_neg hbare]

/-! ### Strings that may not lose their parentheses -/

/-- A string that is a statement is a part of the statement. -/
theorem Context.exists_nodes_of_string? (h : ctx.Shaped) {stmt expression : NodeId}
    (hstring : ctx.string? stmt = some expression) : ∃ whole node value,
      ctx.tree.nodes[stmt]? = some whole ∧ ctx.tree.nodes[expression]? = some node ∧
      node.parent = some stmt ∧ whole.kind = .expressionStatement expression ∧
      node.kind = .literal (.string value) := by
  obtain ⟨hstmt, value, hvalue⟩ := Context.string?_eq_some.1 hstring
  obtain ⟨whole, hwhole, hkind⟩ := Context.exists_node hstmt
  obtain ⟨node, hnode, hliteral⟩ := Context.exists_node hvalue
  obtain ⟨-, node', hnode', hparent, -⟩ := h.parts stmt whole hwhole expression (by
    simp [hkind, Kind.children])
  obtain rfl := Option.some.inj (hnode.symm.trans hnode')
  exact ⟨whole, node, value, hwhole, hnode, hparent, hkind, hliteral⟩

/-- A string that opens a body needs its parentheses. -/
theorem Context.OpensBody.not_needsNone {stmt expression : NodeId} (h : ctx.OpensBody stmt)
    {node : Node} {value : Option String} (hkind : node.kind = .literal (.string value)) :
    ¬ ctx.NeedsNone expression node stmt (.expressionStatement expression) := by
  intro hneeds
  cases hneeds with
  | atom _ hplace => cases hplace
  | statement _ _ hstring => exact hstring value hkind h
  | suspension hwaits => simp [hkind, Kind.isSuspension] at hwaits

/-- **A string that opens a body is not reported for its parentheses**, unless the statement is in
parentheses itself. -/
theorem node_ne_of_opensBody (h : ctx.WellFormed) {stmt expression : NodeId}
    (hstring : ctx.string? stmt = some expression) (hopens : ctx.OpensBody stmt)
    (hbare : ctx.isGrouped stmt = false) {d : Detection} {id : NodeId} (hid : id < ctx.tree.size)
    {detector : Detector} (hd : d ∈ detector.reports ctx id) (hissue : d.issue = .parens) :
    d.node ≠ expression := by
  rintro rfl
  obtain ⟨whole, node, value, hwhole, hnode, hparent, hkind, hliteral⟩ :=
    Context.exists_nodes_of_string? h.shaped hstring
  obtain ⟨hplace, hreport⟩ := (exists_report_parens_iff h hnode hparent hwhole).1
    ⟨d, ⟨id, hid, detector, hd⟩, rfl, hissue⟩
  have hroot : d.node ≠ Tree.root := by
    obtain ⟨-, -, -, hne⟩ := h.treeListed.exists_part (Detector.node_mem_parts hid hd)
    exact hne
  obtain ⟨left, right, -, hdoubled | hneeds⟩ :=
    (exists_checkGrouping_iff h.shaped hnode hroot hparent hwhole hplace).1 hreport
  · obtain ⟨before, after, hgrouping, -⟩ := hdoubled
    rw [Context.isGrouped_eq hwhole, hgrouping] at hbare
    cases hbare
  · rw [hkind] at hneeds
    exact hopens.not_needsNone hliteral hneeds

/-- **Every body keeps its directives.**  In every well-formed context in which no statement that is
a string is in parentheses itself, the rule has a result; if the nodes of any of its reports on
parentheses are taken as not grouped, the directives of the program and of every function are the
same statements as before. -/
theorem Rule.run_keeps_prologue (h : ctx.WellFormed)
    (hbare : ∀ stmt, (ctx.string? stmt).isSome = true → ctx.isGrouped stmt = false) (rule : Rule) :
    Succeeds (rule.run ctx) fun found => ∀ ds : List Detection,
      (∀ d ∈ ds, d ∈ found ∧ d.issue = .parens) → ∀ body, ctx.IsBody body →
      ctx.prologue (fun id => ctx.isGrouped id && ds.all fun d => d.node != id) body =
        ctx.prologue ctx.isGrouped body := by
  obtain ⟨found, hrun, -, hmem⟩ := Rule.run_eq_ok h rule
  refine ⟨found, hrun, fun ds hds body hbody => ?_⟩
  refine Context.prologue_congr fun front stmt back expression hsplit hfront hstring => ?_
  have hopens : ctx.OpensBody stmt := ⟨front, back, hsplit ▸ hbody, hfront⟩
  have hkept : ds.all (fun d => d.node != expression) = true := by
    refine List.all_eq_true.2 fun d hd => bne_iff_ne.2 ?_
    obtain ⟨hfound, hissue⟩ := hds d hd
    obtain ⟨-, id, hid, detector, hreport⟩ := (hmem d).1 hfound
    exact node_ne_of_opensBody h hstring hopens (hbare stmt (by simp [hstring])) hid hreport hissue
  rw [hkept, Bool.and_true]

/-! ### Strings before and after a statement -/

/-- The program `"a";("b");c;("d")`. -/
def groupedStrings : Context where
  tree := ⟨#[
    ⟨.program [1, 3, 5, 7], .upTo 0 17, none⟩,
    ⟨.expressionStatement 2, .upTo 0 4, some 0⟩,
    ⟨.literal (.string (some "a")), .upTo 0 3, some 1⟩,
    ⟨.expressionStatement 4, .upTo 4 10, some 0⟩,
    ⟨.literal (.string (some "b")), .upTo 5 8, some 3⟩,
    ⟨.expressionStatement 6, .upTo 10 12, some 0⟩,
    ⟨.identifier "c", .upTo 10 11, some 5⟩,
    ⟨.expressionStatement 8, .upTo 12 17, some 0⟩,
    ⟨.literal (.string (some "d")), .upTo 13 16, some 7⟩]⟩
  source := ⟨"\"a\";(\"b\");c;(\"d\")", #[
    ⟨.string, "\"a\"", .upTo 0 3⟩, ⟨.punctuator, ";", .upTo 3 4⟩, ⟨.punctuator, "(", .upTo 4 5⟩,
    ⟨.string, "\"b\"", .upTo 5 8⟩, ⟨.punctuator, ")", .upTo 8 9⟩, ⟨.punctuator, ";", .upTo 9 10⟩,
    ⟨.word, "c", .upTo 10 11⟩, ⟨.punctuator, ";", .upTo 11 12⟩, ⟨.punctuator, "(", .upTo 12 13⟩,
    ⟨.string, "\"d\"", .upTo 13 16⟩, ⟨.punctuator, ")", .upTo 16 17⟩], #[]⟩

set_option maxRecDepth 20000 in
theorem wellFormed_groupedStrings : groupedStrings.WellFormed := by decide

set_option maxRecDepth 20000 in
theorem Rule.run_groupedStrings : Rule.run {} groupedStrings =
    .ok [⟨8, .parens, .upTo 12 17, some ⟨⟨.upTo 12 13, ""⟩, [⟨.upTo 16 17, ""⟩]⟩⟩] := by
  cbv

/-- The last string is reported, and the first one stays the only directive. -/
theorem Rule.run_keeps_prologue_strings : groupedStrings.WellFormed ∧
    (∀ stmt, (groupedStrings.string? stmt).isSome = true →
      groupedStrings.isGrouped stmt = false) ∧
    ∃ d, Rule.run {} groupedStrings = .ok [d] ∧ d.node = 8 ∧ d.issue = .parens ∧
      groupedStrings.prologue
        (fun id => groupedStrings.isGrouped id && [d].all fun d => d.node != id) [1, 3, 5, 7] =
        [1] := by
  have hbare : ∀ stmt, (groupedStrings.string? stmt).isSome = true →
      groupedStrings.isGrouped stmt = false := by
    have hall : ∀ stmt < groupedStrings.tree.size, (groupedStrings.string? stmt).isSome = true →
        groupedStrings.isGrouped stmt = false := by decide +kernel
    intro stmt hstring
    obtain ⟨expression, hexpression⟩ := Option.isSome_iff_exists.1 hstring
    obtain ⟨whole, node, value, hstmt, -⟩ :=
      Context.exists_nodes_of_string? wellFormed_groupedStrings.shaped hexpression
    exact hall stmt (Tree.lt_size hstmt) hstring
  obtain ⟨found, hrun, hall⟩ := Rule.run_keeps_prologue wellFormed_groupedStrings hbare {}
  obtain rfl := Except.ok.inj (Rule.run_groupedStrings.symm.trans hrun)
  refine ⟨wellFormed_groupedStrings, hbare, _, Rule.run_groupedStrings, rfl, rfl, ?_⟩
  have hbody : groupedStrings.IsBody [1, 3, 5, 7] :=
    .program (show groupedStrings.tree.nodes[0]? = some _ from rfl) rfl
  rw [hall [_] (by simp) _ hbody]
  cbv

end Pare
