import Pare.Proofs.Coverage

/-!
**Redundant parentheses are found.**

The rule finds redundant parentheses with two tables: one says at which parts of a construct they
are looked for, the other under which conditions a node is reported there.  A place that is missing
from one of them would go unnoticed, whatever the other says.  So the two are taken together here,
with the walk: a node that needs no parentheses is reported once if it has them, and nothing else is
reported, but for parentheses directly inside those of the parent.

Main definitions:

* `Pare.timesReported` — how often a node is reported on an issue.

Main results:

* `Pare.exists_checkGrouping_iff` — a report is made on parentheses if they are redundant;
* `Pare.Rule.run_eq_ok` — what the rule reports are the reports of the detectors;
* `Pare.Rule.run_reports_redundant_grouping` — **redundant parentheses are reported once each, and
  no others are**.
-/

set_option relaxedAutoImplicit false
set_option autoImplicit false

namespace Pare

variable {ctx : Context}

/-! ### Reports -/

/-- A report is made if there are parentheses and they are redundant. -/
theorem exists_checkGrouping_iff (h : ctx.Shaped) {id parent : NodeId} {node whole : Node}
    (hnode : ctx.tree.nodes[id]? = some node) (hroot : id ≠ Tree.root)
    (hup : node.parent = some parent) (hparent : ctx.tree.nodes[parent]? = some whole)
    (hplace : id ∈ groupingPlaces whole.kind) :
    (∃ d, checkGrouping ctx id = .ok (some d)) ↔
      ∃ left right, ctx.groupingAt node.span = some (left, right) ∧
        (ctx.Doubled whole.span left right ∨ ctx.NeedsNone id node parent whole.kind) := by
  constructor
  · rintro ⟨d, hd⟩
    obtain ⟨-, -, left, right, up, -, hgrouping, hup', hredundant, -⟩ := checkGrouping_found hd
    rw [Context.grouping_eq_ok hnode] at hgrouping
    rw [Context.parent_eq_ok hnode, hup] at hup'
    obtain rfl := Option.some.inj (Except.ok.inj hup')
    have hanswers := isRedundantGrouping_answers h hnode hparent hplace left right
    exact ⟨left, right, Except.ok.inj hgrouping, (Succeeds.of_eq_ok hanswers hredundant).1 rfl⟩
  · rintro ⟨left, right, hgrouping, hneeds⟩
    obtain ⟨redundant, hredundant, hiff⟩ := isRedundantGrouping_answers h hnode hparent hplace left
      right
    obtain rfl : redundant = true := hiff.2 hneeds
    obtain ⟨found, hfound, d, rfl, -⟩ := groupingReport_succeeds h hnode hroot hparent hgrouping
      ⟨left.span.start, right.span.stop, (h.grouped hgrouping).left_le_right⟩
    refine ⟨d, ?_⟩
    simp only [checkGrouping, Context.grouping_eq_ok hnode, Context.parent_eq_ok hnode, ok_bind,
      hgrouping, hup, hredundant, Bool.not_true, Bool.false_eq_true, if_false,
      Span.ofBounds_of_le (h.grouped hgrouping).left_le_right]
    exact hfound

/-- What is reported on grouping at a construct are the reports about its places. -/
theorem mem_reports_grouping (h : ctx.Shaped) {parent : NodeId} {whole : Node}
    (hparent : ctx.tree.nodes[parent]? = some whole) {d : Detection} :
    d ∈ Detector.grouping.reports ctx parent ↔
      d.node ∈ groupingPlaces whole.kind ∧ checkGrouping ctx d.node = .ok (some d) := by
  have hplaces : ∀ place ∈ groupingPlaces whole.kind,
      checkGrouping ctx place = .ok ((checkGrouping ctx place).toOption.getD none) := by
    intro place hplace
    obtain ⟨node, hnode, hroot⟩ := h.exists_part hparent (mem_children_of_mem_groupingPlaces hplace)
    obtain ⟨r, hr, -⟩ := checkGrouping_repairs h hnode hroot
    rw [hr]
    rfl
  have hcheck : Detector.grouping.check ctx parent = .ok (((groupingPlaces whole.kind).map
      fun place => (checkGrouping ctx place).toOption.getD none).filterMap id) := by
    rw [Detector.check, Context.kind_eq_ok hparent, ok_bind, mapM_eq_ok_map hplaces]
    rfl
  rw [Detector.reports_eq hcheck, List.mem_filterMap]
  constructor
  · rintro ⟨r, hr, hd⟩
    obtain ⟨place, hplace, rfl⟩ := List.mem_map.1 hr
    have hreport : checkGrouping ctx place = .ok (some d) := by
      rw [hplaces place hplace]
      exact congrArg _ hd
    obtain ⟨rfl, -⟩ := checkGrouping_names place d hreport
    exact ⟨hplace, hreport⟩
  · rintro ⟨hplace, hreport⟩
    refine ⟨some d, List.mem_map.2 ⟨d.node, hplace, ?_⟩, rfl⟩
    rw [hreport]
    rfl

/-- Every detector has a result at every node. -/
theorem Context.WellFormed.exists_check (h : ctx.WellFormed) {id : NodeId}
    (hid : id < ctx.tree.size) (detector : Detector) :
    ∃ found, detector.check ctx id = .ok found := by
  obtain ⟨node, hnode⟩ := Tree.exists_node hid
  obtain ⟨found, hfound, -⟩ := detector.check_of_indexing h.shaped hnode (P := Detection.Sound ctx)
    (fun _ hd => hd) (checkIndexing_repairs h hnode)
  exact ⟨found, hfound⟩

/-- The rule reports what the detectors report at the nodes, and nothing twice; nothing if it is
off. -/
theorem Rule.run_eq_ok (h : ctx.WellFormed) (rule : Rule) :
    ∃ found, rule.run ctx = .ok found ∧ found.Pairwise Detection.Distinct ∧
      ∀ d, d ∈ found ↔ rule.enabled = true ∧
        ∃ id < ctx.tree.size, ∃ detector : Detector, d ∈ detector.reports ctx id := by
  rw [Rule.run]
  cases rule.enabled with
  | false => exact ⟨[], rfl, .nil, by simp⟩
  | true =>
      obtain ⟨found, hfound, hperm, -, hdistinct⟩ := walk_eq_ok h.treeListed
        (show Detector.all.Nodup by decide) fun id hid detector _ => h.exists_check hid detector
      refine ⟨found, hfound, hdistinct, fun d => ?_⟩
      have hall : ∀ detector : Detector, detector ∈ Detector.all := by
        intro detector
        cases detector <;> decide
      simp only [hperm.mem_iff, List.mem_flatMap, List.mem_range, hall, true_and]

/-- A node is reported for its parentheses if a report is made where its parent is looked at. -/
theorem exists_report_parens_iff (h : ctx.WellFormed) {id parent : NodeId} {node whole : Node}
    (hnode : ctx.tree.nodes[id]? = some node) (hup : node.parent = some parent)
    (hparent : ctx.tree.nodes[parent]? = some whole) :
    (∃ d : Detection, (∃ other < ctx.tree.size, ∃ detector : Detector,
      d ∈ detector.reports ctx other) ∧ d.node = id ∧ d.issue = .parens) ↔
      id ∈ groupingPlaces whole.kind ∧ ∃ d, checkGrouping ctx id = .ok (some d) := by
  constructor
  · rintro ⟨d, ⟨other, hother, detector, hd⟩, rfl, hissue⟩
    -- the node is a part of its parent only, and only one detector looks for parentheses
    obtain ⟨node', hnode', hup', -⟩ :=
      h.treeListed.exists_part (Detector.node_mem_parts hother hd)
    obtain rfl := Option.some.inj (hnode.symm.trans hnode')
    obtain rfl := Option.some.inj (hup.symm.trans hup')
    rw [(Detector.reports_reportsOn hparent detector).issues d hd] at hissue
    cases detector with
    | grouping =>
        obtain ⟨hplace, hreport⟩ := (mem_reports_grouping h.shaped hparent).1 hd
        exact ⟨hplace, d, hreport⟩
    | indexing | braces | arrowBody => cases hissue
  · rintro ⟨hplace, d, hreport⟩
    obtain ⟨rfl, hissue⟩ := checkGrouping_names id d hreport
    refine ⟨d, ⟨parent, Tree.lt_size hparent, .grouping, ?_⟩, rfl, hissue⟩
    exact (mem_reports_grouping h.shaped hparent).2 ⟨hplace, hreport⟩

/-- How often a node is reported on an issue. -/
def timesReported (found : List Detection) (id : NodeId) (issue : Issue) : Nat :=
  found.countP fun d => d.node == id && d.issue == issue

section TimesReported

variable {found : List Detection} {id : NodeId} {issue : Issue}

theorem timesReported_eq_zero (h : ¬ ∃ d ∈ found, d.node = id ∧ d.issue = issue) :
    timesReported found id issue = 0 := by
  refine List.countP_eq_zero.2 fun d hd habout => h ⟨d, hd, ?_⟩
  simpa using habout

/-- Where no two reports are about one node and one issue, a node that is reported is reported
once. -/
theorem timesReported_eq_one (hdistinct : found.Pairwise Detection.Distinct)
    (h : ∃ d ∈ found, d.node = id ∧ d.issue = issue) : timesReported found id issue = 1 := by
  obtain ⟨d, hd, rfl, rfl⟩ := h
  obtain ⟨front, back, rfl⟩ := List.append_of_mem hd
  obtain ⟨-, hback, hfront⟩ := List.pairwise_append.1 hdistinct
  have hnone : ∀ e : Detection, d.Distinct e ∨ e.Distinct d →
      ¬ (e.node == d.node && e.issue == d.issue) = true := by
    intro e he hsame
    obtain ⟨hnode, hissue⟩ : e.node = d.node ∧ e.issue = d.issue := by simpa using hsame
    rcases he with he | he
    · exact he ⟨hnode.symm, hissue.symm⟩
    · exact he ⟨hnode, hissue⟩
  have hzero : front.countP (fun e => e.node == d.node && e.issue == d.issue) = 0 :=
    List.countP_eq_zero.2 fun e he => hnone e (.inr (hfront e he d (List.mem_cons_self ..)))
  have hzero' : back.countP (fun e => e.node == d.node && e.issue == d.issue) = 0 :=
    List.countP_eq_zero.2 fun e he => hnone e (.inl ((List.pairwise_cons.1 hback).1 e he))
  rw [timesReported, List.countP_append, hzero, List.countP_cons_of_pos (by simp), hzero']

end TimesReported

/-- **Redundant parentheses are reported once each, and no others are.**  In every well-formed
context the rule has a result.  A node without parentheses directly around it is not reported.  A
node with parentheses is reported once if it needs none; if it needs them, it is reported only when
they are directly inside those of the parent, and then once if the rule looks there at all. -/
theorem Rule.run_reports_redundant_grouping (h : ctx.WellFormed) :
    Succeeds (Rule.run {} ctx) fun found => ∀ (id : NodeId) (node : Node),
      ctx.tree.nodes[id]? = some node → id ≠ Tree.root →
      ∃ parent whole, node.parent = some parent ∧ ctx.tree.nodes[parent]? = some whole ∧
        (ctx.groupingAt node.span = none → timesReported found id .parens = 0) ∧
        ∀ left right, ctx.groupingAt node.span = some (left, right) →
          (ctx.NeedsNone id node parent whole.kind → timesReported found id .parens = 1) ∧
          (¬ ctx.NeedsNone id node parent whole.kind → ¬ ctx.Doubled whole.span left right →
            timesReported found id .parens = 0) ∧
          (ctx.Doubled whole.span left right → timesReported found id .parens =
            if id ∈ groupingPlaces whole.kind then 1 else 0) := by
  obtain ⟨found, hrun, hdistinct, hmem⟩ := Rule.run_eq_ok h {}
  simp only [true_and] at hmem
  refine ⟨found, hrun, fun id node hnode hroot => ?_⟩
  obtain ⟨parent, hup, -⟩ := h.treeListed.once id node hnode hroot
  obtain ⟨whole, hparent⟩ := h.shaped.exists_parent hnode hup
  have hreport := exists_report_parens_iff h hnode hup hparent
  simp only [← hmem] at hreport
  have hcheck : id ∈ groupingPlaces whole.kind → _ :=
    exists_checkGrouping_iff h.shaped hnode hroot hup hparent
  refine ⟨parent, whole, hup, hparent, fun hbare => ?_, fun left right hgrouping => ⟨?_, ?_, ?_⟩⟩
  · refine timesReported_eq_zero fun hfound => ?_
    obtain ⟨hplace, hd⟩ := hreport.1 hfound
    obtain ⟨left, right, hsome, -⟩ := (hcheck hplace).1 hd
    cases hbare.symm.trans hsome
  · intro hneeds
    have hplace := hneeds.mem_groupingPlaces
    exact timesReported_eq_one hdistinct
      (hreport.2 ⟨hplace, (hcheck hplace).2 ⟨left, right, hgrouping, .inr hneeds⟩⟩)
  · intro hneeds hdoubled
    refine timesReported_eq_zero fun hfound => ?_
    obtain ⟨hplace, hd⟩ := hreport.1 hfound
    obtain ⟨left', right', hsome, hredundant⟩ := (hcheck hplace).1 hd
    obtain ⟨rfl, rfl⟩ := Prod.mk.inj (Option.some.inj (hgrouping.symm.trans hsome))
    exact hredundant.elim hdoubled hneeds
  · intro hdoubled
    by_cases hplace : id ∈ groupingPlaces whole.kind
    · rw [if_pos hplace]
      exact timesReported_eq_one hdistinct
        (hreport.2 ⟨hplace, (hcheck hplace).2 ⟨left, right, hgrouping, .inl hdoubled⟩⟩)
    · rw [if_neg hplace]
      exact timesReported_eq_zero fun hfound => hplace (hreport.1 hfound).1

set_option maxRecDepth 20000 in
theorem groupingAt_groupedBranch :
    groupedBranch.groupingAt (.upTo 7 8) =
        some (⟨.punctuator, "(", .upTo 6 7⟩, ⟨.punctuator, ")", .upTo 8 9⟩) ∧
      groupedBranch.groupingAt (.upTo 3 4) =
        some (⟨.punctuator, "(", .upTo 2 3⟩, ⟨.punctuator, ")", .upTo 4 5⟩) ∧
      groupedBranch.groupingAt (.upTo 0 10) = none := by
  refine ⟨?_, ?_, ?_⟩ <;> cbv

/-- The name in the block is reported once; the condition, whose parentheses belong to the branch,
is not. -/
theorem Rule.run_reports_redundant_grouping_branch : groupedBranch.WellFormed ∧ ∃ found,
    Rule.run {} groupedBranch = .ok found ∧ timesReported found 5 .parens = 1 ∧
      timesReported found 2 .parens = 0 := by
  obtain ⟨hname, hcondition, hwhole⟩ := groupingAt_groupedBranch
  obtain ⟨found, hrun, hall⟩ := Rule.run_reports_redundant_grouping wellFormed_groupedBranch
  refine ⟨wellFormed_groupedBranch, found, hrun, ?_, ?_⟩
  · obtain ⟨parent, whole, hup, hparent, -, hgrouped⟩ :=
      hall 5 ⟨.identifier "a", .upTo 7 8, some 4⟩ rfl (by decide)
    obtain rfl := Option.some.inj hup
    obtain rfl := Option.some.inj hparent
    obtain ⟨honce, -⟩ := hgrouped _ _ hname
    exact honce (.statement rfl (by decide) (by simp))
  · obtain ⟨parent, whole, hup, hparent, -, hgrouped⟩ :=
      hall 2 ⟨.identifier "x", .upTo 3 4, some 1⟩ rfl (by decide)
    obtain rfl := Option.some.inj hup
    obtain rfl := Option.some.inj hparent
    obtain ⟨-, hnever, -⟩ := hgrouped _ _ hcondition
    refine hnever ?_ ?_
    · intro hneeds
      cases hneeds with
      | atom _ hplace => cases hplace
      | suspension _ hplace => cases hplace
    · rintro ⟨before, after, hsome, -⟩
      cases hwhole.symm.trans hsome

end Pare
