import Mathlib.Algebra.BigOperators.Group.List.Basic
import Mathlib.Data.List.Nodup
import Mathlib.Data.List.Perm.Basic
import Pare.Proofs.Reports

/-!
**Every node is looked at once, and every report comes back once.**

The walk starts at the program and goes down through the parts.  In a tree that lists every node but
the program once, by its parent, this leads to every node, and to none twice.  A report is always
about a part of the node that is looked at, and each detector has its own places among the parts; so
two reports are never about one node and one issue, and dropping repeated neighbours, which only
looks at what stands side by side after the sort, drops nothing at all.

Main definitions:

* `Pare.Tree.Listed` — every node but the program is listed once, by its parent;
* `Pare.Names` — a computation whose report, if it makes one, is about a given node and issue;
* `Pare.Detector.places`, `Pare.Detector.issue` — the parts a detector may report, and on what;
* `Pare.Detector.reports` — what a detector reports at a node;
* `Pare.Detection.Distinct` — reports that are not about one node and one issue.

Main results:

* `Pare.Tree.preorder_succ_perm` — one level more is the node and the parts of all nodes before;
* `Pare.Tree.Listed.perm_range` — **the walk visits every node, and none twice**;
* `Pare.Detector.check_reportsOn` — a detector reports its places, each at most once;
* `Pare.pairwise_distinct_reports` — **no two reports are about one node and one issue**;
* `Pare.walk_eq_ok` — the walk has a result if every detector has one at every node;
* `Pare.walk_returns_every_report` — **the walk returns every report once, in the order of places**.
-/

set_option relaxedAutoImplicit false
set_option autoImplicit false

namespace Pare

variable {ctx : Context}

/-! ### Visiting every node -/

/-- Every node but the program is listed once, by its parent, which has a smaller number. -/
structure Tree.Listed (t : Tree) : Prop where
  /-- The program is there. -/
  root : Tree.root < t.size
  /-- A part is a node with a greater number, whose parent is the whole. -/
  parts : ∀ (id part : Nat), part ∈ t.parts id →
    id < part ∧ ∃ node ∈ t.nodes[part]?, node.parent = some id
  /-- Every node but the program is listed by its parent, once. -/
  once : ∀ (id : NodeId) (node : Node), t.nodes[id]? = some node → id ≠ Tree.root →
    ∃ parent ∈ node.parent, (t.parts parent).count id = 1

namespace Tree

/-- The nodes down to one level more are the first one and the parts of those down to here. -/
theorem preorder_succ_perm (t : Tree) (depth : Nat) (id : NodeId) :
    (t.preorder (depth + 1) id).Perm (id :: (t.preorder depth id).flatMap t.parts) := by
  induction depth generalizing id with
  | zero => simp [preorder]
  | succ depth ih =>
      have hparts : ((t.parts id).flatMap (t.preorder (depth + 1))).Perm
          ((t.parts id).flatMap fun part => [part] ++ (t.preorder depth part).flatMap t.parts) :=
        List.Perm.flatMap_left _ fun part _ => ih part
      have hsplit := List.flatMap_append_perm (t.parts id) (fun part => [part])
        fun part => (t.preorder depth part).flatMap t.parts
      rw [List.flatMap_singleton', ← List.flatMap_assoc] at hsplit
      rw [preorder, preorder, List.flatMap_cons]
      exact (hparts.trans hsplit.symm).cons id

namespace Listed

variable {t : Tree}

theorem exists_part (h : t.Listed) {id part : NodeId} (hpart : part ∈ t.parts id) :
    ∃ node, t.nodes[part]? = some node ∧ node.parent = some id ∧ part ≠ Tree.root := by
  obtain ⟨hlt, node, hnode, hparent⟩ := h.parts id part hpart
  exact ⟨node, hnode, hparent, Nat.ne_of_gt (Nat.lt_of_le_of_lt (Nat.zero_le id) hlt)⟩

theorem ranked (h : t.Listed) : t.Ranked := by
  intro id part hpart
  obtain ⟨node, hnode, -⟩ := h.exists_part hpart
  exact ⟨(h.parts id part hpart).1, lt_size hnode⟩

/-- A node is a part of one node only. -/
theorem eq_of_mem_parts (h : t.Listed) {a b part : NodeId} (ha : part ∈ t.parts a)
    (hb : part ∈ t.parts b) : a = b := by
  obtain ⟨m, hm, hma, -⟩ := h.exists_part ha
  obtain ⟨n, hn, hnb, -⟩ := h.exists_part hb
  obtain rfl := Option.some.inj (hm.symm.trans hn)
  exact Option.some.inj (hma.symm.trans hnb)

/-- A part is listed once. -/
theorem count_parts (h : t.Listed) {id part : NodeId} (hpart : part ∈ t.parts id) :
    (t.parts id).count part = 1 := by
  obtain ⟨node, hnode, hparent, hroot⟩ := h.exists_part hpart
  obtain ⟨parent, hparent', hcount⟩ := h.once part node hnode hroot
  obtain rfl : id = parent := Option.some.inj (hparent.symm.trans hparent')
  exact hcount

theorem nodup_parts (h : t.Listed) (id : NodeId) : (t.parts id).Nodup :=
  List.nodup_iff_count_eq_one.2 fun _ hpart => h.count_parts hpart

/-- The walk visits every node once. -/
theorem count_preorder (h : t.Listed) {id : NodeId} (hid : id < t.size) :
    (t.preorder t.size Tree.root).count id = 1 := by
  have hdeep : t.size ≤ Tree.root + 1 + t.size := Nat.le_add_left ..
  -- the nodes of the walk are the program and the parts of the nodes of the walk
  have hperm := t.preorder_succ_perm t.size Tree.root
  rw [h.ranked.preorder_succ hdeep] at hperm
  induction id using Nat.strongRecOn with
  | _ id ih =>
      obtain ⟨node, hnode⟩ := exists_node hid
      rw [hperm.count_eq, List.count_cons, List.count_flatMap]
      by_cases hroot : id = Tree.root
      · have hnone : ∀ whole ∈ t.preorder t.size Tree.root,
            (List.count id ∘ t.parts) whole = 0 := by
          intro whole _
          refine List.count_eq_zero.2 fun hpart => ?_
          obtain ⟨-, -, -, hne⟩ := h.exists_part hpart
          exact hne hroot
        rw [List.map_congr_left hnone]
        simp [hroot]
      · obtain ⟨parent, hparent, hcount⟩ := h.once id node hnode hroot
        have hpart : id ∈ t.parts parent := List.count_pos_iff.1 (by omega)
        have hlt := (h.parts parent id hpart).1
        -- it is listed at its parent and nowhere else
        have hone : ∀ whole ∈ t.preorder t.size Tree.root,
            (List.count id ∘ t.parts) whole = if whole = parent then 1 else 0 := by
          intro whole _
          by_cases hwhole : whole = parent
          · rw [if_pos hwhole, hwhole]
            exact hcount
          · rw [if_neg hwhole]
            exact List.count_eq_zero.2 fun hpart' => hwhole (h.eq_of_mem_parts hpart' hpart)
        have hsum : ((t.preorder t.size Tree.root).map fun whole =>
            if whole = parent then 1 else 0).sum = (t.preorder t.size Tree.root).count parent := by
          rw [List.sum_map_ite, List.count, List.countP_eq_length_filter]
          simp
          rfl
        rw [List.map_congr_left hone, hsum, ih parent hlt (Nat.lt_trans hlt hid)]
        simp [Ne.symm hroot]

/-- **The walk visits every node, and none twice.** -/
theorem perm_range (h : t.Listed) : (t.preorder t.size Tree.root).Perm (List.range t.size) := by
  refine List.perm_iff_count.2 fun id => ?_
  by_cases hid : id < t.size
  · rw [h.count_preorder hid, List.count_eq_one_of_mem List.nodup_range (List.mem_range.2 hid)]
  · rw [List.count_eq_zero.2 fun hmem => hid (h.ranked.lt_size_of_mem_preorder h.root hmem),
      List.count_eq_zero.2 fun hmem => hid (List.mem_range.1 hmem)]

end Listed

end Tree

/-- The tree of a well-formed context lists every node once. -/
theorem Context.WellFormed.treeListed (h : ctx.WellFormed) : ctx.tree.Listed where
  root := by
    obtain ⟨root, hroot, -⟩ := h.root
    exact Tree.lt_size hroot
  parts := by
    intro id part hpart
    obtain ⟨whole, hwhole⟩ : ∃ whole, ctx.tree.nodes[id]? = some whole := by
      unfold Tree.parts at hpart
      split at hpart
      · exact ⟨_, ‹_›⟩
      · simp at hpart
    rw [Tree.parts_eq hwhole] at hpart
    obtain ⟨hlt, node, hnode, hparent, -⟩ := h.parts id whole hwhole part hpart
    exact ⟨hlt, node, hnode, hparent⟩
  once := h.listed

/-! ### What a report is about -/

/-- A computation whose report, if it makes one, is about this node and this issue. -/
def Names (id : NodeId) (issue : Issue) (x : Except Fault (Option Detection)) : Prop :=
  ∀ d, x = .ok (some d) → d.node = id ∧ d.issue = issue

/-- The report on grouping is about the node in the parentheses. -/
theorem checkGrouping_names (id : NodeId) : Names id .parens (checkGrouping ctx id) := by
  intro d hd
  obtain ⟨hnode, hissue, -⟩ := checkGrouping_found hd
  exact ⟨hnode, hissue⟩

/-- The report on a branch or a body is about the block. -/
theorem checkBlock_names (block controlling : NodeId) :
    Names block .braces (checkBlock ctx block controlling) := by
  intro d hd
  obtain ⟨hnode, hissue, -⟩ := checkBlock_found hd
  exact ⟨hnode, hissue⟩

/-! ### The places of a detector -/

/-- Reports on one issue about some of these nodes, about each at most as often as it is there. -/
structure ReportsOn (places : List NodeId) (issue : Issue) (found : List Detection) : Prop where
  nodes : (found.map Detection.node).Sublist places
  issues : ∀ d ∈ found, d.issue = issue

theorem reportsOn_nil (places : List NodeId) (issue : Issue) : ReportsOn places issue [] :=
  ⟨List.nil_sublist places, by simp⟩

/-- One report is about its own node. -/
theorem reportsOn_singleton {d : Detection} {issue : Issue} (h : d.issue = issue) :
    ReportsOn [d.node] issue [d] :=
  ⟨List.Sublist.refl _, by simpa using h⟩

/-- One computation for each place reports on the places. -/
theorem reportsOn_mapM {f : NodeId → Except Fault (Option Detection)} {issue : Issue}
    (h : ∀ id, Names id issue (f id)) {places : List NodeId} {found : List (Option Detection)}
    (hfound : places.mapM f = .ok found) : ReportsOn places issue (found.filterMap id) := by
  induction places generalizing found with
  | nil =>
      obtain rfl := Except.ok.inj hfound
      exact reportsOn_nil [] issue
  | cons place places ih =>
      rw [List.mapM_cons] at hfound
      obtain ⟨r, hr, hfound⟩ := bind_eq_ok.1 hfound
      obtain ⟨rest, hrest, hfound⟩ := bind_eq_ok.1 hfound
      obtain rfl := Except.ok.inj hfound
      obtain ⟨hnodes, hissues⟩ := ih hrest
      cases r with
      | none => exact ⟨hnodes.cons place, hissues⟩
      | some d =>
          obtain ⟨hnode, hissue⟩ := h place d hr
          refine ⟨?_, List.forall_mem_cons.2 ⟨hissue, hissues⟩⟩
          rw [← hnode]
          exact hnodes.cons_cons d.node

/-- The key of an access in brackets. -/
def indexedKey : Kind NodeId → List NodeId
  | .member _ key true false => [key]
  | _ => []

/-- The body of an arrow function, if it is a block. -/
def arrowBlock : Kind NodeId → List NodeId
  | .arrow _ body false _ => [body]
  | _ => []

namespace Detector

/-- What a detector reports on. -/
def issue : Detector → Issue
  | indexing => .brackets
  | grouping => .parens
  | braces | arrowBody => .braces

/-- The parts of a construct that a detector may report. -/
def places (kind : Kind NodeId) : Detector → List NodeId
  | indexing => indexedKey kind
  | grouping => groupingPlaces kind
  | braces => controlledBlocks kind
  | arrowBody => arrowBlock kind

/-- The places of a detector are parts, and none is there more often than as a part. -/
theorem places_subperm (kind : Kind NodeId) (detector : Detector) :
    (detector.places kind).Subperm kind.children := by
  cases detector with
  | indexing =>
      cases kind with
      | member object key computed optional =>
          cases computed <;> cases optional <;>
            exact List.Sublist.subperm (by simp [places, indexedKey, Kind.children])
      | _ => exact List.nil_subperm
  | grouping =>
      cases kind with
      -- here the callee is looked at last, though it is the first part
      | call callee arguments _ => exact (List.perm_append_singleton callee arguments).subperm
      | construct callee arguments => exact (List.perm_append_singleton callee arguments).subperm
      | arrow params body expression _ =>
          cases expression <;>
            exact List.Sublist.subperm (by simp [places, groupingPlaces, Kind.children])
      | assignment | property =>
          simp only [places, groupingPlaces, Kind.children]
          split <;> exact List.Sublist.subperm (by simp)
      | _ => exact List.Sublist.subperm (by simp [places, groupingPlaces, Kind.children])
  | braces =>
      cases kind <;>
        exact List.Sublist.subperm (by simp [places, controlledBlocks, Kind.children])
  | arrowBody =>
      cases kind with
      | arrow params body expression _ =>
          cases expression <;>
            exact List.Sublist.subperm (by simp [places, arrowBlock, Kind.children])
      | _ => exact List.nil_subperm

/-- Two detectors that report on one issue have no place in common. -/
theorem disjoint_places (kind : Kind NodeId) {a b : Detector} (hne : a ≠ b)
    (hissue : a.issue = b.issue) {place : NodeId} (ha : place ∈ a.places kind) :
    place ∉ b.places kind := by
  cases a <;> cases b <;> cases kind <;>
    simp_all [issue, places, controlledBlocks, arrowBlock]

/-- **A detector reports its places, each at most once, and on its own issue.** -/
theorem check_reportsOn {id : NodeId} {node : Node} (hnode : ctx.tree.nodes[id]? = some node)
    {detector : Detector} {found : List Detection} (hcheck : detector.check ctx id = .ok found) :
    ReportsOn (detector.places node.kind) detector.issue found := by
  cases detector with
  | indexing =>
      obtain ⟨_ | d, hd, hfound⟩ := bind_eq_ok.1 hcheck
      all_goals obtain rfl := Except.ok.inj hfound
      · exact reportsOn_nil _ _
      · obtain ⟨hissue, object, name, hkind, -⟩ := checkIndexing_found hd
        rw [places, Except.ok.inj ((Context.kind_eq_ok hnode).symm.trans hkind)]
        exact reportsOn_singleton hissue
  | grouping =>
      rw [check, Context.kind_eq_ok hnode, ok_bind] at hcheck
      obtain ⟨rs, hrs, hfound⟩ := bind_eq_ok.1 hcheck
      obtain rfl := Except.ok.inj hfound
      exact reportsOn_mapM checkGrouping_names hrs
  | braces =>
      rw [check, Context.kind_eq_ok hnode, ok_bind] at hcheck
      obtain ⟨rs, hrs, hfound⟩ := bind_eq_ok.1 hcheck
      obtain rfl := Except.ok.inj hfound
      exact reportsOn_mapM (fun block => checkBlock_names block id) hrs
  | arrowBody =>
      obtain ⟨_ | d, hd, hfound⟩ := bind_eq_ok.1 hcheck
      all_goals obtain rfl := Except.ok.inj hfound
      · exact reportsOn_nil _ _
      · obtain ⟨hissue, params, isAsync, -, -, hkind, -⟩ := checkArrowBody_found hd
        rw [places, Except.ok.inj ((Context.kind_eq_ok hnode).symm.trans hkind)]
        exact reportsOn_singleton hissue

/-- What a detector reports at a node; nothing where it breaks down. -/
def reports (ctx : Context) (id : NodeId) (detector : Detector) : List Detection :=
  (detector.check ctx id).toOption.getD []

theorem reports_eq {id : NodeId} {detector : Detector} {found : List Detection}
    (h : detector.check ctx id = .ok found) : detector.reports ctx id = found := by
  rw [reports, h]
  rfl

theorem reports_reportsOn {id : NodeId} {node : Node} (hnode : ctx.tree.nodes[id]? = some node)
    (detector : Detector) :
    ReportsOn (detector.places node.kind) detector.issue (detector.reports ctx id) := by
  cases hcheck : detector.check ctx id with
  | ok found =>
      rw [reports_eq hcheck]
      exact check_reportsOn hnode hcheck
  | error fault =>
      rw [reports, hcheck]
      exact reportsOn_nil _ _

/-- A report at a node is about a part of the node. -/
theorem node_mem_parts {id : NodeId} (hid : id < ctx.tree.size) {detector : Detector}
    {d : Detection} (hd : d ∈ detector.reports ctx id) : d.node ∈ ctx.tree.parts id := by
  obtain ⟨node, hnode⟩ := Tree.exists_node hid
  rw [Tree.parts_eq hnode]
  have hplace := (reports_reportsOn hnode detector).nodes.subset (List.mem_map_of_mem hd)
  exact (detector.places_subperm node.kind).subset hplace

end Detector

/-! ### Distinct reports -/

/-- Reports that are not about one node and one issue. -/
def Detection.Distinct (a b : Detection) : Prop := ¬ (a.node = b.node ∧ a.issue = b.issue)

theorem Detection.Distinct.symm {a b : Detection} (h : a.Distinct b) : b.Distinct a := by
  intro hsame
  exact h ⟨hsame.1.symm, hsame.2.symm⟩

theorem ReportsOn.pairwise {places : List NodeId} {issue : Issue} {found : List Detection}
    (h : ReportsOn places issue found) (hplaces : places.Nodup) :
    found.Pairwise Detection.Distinct := by
  have hnodes : (found.map Detection.node).Nodup := hplaces.sublist h.nodes
  exact (List.pairwise_map.1 hnodes).imp fun hne hsame => hne hsame.1

/-- No two reports at one node are about one part and one issue. -/
theorem pairwise_distinct_at (h : ctx.tree.Listed) {id : NodeId} (hid : id < ctx.tree.size)
    {detectors : List Detector} (hdetectors : detectors.Nodup) :
    (detectors.flatMap (Detector.reports ctx id)).Pairwise Detection.Distinct := by
  obtain ⟨node, hnode⟩ := Tree.exists_node hid
  have hparts : node.kind.children.Nodup := by
    have hnodup := h.nodup_parts id
    rwa [Tree.parts_eq hnode] at hnodup
  have hon := Detector.reports_reportsOn hnode
  refine List.pairwise_flatMap.2 ⟨fun detector _ => ?_, hdetectors.imp fun {a b} hne => ?_⟩
  · obtain ⟨places, hperm, hsub⟩ := detector.places_subperm node.kind
    exact (hon detector).pairwise (hperm.nodup_iff.1 (hparts.sublist hsub))
  · rintro d hd e he ⟨hsame, hissue⟩
    have hplace := (hon a).nodes.subset (List.mem_map_of_mem hd)
    have hplace' := (hon b).nodes.subset (List.mem_map_of_mem he)
    rw [(hon a).issues d hd, (hon b).issues e he] at hissue
    rw [hsame] at hplace
    exact Detector.disjoint_places node.kind hne hissue hplace hplace'

/-- **No two reports are about one node and one issue.** -/
theorem pairwise_distinct_reports (h : ctx.tree.Listed) {detectors : List Detector}
    (hdetectors : detectors.Nodup) :
    ((List.range ctx.tree.size).flatMap fun id =>
      detectors.flatMap (Detector.reports ctx id)).Pairwise Detection.Distinct := by
  refine List.pairwise_flatMap.2 ⟨fun id hid => ?_, ?_⟩
  · exact pairwise_distinct_at h (List.mem_range.1 hid) hdetectors
  · refine List.nodup_range.imp_of_mem fun {a b} ha hb hne d hd e he hsame => hne ?_
    obtain ⟨_, -, hd⟩ := List.mem_flatMap.1 hd
    obtain ⟨_, -, he⟩ := List.mem_flatMap.1 he
    -- a node that two nodes list would make them one
    have hpart := Detector.node_mem_parts (List.mem_range.1 ha) hd
    have hpart' := Detector.node_mem_parts (List.mem_range.1 hb) he
    rw [← hsame.1] at hpart'
    exact h.eq_of_mem_parts hpart hpart'

theorem dropRepeatsAfter_eq_self {kept : Detection} {found : List Detection}
    (h : (kept :: found).Pairwise Detection.Distinct) : dropRepeatsAfter kept found = found := by
  induction found generalizing kept with
  | nil => rfl
  | cons d found ih =>
      obtain ⟨hkept, hrest⟩ := List.pairwise_cons.1 h
      have hfirst : d.repeats kept = false := by
        have hne := hkept d (List.mem_cons_self ..)
        rw [Detection.Distinct, not_and] at hne
        rw [Detection.repeats, Bool.and_eq_false_iff, beq_eq_false_iff_ne, beq_eq_false_iff_ne]
        by_cases hnode : d.node = kept.node
        · exact .inr fun hissue => hne hnode.symm hissue.symm
        · exact .inl hnode
      rw [dropRepeatsAfter, hfirst, if_neg Bool.false_ne_true, ih hrest]

/-- Where no two reports are about one node and one issue, nothing is dropped. -/
theorem dropRepeats_eq_self {found : List Detection} (h : found.Pairwise Detection.Distinct) :
    dropRepeats found = found := by
  cases found with
  | nil => rfl
  | cons d found => rw [dropRepeats, dropRepeatsAfter_eq_self h]

/-- The reports in the order of their places. -/
theorem pairwise_notAfter_mergeSort (found : List Detection) :
    (found.mergeSort Detection.notAfter).Pairwise fun a b => a.notAfter b = true :=
  Span.pairwise_mergeSort Detection.span found

/-! ### The walk -/

/-- The reports at some nodes are those of each detector at each node. -/
theorem reportsAt_eq_ok {detectors : List Detector} {ids : List NodeId}
    (h : ∀ id ∈ ids, ∀ detector ∈ detectors, ∃ found, detector.check ctx id = .ok found) :
    reportsAt ctx detectors ids =
      .ok (ids.flatMap fun id => detectors.flatMap (Detector.reports ctx id)) := by
  have hnode : ∀ id ∈ ids, detectors.mapM (Detector.check ctx id) =
      .ok (detectors.map (Detector.reports ctx id)) := by
    intro id hid
    refine mapM_eq_ok_map fun detector hdetector => ?_
    obtain ⟨found, hfound⟩ := h id hid detector hdetector
    rw [hfound, Detector.reports_eq hfound]
  rw [reportsAt, mapM_eq_ok_map hnode, ok_bind]
  simp only [List.flatMap, List.flatten_flatten, List.map_map]
  rfl

/-- The walk has a result if every detector has one at every node; it holds what the detectors
report, in the order of places. -/
theorem walk_eq_ok (h : ctx.tree.Listed) {detectors : List Detector} (hdetectors : detectors.Nodup)
    (hchecks : ∀ id < ctx.tree.size, ∀ detector ∈ detectors,
      ∃ found, detector.check ctx id = .ok found) :
    ∃ found, walk ctx detectors = .ok found ∧
      found.Perm ((List.range ctx.tree.size).flatMap fun id =>
        detectors.flatMap (Detector.reports ctx id)) ∧
      found.Pairwise (fun a b => a.notAfter b = true) ∧ found.Pairwise Detection.Distinct := by
  have hids : ∀ id ∈ ctx.tree.preorder ctx.tree.size Tree.root, id < ctx.tree.size :=
    fun id hid => h.ranked.lt_size_of_mem_preorder h.root hid
  have hperm := h.perm_range.flatMap_right fun id => detectors.flatMap (Detector.reports ctx id)
  have hsort := (List.mergeSort_perm ((ctx.tree.preorder ctx.tree.size Tree.root).flatMap fun id =>
    detectors.flatMap (Detector.reports ctx id)) Detection.notAfter).trans hperm
  have hdistinct := (pairwise_distinct_reports h hdetectors).perm hsort.symm fun hab => hab.symm
  refine ⟨_, ?_, hsort, pairwise_notAfter_mergeSort _, hdistinct⟩
  rw [walk, h.ranked.descendants_eq_ok h.root, ok_bind,
    reportsAt_eq_ok fun id hid => hchecks id (hids id hid), ok_bind, dropRepeats_eq_self hdistinct]
  rfl

/-- If the walk has a result, every detector has one at every node. -/
theorem exists_check_of_walk (h : ctx.tree.Listed) {detectors : List Detector}
    {found : List Detection} (hwalk : walk ctx detectors = .ok found) {id : NodeId}
    (hid : id < ctx.tree.size) {detector : Detector} (hdetector : detector ∈ detectors) :
    ∃ found, detector.check ctx id = .ok found := by
  rw [walk, h.ranked.descendants_eq_ok h.root, ok_bind, reportsAt] at hwalk
  obtain ⟨all, hall, -⟩ := bind_eq_ok.1 hwalk
  obtain ⟨perNode, hperNode, -⟩ := bind_eq_ok.1 hall
  obtain ⟨lists, hlists⟩ :=
    exists_of_mapM hperNode (h.perm_range.mem_iff.2 (List.mem_range.2 hid))
  exact exists_of_mapM hlists hdetector

/-- Going through rows and then columns gives what going through columns and then rows gives. -/
theorem flatMap_flatMap_perm {α β γ : Type} (xs : List α) (ys : List β) (f : α → β → List γ) :
    (xs.flatMap fun x => ys.flatMap (f x)).Perm
      (ys.flatMap fun y => xs.flatMap fun x => f x y) := by
  induction ys with
  | nil => simp
  | cons y ys ih =>
      have hsplit := List.flatMap_append_perm xs (fun x => f x y) fun x => ys.flatMap (f x)
      simp only [List.flatMap_cons]
      exact hsplit.symm.trans (ih.append_left _)

/-- **The walk returns every report once, in the order of places.**  If every node but the program
is listed once, by its parent, then a walk with some detectors, none named twice, has a result
exactly if each of them has one at every node.  The result is what they report at the nodes, with
nothing lost and nothing repeated: it is in the order of places, and no two reports in it are about
one node and one issue.  So it is the union of what the detectors find alone, in whatever order they
are named. -/
theorem walk_returns_every_report (h : ctx.tree.Listed) {detectors : List Detector}
    (hdetectors : detectors.Nodup) :
    ((∃ found, walk ctx detectors = .ok found) ↔ ∀ id < ctx.tree.size, ∀ detector ∈ detectors,
      ∃ found, detector.check ctx id = .ok found) ∧
    ∀ found, walk ctx detectors = .ok found →
      found.Perm ((List.range ctx.tree.size).flatMap fun id =>
        detectors.flatMap (Detector.reports ctx id)) ∧
      found.Pairwise (fun a b => a.notAfter b = true) ∧
      found.Pairwise (fun a b => ¬ (a.node = b.node ∧ a.issue = b.issue)) ∧
      (∃ alone : Detector → List Detection,
        (∀ detector ∈ detectors, walk ctx [detector] = .ok (alone detector)) ∧
          found.Perm (detectors.flatMap alone)) ∧
      ∀ others : List Detector, others.Perm detectors →
        ∃ found', walk ctx others = .ok found' ∧ found'.Perm found := by
  refine ⟨⟨?_, ?_⟩, ?_⟩
  · rintro ⟨found, hwalk⟩ id hid detector hdetector
    exact exists_check_of_walk h hwalk hid hdetector
  · intro hchecks
    obtain ⟨found, hwalk, -⟩ := walk_eq_ok h hdetectors hchecks
    exact ⟨found, hwalk⟩
  · intro found hwalk
    have hchecks : ∀ id < ctx.tree.size, ∀ detector ∈ detectors,
        ∃ found, detector.check ctx id = .ok found :=
      fun id hid detector hdetector => exists_check_of_walk h hwalk hid hdetector
    obtain ⟨found', hwalk', hperm, hsorted, hdistinct⟩ := walk_eq_ok h hdetectors hchecks
    obtain rfl := Except.ok.inj (hwalk.symm.trans hwalk')
    refine ⟨hperm, hsorted, hdistinct, ?_, ?_⟩
    · have halone : ∀ detector ∈ detectors, ∃ one, walk ctx [detector] = .ok one ∧
          one.Perm ((List.range ctx.tree.size).flatMap fun id => detector.reports ctx id) := by
        intro detector hdetector
        obtain ⟨one, hone, hperm, -⟩ := walk_eq_ok h (List.nodup_singleton detector)
          fun id hid other hother =>
            hchecks id hid other (List.mem_singleton.1 hother ▸ hdetector)
        exact ⟨one, hone, by simpa using hperm⟩
      refine ⟨fun detector => (walk ctx [detector]).toOption.getD [], fun detector hdetector => ?_,
        hperm.trans ((flatMap_flatMap_perm _ _ _).trans
          (List.Perm.flatMap_left _ fun detector hdetector => ?_))⟩
      · obtain ⟨one, hone, -⟩ := halone detector hdetector
        simp only [hone]
        rfl
      · obtain ⟨one, hone, hperm⟩ := halone detector hdetector
        simp only [hone]
        exact hperm.symm
    · intro others hothers
      obtain ⟨found', hfound', hperm', -⟩ := walk_eq_ok h (hothers.nodup_iff.2 hdetectors)
        fun id hid detector hdetector => hchecks id hid detector (hothers.subset hdetector)
      have hsame : ((List.range ctx.tree.size).flatMap fun id =>
          others.flatMap (Detector.reports ctx id)).Perm
          ((List.range ctx.tree.size).flatMap fun id =>
            detectors.flatMap (Detector.reports ctx id)) :=
        List.Perm.flatMap_left _ fun id _ => hothers.flatMap_right _
      exact ⟨found', hfound', hperm'.trans (hsame.trans hperm.symm)⟩

/-! ### A branch with parentheses -/

/-- The program `if(x){(a)}`. -/
def groupedBranch : Context where
  tree := ⟨#[
    ⟨.program [1], .upTo 0 10, none⟩,
    ⟨.ifStatement 2 3 none, .upTo 0 10, some 0⟩,
    ⟨.identifier "x", .upTo 3 4, some 1⟩,
    ⟨.block [4], .upTo 5 10, some 1⟩,
    ⟨.expressionStatement 5, .upTo 6 9, some 3⟩,
    ⟨.identifier "a", .upTo 7 8, some 4⟩]⟩
  source := ⟨"if(x)\x7b(a)\x7d", #[
    ⟨.word, "if", .upTo 0 2⟩, ⟨.punctuator, "(", .upTo 2 3⟩, ⟨.word, "x", .upTo 3 4⟩,
    ⟨.punctuator, ")", .upTo 4 5⟩, ⟨.punctuator, "\x7b", .upTo 5 6⟩,
    ⟨.punctuator, "(", .upTo 6 7⟩, ⟨.word, "a", .upTo 7 8⟩, ⟨.punctuator, ")", .upTo 8 9⟩,
    ⟨.punctuator, "\x7d", .upTo 9 10⟩], #[]⟩

set_option maxRecDepth 20000 in
theorem wellFormed_groupedBranch : groupedBranch.WellFormed := by decide

set_option maxRecDepth 20000 in
theorem walk_groupedBranch : walk groupedBranch [.grouping, .braces] =
    .ok [⟨3, .braces, .upTo 5 10, some (.single ⟨.upTo 5 10, "(a)"⟩)⟩,
      ⟨5, .parens, .upTo 6 9, some ⟨⟨.upTo 6 7, ""⟩, [⟨.upTo 8 9, ""⟩]⟩⟩] := by
  cbv

/-- The block and the name in it are both reported, the block first, whichever detector is named
first. -/
theorem walk_returns_every_report_grouped : groupedBranch.tree.Listed ∧
    [Detector.grouping, .braces].Nodup ∧ ∃ found found',
      walk groupedBranch [.grouping, .braces] = .ok found ∧
      found.map (fun d => (d.node, d.issue)) = [(3, .braces), (5, .parens)] ∧
      found.Perm ((List.range groupedBranch.tree.size).flatMap fun id =>
        [Detector.grouping, .braces].flatMap (Detector.reports groupedBranch id)) ∧
      walk groupedBranch [.braces, .grouping] = .ok found' ∧ found'.Perm found := by
  have hlisted := wellFormed_groupedBranch.treeListed
  have hnodup : [Detector.grouping, .braces].Nodup := by decide
  obtain ⟨-, hall⟩ := walk_returns_every_report hlisted hnodup
  obtain ⟨hperm, -, -, -, hothers⟩ := hall _ walk_groupedBranch
  obtain ⟨found', hfound', hperm'⟩ := hothers [.braces, .grouping] (.swap ..)
  exact ⟨hlisted, hnodup, _, found', walk_groupedBranch, rfl, hperm, hfound', hperm'⟩

end Pare
