import Pare.Proofs.Relaid
import Pare.Proofs.Reports

/-!
**Reports do not depend on layout.**

Whether something is redundant is decided by the tree and by the sequence of code tokens.  Line
breaks and comments are looked at too, but only to choose a patch.  So two layouts of one program
get the same reports, in the same order: the order is by places in the text, and these move, but
each report spans a stretch of tokens.

Main definitions:

* `Pare.Context.Matches` — reports on one node and one issue that span one stretch.

Main results:

* `Pare.checkGrouping_alike`, `Pare.checkBlock_alike`, `Pare.checkArrowBody_alike`,
  `Pare.checkIndexing_alike` — each detector reports alike in both contexts;
* `Pare.forall₂_mergeSort`, `Pare.forall₂_dropRepeats` — sorting and dropping keep reports matched;
* `Pare.Rule.run_relaid` — **two layouts of one program get the same reports in the same order**.
-/

set_option relaxedAutoImplicit false
set_option autoImplicit false

namespace Pare

variable {a b : Context}

/-- Reports on one node and one issue that span one stretch. -/
structure Context.Matches (a b : Context) (d e : Detection) : Prop where
  node : d.node = e.node
  issue : d.issue = e.issue
  span : a.Stretch b d.span e.span

/-- Whatever patches are found, the reports match. -/
theorem Context.Stretch.alike_report {s s' : Span} (hs : a.Stretch b s s') (id : NodeId)
    (issue : Issue) {x y : Except Fault (Option Patch)} {P Q : Option Patch → Prop}
    (hx : Succeeds x P) (hy : Succeeds y Q) :
    Alike (Option.Rel (a.Matches b)) (x >>= fun patch => pure (some ⟨id, issue, s, patch⟩))
      (y >>= fun patch => pure (some ⟨id, issue, s', patch⟩)) :=
  (hx.alike hy).bind fun _ _ _ => alike_pure (.some ⟨rfl, rfl, hs⟩)

/-! ### Conditions on parentheses -/

section Conditions

variable (h : a.Relaid b)
include h

theorem isStringStatement_eq (id : NodeId) : isStringStatement a id = isStringStatement b id := by
  simp only [isStringStatement, h.kind_eq]

theorem leadsWithStrings_eq (stmt : NodeId) (body : List NodeId) :
    leadsWithStrings a stmt body = leadsWithStrings b stmt body := by
  induction body with
  | nil => rfl
  | cons candidate body ih => simp only [leadsWithStrings, isStringStatement_eq h, ih]

theorem enclosingBody_eq (stmt : NodeId) :
    a.tree.enclosingBody stmt = b.tree.enclosingBody stmt := by
  simp only [Tree.enclosingBody, h.tree_kind_eq, h.tree_parent_eq]

theorem isPrimaryPlace_eq (id parent : NodeId) :
    isPrimaryPlace a id parent = isPrimaryPlace b id parent := by
  simp only [isPrimaryPlace, statementNeedsGrouping, inPrologue, h.kind_eq, enclosingBody_eq h,
    leadsWithStrings_eq h]

theorem isSuspendPlace_eq (id parent : NodeId) :
    isSuspendPlace a id parent = isSuspendPlace b id parent := by
  simp only [isSuspendPlace, h.kind_eq]

theorem isReturnedJsx_eq (id parent : NodeId) :
    isReturnedJsx a id parent = isReturnedJsx b id parent := by
  simp only [isReturnedJsx, h.kind_eq]

/-- The first token of the body decides, and it is the same sign in both contexts. -/
theorem isPlainArrowBody_eq {id : NodeId} {m n : Node} (hm : a.tree.nodes[id]? = some m)
    (hn : b.tree.nodes[id]? = some n) (hroot : id ≠ Tree.root) (parent : NodeId) :
    isPlainArrowBody a id parent = isPlainArrowBody b id parent := by
  obtain ⟨first, first', hfirst, hfirst', hrel⟩ := h.firstToken hm hn hroot
  have hsign : first.any (fun t => t.isSign "\x7b") = first'.any fun t => t.isSign "\x7b" := by
    cases hrel with
    | none => rfl
    | some htwin => exact htwin.isSign_eq h _
  simp only [isPlainArrowBody, h.kind_eq, hfirst, hfirst', ok_bind, hsign]

/-- The next parentheses outside are those of the parent in both contexts or in neither. -/
theorem isDoubleGrouped_eq {parent : NodeId} {m n : Node} (hm : a.tree.nodes[parent]? = some m)
    (hn : b.tree.nodes[parent]? = some n) {left left' right right' : Token}
    (hleft : a.Twin b left left') (hright : a.Twin b right right') :
    isDoubleGrouped a parent left right = isDoubleGrouped b parent left' right' := by
  -- a neighbour has the span of an outer parenthesis if its twin has that of the outer twin
  have hspans : ∀ {x y : Option Token} {t u : Token}, Option.Rel (a.Twin b) x y → a.Twin b t u →
      (x.map Token.span == some t.span) = (y.map Token.span == some u.span) := by
    intro x y t u hxy htu
    cases hxy with
    | none => rfl
    | some htwin =>
        rw [Bool.eq_iff_iff]
        simpa using htwin.span_eq_iff h htu
  rw [isDoubleGrouped, isDoubleGrouped, Context.grouping_eq_ok hm, Context.grouping_eq_ok hn,
    ok_bind, ok_bind]
  rcases rel_cases (h.groupingAt hm hn) with ⟨hx, hy⟩ | ⟨outer, outer', hx, hy, hopen, hclose⟩
  · rw [hx, hy]
  · rw [hx, hy]
    dsimp only
    rw [hspans (hleft.stretch.tokenBefore h) hopen, hspans (hright.stretch.tokenAfter h) hclose]

theorem isRedundantGrouping_eq {id parent : NodeId} {m n whole whole' : Node}
    (hm : a.tree.nodes[id]? = some m) (hn : b.tree.nodes[id]? = some n) (hroot : id ≠ Tree.root)
    (hwhole : a.tree.nodes[parent]? = some whole) (hwhole' : b.tree.nodes[parent]? = some whole')
    {left left' right right' : Token} (hleft : a.Twin b left left')
    (hright : a.Twin b right right') :
    isRedundantGrouping a id parent left right = isRedundantGrouping b id parent left' right' := by
  simp only [isRedundantGrouping, isDoubleGrouped_eq h hwhole hwhole' hleft hright,
    isPrimaryPlace_eq h, isSuspendPlace_eq h, isPlainArrowBody_eq h hm hn hroot, isReturnedJsx_eq h]

theorem endsOpenIn_eq (depth : Nat) (stmt : NodeId) :
    endsOpenIn a depth stmt = endsOpenIn b depth stmt := by
  induction depth generalizing stmt with
  | zero => rfl
  | succ depth ih => simp only [endsOpenIn, h.kind_eq, ih]

theorem endsOpen_eq (stmt : NodeId) : endsOpen a stmt = endsOpen b stmt := by
  rw [endsOpen, endsOpen, h.size_eq, endsOpenIn_eq h]

end Conditions

/-! ### Detectors -/

section Detectors

variable (h : a.Relaid b)
include h

/-- Parentheses are reported in both contexts or in neither. -/
theorem checkGrouping_alike {id : NodeId} {m n : Node} (hm : a.tree.nodes[id]? = some m)
    (hn : b.tree.nodes[id]? = some n) (hroot : id ≠ Tree.root) (hparent : m.parent = n.parent) :
    Alike (Option.Rel (a.Matches b)) (checkGrouping a id) (checkGrouping b id) := by
  rw [checkGrouping, checkGrouping, Context.grouping_eq_ok hm, Context.grouping_eq_ok hn, ok_bind,
    ok_bind]
  rcases rel_cases (h.groupingAt hm hn) with ⟨hx, hy⟩ | ⟨⟨left, right⟩, ⟨left', right'⟩, hx, hy,
    hleft, hright⟩
  · rw [hx, hy]
    exact alike_pure .none
  simp only [hx, hy, Context.parent_eq_ok hm, Context.parent_eq_ok hn, ok_bind, hparent]
  rcases hup : n.parent with _ | parent
  · exact alike_pure .none
  obtain ⟨whole, hwhole⟩ := h.left.shaped.exists_parent hm (hparent.trans hup)
  obtain ⟨whole', hwhole'⟩ := h.right.shaped.exists_parent hn hup
  obtain ⟨redundant, hredundant⟩ := exists_isRedundantGrouping h.left.shaped hm hwhole left right
  have hredundant' := hredundant
  rw [isRedundantGrouping_eq h hm hn hroot hwhole hwhole' hleft hright] at hredundant'
  simp only [hredundant, hredundant', ok_bind]
  have hgrouped := h.left.shaped.grouped hx
  have hgrouped' := h.right.shaped.grouped hy
  cases redundant with
  | false => exact alike_pure .none
  | true =>
      simp only [Bool.not_true, Bool.false_eq_true, if_false,
        Span.ofBounds_of_le hgrouped.left_le_right, Span.ofBounds_of_le hgrouped'.left_le_right,
        ok_bind]
      obtain ⟨found, found', hfound, hfound', ⟨d, rfl, hnode, hissue, hspan, -⟩,
        ⟨e, rfl, hnode', hissue', hspan', -⟩⟩ :=
        (groupingReport_succeeds h.left.shaped hm hroot hwhole hx _).alike
          (groupingReport_succeeds h.right.shaped hn hroot hwhole' hy _)
      refine ⟨_, _, hfound, hfound', .some ⟨hnode.trans hnode'.symm, hissue.trans hissue'.symm, ?_⟩⟩
      rw [hspan, hspan']
      exact ⟨left, left', right, right', hleft, hright, rfl, rfl, rfl, rfl⟩

/-- Blocks are reported in both contexts or in neither. -/
theorem checkBlock_alike {block controlling : NodeId} {whole : Node}
    (hwhole : a.tree.nodes[controlling]? = some whole)
    (hblock : block ∈ controlledBlocks whole.kind) :
    Alike (Option.Rel (a.Matches b)) (checkBlock a block controlling)
      (checkBlock b block controlling) := by
  obtain ⟨whole', hwhole', hkindWhole, -⟩ := h.exists_node hwhole
  obtain ⟨m, hm, hroot⟩ :=
    h.left.shaped.exists_part hwhole (mem_children_of_mem_controlledBlocks hblock)
  obtain ⟨n, hn, hkind, -⟩ := h.exists_node hm
  have hstretch := h.stretch hm hn hroot
  rw [checkBlock, checkBlock, ← h.kind_eq, Context.kind_eq_ok hm, ok_bind, ok_bind]
  split
  · rename_i stmt hstmtKind
    obtain ⟨stmtNode, hstmt, -⟩ := h.left.shaped.exists_part hm (show stmt ∈ m.kind.children by
      simp [hstmtKind, Kind.children])
    simp only [← h.kind_eq, ← endsOpen_eq h, Context.kind_eq_ok hstmt, Context.span_eq_ok hm,
      Context.span_eq_ok hn, Context.kind_eq_ok hwhole, ok_bind]
    -- the conditions are about kinds only, which both contexts share
    have hreport := hstretch.alike_report block .braces
      (unwrapPatch_repairs h.left.shaped hm hroot hstmtKind
        ⟨_, _, Context.kind_eq_ok hwhole, hblock⟩)
      (unwrapPatch_repairs h.right.shaped hn hroot (hkind.symm.trans hstmtKind)
        ⟨_, _, Context.kind_eq_ok hwhole', hkindWhole ▸ hblock⟩)
    split
    · exact alike_pure .none
    split
    · exact alike_pure .none
    split
    · split
      · split
        · split
          · exact alike_pure .none
          · obtain ⟨isOpen, hopen⟩ := exists_endsOpen h.left.shaped hstmt
            rw [hopen, ok_bind, ok_bind]
            split
            · exact alike_pure (.some ⟨rfl, rfl, hstretch⟩)
            · exact hreport
        · exact hreport
      · exact hreport
    · exact hreport
  · exact alike_pure .none

/-- Arrow functions are reported in both contexts or in neither. -/
theorem checkArrowBody_alike {arrow : NodeId} {m : Node} (hm : a.tree.nodes[arrow]? = some m) :
    Alike (Option.Rel (a.Matches b)) (checkArrowBody a arrow) (checkArrowBody b arrow) := by
  rw [checkArrowBody, checkArrowBody]
  simp only [← h.kind_eq, Context.kind_eq_ok hm, ok_bind]
  split
  · rename_i params body isAsync hkind
    obtain ⟨block, hblock, hroot⟩ := h.left.shaped.exists_part hm (show body ∈ m.kind.children by
      simp [hkind, Kind.children])
    obtain ⟨block', hblock', hblockSame, -⟩ := h.exists_node hblock
    rw [Context.kind_eq_ok hblock, ok_bind, ok_bind]
    split
    · rename_i stmt hblockKind
      obtain ⟨ret, hret, -⟩ := h.left.shaped.exists_part hblock (show stmt ∈ block.kind.children by
        simp [hblockKind, Kind.children])
      obtain ⟨ret', hret', hretSame, -⟩ := h.exists_node hret
      rw [Context.kind_eq_ok hret, ok_bind, ok_bind]
      split
      · rename_i argument hretKind
        obtain ⟨value, hvalue, hargument⟩ :=
          h.left.shaped.exists_part hret (show argument ∈ ret.kind.children by
            simp [hretKind, Kind.children])
        obtain ⟨value', hvalue', -⟩ := h.exists_node hvalue
        have harrow : a.kind arrow = .ok (.arrow params body false isAsync) := by
          rw [Context.kind_eq_ok hm, hkind]
        rw [Context.span_eq_ok hblock, Context.span_eq_ok hblock', ok_bind, ok_bind]
        exact (h.stretch hblock hblock' hroot).alike_report body .braces
          (bodyPatch_repairs h.left.shaped harrow hblock hroot hblockKind hret hretKind hvalue
            hargument)
          (bodyPatch_repairs h.right.shaped ((h.kind_eq arrow).symm.trans harrow) hblock' hroot
            (hblockSame.symm.trans hblockKind) hret' (hretSame.symm.trans hretKind) hvalue'
            hargument)
      · exact alike_pure .none
    · exact alike_pure .none
  · exact alike_pure .none

/-- Accesses are reported in both contexts or in neither. -/
theorem checkIndexing_alike {id : NodeId} {m : Node} (hm : a.tree.nodes[id]? = some m) :
    Alike (Option.Rel (a.Matches b)) (checkIndexing a id) (checkIndexing b id) := by
  rw [checkIndexing, checkIndexing]
  simp only [← h.kind_eq, Context.kind_eq_ok hm, ok_bind]
  split
  · rename_i object key hkind
    obtain ⟨objectNode, hobject, -⟩ :=
      h.left.shaped.exists_part hm (show object ∈ m.kind.children by simp [hkind, Kind.children])
    obtain ⟨keyNode, hkey, hroot⟩ := h.left.shaped.exists_part hm (show key ∈ m.kind.children by
      simp [hkind, Kind.children])
    obtain ⟨objectNode', hobject', -⟩ := h.exists_node hobject
    obtain ⟨keyNode', hkey', -⟩ := h.exists_node hkey
    rw [Context.kind_eq_ok hkey, ok_bind, ok_bind]
    split
    · rename_i name _
      split
      · exact alike_pure .none
      · rw [Context.span_eq_ok hkey, Context.span_eq_ok hkey', ok_bind, ok_bind]
        exact (h.stretch hkey hkey' hroot).alike_report key .brackets
          (dotPatch_dots h.left.shaped hobject hkey name)
          (dotPatch_dots h.right.shaped hobject' hkey' name)
    · exact alike_pure .none
  · exact alike_pure .none

/-- Each detector reports alike in both contexts. -/
theorem Detector.check_alike {id : NodeId} {m : Node} (hm : a.tree.nodes[id]? = some m)
    (detector : Detector) :
    Alike (List.Forall₂ (a.Matches b)) (detector.check a id) (detector.check b id) := by
  have hlist : ∀ {x y : Option Detection}, Option.Rel (a.Matches b) x y →
      List.Forall₂ (a.Matches b) x.toList y.toList := by
    intro x y hxy
    cases hxy with
    | none => exact .nil
    | some hmatch => exact .cons hmatch .nil
  cases detector with
  | indexing => exact (checkIndexing_alike h hm).bind fun x y hxy => alike_pure (hlist hxy)
  | grouping =>
      rw [check, check, ← h.kind_eq, Context.kind_eq_ok hm, ok_bind, ok_bind]
      refine (alike_mapM fun place hplace => ?_).bind fun xs ys hxys =>
        alike_pure (List.rel_filterMap (fun _ _ hxy => hxy) hxys)
      obtain ⟨part, hpart, hroot⟩ :=
        h.left.shaped.exists_part hm (mem_children_of_mem_groupingPlaces hplace)
      obtain ⟨part', hpart', -, hparent⟩ := h.exists_node hpart
      exact checkGrouping_alike h hpart hpart' hroot hparent
  | braces =>
      rw [check, check, ← h.kind_eq, Context.kind_eq_ok hm, ok_bind, ok_bind]
      exact (alike_mapM fun block hblock => checkBlock_alike h hm hblock).bind fun xs ys hxys =>
        alike_pure (List.rel_filterMap (fun _ _ hxy => hxy) hxys)
  | arrowBody => exact (checkArrowBody_alike h hm).bind fun x y hxy => alike_pure (hlist hxy)

/-- The reports at nodes of the tree match. -/
theorem reportsAt_alike (detectors : List Detector) {ids : List NodeId}
    (hids : ∀ id ∈ ids, id < a.tree.size) :
    Alike (List.Forall₂ (a.Matches b)) (reportsAt a detectors ids) (reportsAt b detectors ids) := by
  have hnode : ∀ id ∈ ids, Alike (List.Forall₂ (List.Forall₂ (a.Matches b)))
      (detectors.mapM (Detector.check a id)) (detectors.mapM (Detector.check b id)) := by
    intro id hid
    obtain ⟨m, hm⟩ := Tree.exists_node (hids id hid)
    exact alike_mapM fun detector _ => detector.check_alike h hm
  exact (alike_mapM hnode).bind fun xs ys hxys =>
    alike_pure (List.rel_flatten (List.rel_flatten hxys))

end Detectors

/-! ### Order and repetitions -/

/-- Matched reports are sorted in the same way. -/
theorem forall₂_mergeSort (h : a.Relaid b) {ds es : List Detection}
    (hde : List.Forall₂ (a.Matches b) ds es) :
    List.Forall₂ (a.Matches b) (ds.mergeSort Detection.notAfter)
      (es.mergeSort Detection.notAfter) := by
  obtain ⟨hlen, hzip⟩ := List.forall₂_iff_zip.1 hde
  -- both lists are sorted as one list of pairs is, by its first or by its second members
  have hfst : (ds.zip es).map Prod.fst = ds := List.map_fst_zip (Nat.le_of_eq hlen)
  have hsnd : (ds.zip es).map Prod.snd = es := List.map_snd_zip (Nat.le_of_eq hlen.symm)
  have hleft := List.map_mergeSort (r := fun p q : Detection × Detection => p.1.notAfter q.1)
    (s := Detection.notAfter) (f := Prod.fst) (l := ds.zip es) fun _ _ _ _ => rfl
  have hright := List.map_mergeSort (r := fun p q : Detection × Detection => p.1.notAfter q.1)
    (s := Detection.notAfter) (f := Prod.snd) (l := ds.zip es) fun p hp q hq =>
      (hzip hp).span.notAfter_eq h (hzip hq).span
  rw [hfst] at hleft
  rw [hsnd] at hright
  rw [← hleft, ← hright, List.forall₂_map_left_iff, List.forall₂_map_right_iff, List.forall₂_same]
  exact fun p hp => hzip (List.mem_mergeSort.1 hp)

theorem forall₂_dropRepeatsAfter {d e : Detection} {ds es : List Detection}
    (hkept : a.Matches b d e) (hde : List.Forall₂ (a.Matches b) ds es) :
    List.Forall₂ (a.Matches b) (dropRepeatsAfter d ds) (dropRepeatsAfter e es) := by
  induction hde generalizing d e with
  | nil => exact .nil
  | cons hmatch _ ih =>
      rw [dropRepeatsAfter, dropRepeatsAfter, Detection.repeats, Detection.repeats, hmatch.node,
        hmatch.issue, hkept.node, hkept.issue]
      split
      · exact ih hkept
      · exact .cons hmatch (ih hmatch)

/-- What is dropped from matched reports is matched. -/
theorem forall₂_dropRepeats {ds es : List Detection}
    (hde : List.Forall₂ (a.Matches b) ds es) :
    List.Forall₂ (a.Matches b) (dropRepeats ds) (dropRepeats es) := by
  cases hde with
  | nil => exact .nil
  | cons hmatch hrest => exact .cons hmatch (forall₂_dropRepeatsAfter hmatch hrest)

/-! ### The rule -/

theorem Rule.run_alike (h : a.Relaid b) (rule : Rule) :
    Alike (List.Forall₂ (a.Matches b)) (rule.run a) (rule.run b) := by
  unfold Rule.run
  split
  · obtain ⟨root, hroot, -⟩ := h.left.root
    have hin := Tree.lt_size hroot
    rw [walk, walk, ← h.descendants_eq, h.left.shaped.ranked.descendants_eq_ok hin, ok_bind,
      ok_bind]
    refine (reportsAt_alike h Detector.all fun id hid =>
      h.left.shaped.ranked.lt_size_of_mem_preorder hin hid).bind fun ds es hde => ?_
    exact alike_pure (forall₂_dropRepeats (forall₂_mergeSort h hde))
  · exact alike_pure .nil

/-- Reports that match name the same nodes and issues. -/
theorem map_eq_of_matches {ds es : List Detection} (h : List.Forall₂ (a.Matches b) ds es) :
    ds.map (fun d => (d.node, d.issue)) = es.map fun d => (d.node, d.issue) := by
  induction h with
  | nil => rfl
  | cons hde _ ih => rw [List.map_cons, List.map_cons, ih, hde.node, hde.issue]

/-- **Two layouts of one program get the same reports in the same order.**  If two well-formed
contexts have the same nodes and the same code tokens, and every node holds the same tokens in both,
then the rule has a result in both, and the nodes and issues that it reports are the same, one by
one, whatever stands between the tokens. -/
theorem Rule.run_relaid (h : a.Relaid b) (rule : Rule) :
    ∃ ds es, rule.run a = .ok ds ∧ rule.run b = .ok es ∧
      ds.map (fun d => (d.node, d.issue)) = es.map fun d => (d.node, d.issue) := by
  obtain ⟨ds, es, hds, hes, hmatch⟩ := Rule.run_alike h rule
  exact ⟨ds, es, hds, hes, map_eq_of_matches hmatch⟩

/-! ### A branch in two layouts -/

/-- A comment and a line break inside the block change the layout of a branch only. -/
theorem relaid_remarkAhead : (branch "a").Relaid remarkAhead where
  left := wellFormed_branch (.inl rfl)
  right := wellFormed_remarkAhead
  nodes := rfl
  tokens := rfl
  covers := by
    have hall : ∀ (id : Fin 6) (i : Fin 7),
        (((branch "a").tree.nodes.toList.get id).span.contains
          ((branch "a").source.tokens.toList.get i).span = true ↔
        (remarkAhead.tree.nodes.toList.get id).span.contains
          (remarkAhead.source.tokens.toList.get i).span = true) := by
      decide +kernel
    intro id m n _ hm hn i t u ht hu
    obtain ⟨hid, rfl⟩ := Array.getElem?_eq_some_iff.1 hm
    obtain ⟨hid', rfl⟩ := Array.getElem?_eq_some_iff.1 hn
    obtain ⟨hi, rfl⟩ := List.getElem?_eq_some_iff.1 ht
    obtain ⟨hi', rfl⟩ := List.getElem?_eq_some_iff.1 hu
    exact hall ⟨id, hid⟩ ⟨i, hi⟩
  starts := by
    constructor
    · intro m hm
      obtain rfl := Option.some.inj hm
      rfl
    · intro n hn
      obtain rfl := Option.some.inj hn
      rfl

/-- The braces are reported in both layouts. -/
theorem Rule.run_relaid_branch : ∃ ds es, Rule.run {} (branch "a") = .ok ds ∧
    Rule.run {} remarkAhead = .ok es ∧ es.map (fun d => (d.node, d.issue)) = [(3, .braces)] := by
  obtain ⟨ds, es, hds, hes, hsame⟩ := Rule.run_relaid relaid_remarkAhead {}
  obtain rfl := Except.ok.inj (hds.symm.trans Rule.run_branch)
  exact ⟨_, es, hds, hes, hsame.symm⟩

end Pare
