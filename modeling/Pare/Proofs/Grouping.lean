import Pare.Proofs.Conditions
import Pare.Proofs.Repair

/-!
**Grouping parentheses.**

Redundant parentheses are taken away in one of two ways: by two removals, or, after `return`, by two
edits that also narrow the gaps on the inner sides.  Either way the parentheses are the only lexemes
in the edited places: the tokens next to a grouped node are its parentheses, and where gaps are
narrowed, comments in them are looked for first.

Main definitions:

* `Pare.Context.Grouped` — a piece of text with parentheses directly around it;
* `Pare.Patch.Ungroups` — the two ways to take the parentheses around a node away.

Main results:

* `Pare.repairs_parens` — a pair of edits, one for each parenthesis, keeps the contract;
* `Pare.checkGrouping_repairs` — **a report on parentheses has a result, and its patch keeps the
  contract**;
* `Pare.checkGrouping_found` — what the report and its patch are;
* `Pare.checkGrouping_ungroups` — **a report with a patch takes the parentheses around its node
  away**.
-/

set_option relaxedAutoImplicit false
set_option autoImplicit false

namespace Pare

open Text (ink)

variable {ctx : Context}

/-- The places where grouping is looked at are parts. -/
theorem mem_children_of_mem_groupingPlaces {kind : Kind NodeId} {id : NodeId}
    (h : id ∈ groupingPlaces kind) : id ∈ kind.children := by
  cases kind <;> simp only [groupingPlaces, Kind.children, List.not_mem_nil] at h ⊢
  case assignment => split at h <;> simp_all
  case call => simpa [or_comm] using h
  case construct => simpa [or_comm] using h
  case property => split <;> simp_all
  case arrow => split at h <;> simp_all
  all_goals simp_all

/-! ### Patches -/

/-- A pair of edits, one for each parenthesis, keeps the contract if it leaves only blanks. -/
theorem repairs_parens (h : ctx.Shaped) {d : Detection} {e f : Edit} {left right : Token}
    (he : e.Respells ctx.source [left] []) (hf : f.Respells ctx.source [right] [])
    (hle : e.span.stop ≤ f.span.start) (hinkE : ink e.text.toList = 0)
    (hinkF : ink f.text.toList = 0) (hissue : d.issue = .parens)
    (hgrouping : ctx.grouping d.node = .ok (some (left, right))) (hleft : left.isSign "(" = true)
    (hright : right.isSign ")" = true) (hedge : ctx.source.Edge e.span.start)
    (hedge' : ctx.source.Edge f.span.start) : Repairs ctx d ⟨e, [f]⟩ := by
  refine ⟨he.placed_pair hf hle, ?_, fun _ => ?_, fun hlines _ => ?_, by simp [hissue]⟩
  · have hlost := h.source.ink_lexemes_le e.span.start_le_stop he.start he.stop
    have hlost' := h.source.ink_lexemes_le f.span.start_le_stop hf.start hf.stop
    have hone := Token.ink_of_isSign hleft (show ink "(".toList = 1 by decide +kernel)
    have hone' := Token.ink_of_isSign hright (show ink ")".toList = 1 by decide +kernel)
    simp only [he.old, hf.old, List.map_cons, List.map_nil, List.sum_cons, List.sum_nil]
      at hlost hlost'
    simp only [Patch.edits, inkGained, inkLost, List.map_cons, List.map_nil, List.sum_cons,
      List.sum_nil]
    omega
  · obtain ⟨front, inner, back, hall, hlaid⟩ := he.pair h.source hf hle
    have hwords : Respelled ctx d ((front ++ inner ++ back).map Token.value) :=
      .parens hissue hgrouping (by simpa using hall)
    exact ⟨_, hwords, by simpa [Patch.edits] using hlaid⟩
  · have hopen := he.rewords_sign (h.source.settled hlines hedge) (.inl hleft)
    have hclose := hf.rewords_sign (h.source.settled hlines hedge') (.inr hright)
    exact hopen.single.append hclose.single

/-- The tokens directly around a piece of text are parentheses. -/
structure Context.Grouped (ctx : Context) (span : Span) (left right : Token) : Prop where
  before : ctx.source.tokenBefore span = some left
  after : ctx.source.tokenAfter span = some right
  opening : left.isSign "(" = true
  closing : right.isSign ")" = true
  left_mem : left ∈ ctx.source.lexemes
  right_mem : right ∈ ctx.source.lexemes
  left_le : left.span.stop ≤ span.start
  le_right : span.stop ≤ right.span.start

theorem Context.Shaped.grouped (h : ctx.Shaped) {span : Span} {left right : Token}
    (hgrouping : ctx.groupingAt span = some (left, right)) : ctx.Grouped span left right := by
  obtain ⟨hbefore, hafter, hleft, hright⟩ := Context.groupingAt_eq_some hgrouping
  obtain ⟨hmem, hle, -⟩ := Source.tokenBefore_eq_some h.source.tokens hbefore
  obtain ⟨hmem', hle', -⟩ := Source.tokenAfter_eq_some h.source.tokens hafter
  exact ⟨hbefore, hafter, hleft, hright, Source.mem_lexemes_of_token hmem,
    Source.mem_lexemes_of_token hmem', hle, hle'⟩

namespace Context.Grouped

variable {span : Span} {left right : Token}

theorem left_precedes_right (h : ctx.Grouped span left right) : left.Precedes right := by
  have hleft := h.left_le
  have hright := h.le_right
  have hspan := span.start_le_stop
  show left.span.stop ≤ right.span.start
  omega

/-- The parentheses are code tokens. -/
theorem edges (h : ctx.Grouped span left right) (hs : ctx.source.WellFormed) :
    ctx.source.Edge left.span.start ∧ ctx.source.Edge right.span.start :=
  ⟨⟨left, (Source.tokenBefore_eq_some hs.tokens h.before).1, .inl rfl⟩,
    ⟨right, (Source.tokenAfter_eq_some hs.tokens h.after).1, .inl rfl⟩⟩

theorem left_le_right (h : ctx.Grouped span left right) : left.span.start ≤ right.span.stop := by
  have hbetween : left.span.stop ≤ right.span.start := h.left_precedes_right
  have hleft := left.span.start_le_stop
  have hright := right.span.start_le_stop
  omega

/-- The opening parenthesis is the only lexeme between the token before it and the piece, if no
comment is there. -/
theorem lexemesIn_lead (h : ctx.Grouped span left right) (hs : ctx.source.WellFormed)
    {keyword next : Token} (hnext : ctx.source.tokenAfter keyword.span = some next)
    (hspan : next.span = left.span) (hle : keyword.span.stop ≤ span.start)
    (hfree : ctx.source.hasCommentsIn ⟨keyword.span.stop, span.start, hle⟩ = false) :
    ctx.source.lexemesIn keyword.span.stop span.start = [left] := by
  obtain ⟨-, hlate, -⟩ := Source.tokenAfter_eq_some hs.tokens hnext
  rw [hspan] at hlate
  have hleft := h.left_le
  have hl := left.span.start_le_stop
  have hstart : left.span.start ≤ span.start := by omega
  have hstop : keyword.span.stop ≤ left.span.stop := by omega
  have hgap := hs.lexemesIn_after hnext hfree (Nat.le_refl _) (by rw [hspan]; exact hstart)
  have hgap' := hs.lexemesIn_before h.before hfree hstop (Nat.le_refl _)
  rw [hspan] at hgap
  rw [hs.lexemesIn_split h.left_mem hlate hleft, hgap, hgap']
  rfl

/-- The closing parenthesis is the only lexeme from the piece on, if no comment is there. -/
theorem lexemesIn_tail (h : ctx.Grouped span left right) (hs : ctx.source.WellFormed)
    (hle : span.stop ≤ right.span.stop)
    (hfree : ctx.source.hasCommentsIn ⟨span.stop, right.span.stop, hle⟩ = false) :
    ctx.source.lexemesIn span.stop right.span.stop = [right] := by
  have hgap := hs.lexemesIn_after h.after hfree (Nat.le_refl _) right.span.start_le_stop
  rw [hs.lexemesIn_split h.right_mem h.le_right (Nat.le_refl _), hgap, hs.lexemesIn_point]
  rfl

end Context.Grouped

section Detached

variable {id parent : NodeId} {node whole : Node} {left right : Token}

/-- When a value is pulled up, its parentheses directly follow the keyword. -/
theorem needsPullUp_succeeds (h : ctx.Shaped) (hnode : ctx.tree.nodes[id]? = some node)
    (hparent : ctx.tree.nodes[parent]? = some whole) :
    Succeeds (needsPullUp ctx id parent left) fun b => b = true →
      ∃ keyword, (ctx.tokensOf parent).head? = some keyword ∧
        (ctx.source.tokenAfter keyword.span).map Token.span = some left.span := by
  rw [needsPullUp, Context.kind_eq_ok hparent, ok_bind]
  split
  · rw [h.firstToken_eq_ok hparent, ok_bind]
    rcases hkeyword : (ctx.tokensOf parent).head? with _ | keyword
    · exact succeeds_pure (by simp)
    dsimp only
    split
    · exact succeeds_pure (by simp)
    · rename_i hnext
      have hfacts : ∃ keyword', some keyword = some keyword' ∧
          (ctx.source.tokenAfter keyword'.span).map Token.span = some left.span :=
        ⟨keyword, rfl, by simpa using hnext⟩
      rw [Context.kind_eq_ok hnode, ok_bind, Context.span_eq_ok hnode, ok_bind]
      split
      · exact succeeds_pure fun _ => hfacts
      · exact succeeds_pure fun _ => hfacts
  · exact succeeds_pure (by simp)

/-- A returned value is pulled up if its parentheses directly follow the keyword and it is markup or
stands on another line. -/
theorem needsPullUp_eq (h : ctx.Shaped) (hnode : ctx.tree.nodes[id]? = some node)
    (hparent : ctx.tree.nodes[parent]? = some whole) {argument : Option NodeId}
    (hkind : whole.kind = .returnStatement argument) {keyword : Token}
    (hkeyword : (ctx.tokensOf parent).head? = some keyword) :
    needsPullUp ctx id parent left =
      .ok ((ctx.source.tokenAfter keyword.span).map Token.span == some left.span &&
        (node.kind.isJsx || ctx.source.breakBetween keyword.span.stop node.span.start)) := by
  rw [needsPullUp, Context.kind_eq_ok hparent, ok_bind, hkind]
  simp only [h.firstToken_eq_ok hparent, hkeyword, Context.kind_eq_ok hnode,
    Context.span_eq_ok hnode, ok_bind, bne]
  cases (ctx.source.tokenAfter keyword.span).map Token.span == some left.span with
  | false => rfl
  | true =>
      cases node.kind.isJsx <;> rfl

/-- A value is pulled up where no comment stands beside it: a space is left in front of it, and a
removal behind it. -/
theorem pullUpPatch_yields (h : ctx.Shaped) (hnode : ctx.tree.nodes[id]? = some node)
    (hparent : ctx.tree.nodes[parent]? = some whole) {keyword : Token}
    (hkeyword : (ctx.tokensOf parent).head? = some keyword)
    (hlead : keyword.span.stop ≤ node.span.start) (htail : node.span.stop ≤ right.span.stop)
    (hfits : ctx.source.Fits ⟨node.span.stop, right.span.stop, htail⟩) :
    Yields (pullUpPatch ctx id parent right) fun p =>
      ctx.source.hasCommentsIn ⟨keyword.span.stop, node.span.start, hlead⟩ = false ∧
        ctx.source.hasCommentsIn ⟨node.span.stop, right.span.stop, htail⟩ = false ∧
        p = ⟨⟨⟨keyword.span.stop, node.span.start, hlead⟩, " "⟩,
          [Edit.removal ctx.source ⟨node.span.stop, right.span.stop, htail⟩]⟩ := by
  rw [pullUpPatch, h.firstToken_eq_ok hparent, ok_bind, hkeyword]
  refine yields_unless fun _ => ?_
  rw [Context.span_eq_ok hnode, ok_bind, Span.ofBounds_of_le hlead, ok_bind,
    Span.ofBounds_of_le htail, ok_bind]
  refine yields_unless fun hplain => ?_
  simp only [Bool.or_eq_true, not_or, Bool.not_eq_true] at hplain
  rw [Edit.delete_eq_ok hfits, ok_bind, Patch.ofEdits?_pair node.span.start_le_stop]
  exact yields_some ⟨hplain.1, hplain.2, rfl⟩

/-- The patch that pulls a value up to the keyword keeps the contract. -/
theorem pullUpPatch_repairs (h : ctx.Shaped) (hnode : ctx.tree.nodes[id]? = some node)
    (hroot : id ≠ Tree.root) (hparent : ctx.tree.nodes[parent]? = some whole)
    (hgrouping : ctx.groupingAt node.span = some (left, right)) {keyword : Token}
    (hkeyword : (ctx.tokensOf parent).head? = some keyword)
    (hnext : (ctx.source.tokenAfter keyword.span).map Token.span = some left.span) :
    Yields (pullUpPatch ctx id parent right) fun p =>
      ∀ d : Detection, d.node = id → d.issue = .parens → Repairs ctx d p := by
  have hgrouped := h.grouped hgrouping
  obtain ⟨next, hnext, hspan⟩ := Option.map_eq_some_iff.1 hnext
  obtain ⟨-, hlate, -⟩ := Source.tokenAfter_eq_some h.source.tokens hnext
  rw [hspan] at hlate
  have hlead : keyword.span.stop ≤ node.span.start := by
    have := left.span.start_le_stop
    have := hgrouped.left_le
    omega
  have htail : node.span.stop ≤ right.span.stop :=
    Nat.le_trans hgrouped.le_right right.span.start_le_stop
  have hn := node.span.start_le_stop
  obtain ⟨hstart, hstop⟩ := h.joints hnode hroot
  have hkeywordMem :=
    Context.Shaped.mem_lexemes_of_mem_tokensOf (List.mem_of_mem_head? hkeyword)
  have hjoint := h.source.joint_stop hkeywordMem
  have hjoint' := h.source.joint_stop hgrouped.right_mem
  refine (pullUpPatch_yields h hnode hparent hkeyword hlead htail
    ⟨hstop.boundary, hjoint'.boundary⟩).imp fun r hr p hp d hd hissue => ?_
  obtain ⟨hfree, hfree', rfl⟩ := hr p hp
  -- no comment is lost, so each of the two edits takes away a parenthesis and gaps
  have he : Edit.Respells ctx.source ⟨⟨keyword.span.stop, node.span.start, hlead⟩, " "⟩ [left] [] :=
    ⟨hjoint, hstart, hgrouped.lexemesIn_lead h.source hnext hspan hlead hfree,
      .nil fun c hc => .inl (by simpa using hc)⟩
  have hf : (Edit.removal ctx.source ⟨node.span.stop, right.span.stop, htail⟩).Respells ctx.source
      [right] [] := by
    rw [← hgrouped.lexemesIn_tail h.source htail hfree']
    exact Edit.respells_removal hstop hjoint'
  have hspace : ink " ".toList = 0 := by decide +kernel
  have hedge : ctx.source.Edge keyword.span.stop :=
    ⟨keyword, Context.Shaped.mem_tokens_of_mem_tokensOf (List.mem_of_mem_head? hkeyword),
      .inr rfl⟩
  refine repairs_parens h he hf hn hspace (Edit.ink_removal _ _) hissue ?_ hgrouped.opening
    hgrouped.closing hedge (h.edges hnode hroot).2
  rw [hd, Context.grouping_eq_ok hnode, hgrouping]

/-- The patch that removes both parentheses keeps the contract. -/
theorem removeGrouping_repairs (h : ctx.Shaped) (hnode : ctx.tree.nodes[id]? = some node)
    (hgrouping : ctx.groupingAt node.span = some (left, right)) :
    Yields (Patch.removeGrouping ctx.source left right) fun p =>
      ∀ d : Detection, d.node = id → d.issue = .parens → Repairs ctx d p := by
  have hgrouped := h.grouped hgrouping
  have hle : left.span.stop ≤ right.span.start := hgrouped.left_precedes_right
  have he := Edit.respells_removal (h.source.joint_start hgrouped.left_mem)
    (h.source.joint_stop hgrouped.left_mem)
  have hf := Edit.respells_removal (h.source.joint_start hgrouped.right_mem)
    (h.source.joint_stop hgrouped.right_mem)
  rw [h.source.lexemesIn_self hgrouped.left_mem] at he
  rw [h.source.lexemesIn_self hgrouped.right_mem] at hf
  rw [Patch.removeGrouping_eq_ok ⟨he.start.boundary, he.stop.boundary⟩
    ⟨hf.start.boundary, hf.stop.boundary⟩ hle, hgrouped.opening, hgrouped.closing]
  refine yields_some fun d hd hissue => ?_
  obtain ⟨hedge, hedge'⟩ := hgrouped.edges h.source
  refine repairs_parens h he hf hle (Edit.ink_removal _ _) (Edit.ink_removal _ _) hissue ?_
    hgrouped.opening hgrouped.closing hedge hedge'
  rw [hd, Context.grouping_eq_ok hnode, hgrouping]

/-- Whichever patch is tried for redundant parentheses, the report is made, and a patch that it has
keeps the contract. -/
theorem groupingReport_succeeds (h : ctx.Shaped) (hnode : ctx.tree.nodes[id]? = some node)
    (hroot : id ≠ Tree.root) (hparent : ctx.tree.nodes[parent]? = some whole)
    (hgrouping : ctx.groupingAt node.span = some (left, right)) (span : Span) :
    Succeeds (do
      let patch ←
        if ← needsPullUp ctx id parent left then pullUpPatch ctx id parent right
        else Patch.removeGrouping ctx.source left right
      return some ⟨id, .parens, span, patch⟩) fun found => ∃ d : Detection, found = some d ∧
        d.node = id ∧ d.issue = .parens ∧ d.span = span ∧ d.Sound ctx := by
  refine (needsPullUp_succeeds h hnode hparent).bind fun pullUp hpullUp => ?_
  split
  · rename_i hup
    obtain ⟨keyword, hkeyword, hnext⟩ := hpullUp hup
    refine (pullUpPatch_repairs h hnode hroot hparent hgrouping hkeyword hnext).bind fun p hp => ?_
    exact succeeds_pure ⟨_, rfl, rfl, rfl, rfl, fun q hq => hp q hq _ rfl rfl⟩
  · refine (removeGrouping_repairs h hnode hgrouping).bind fun p hp => ?_
    exact succeeds_pure ⟨_, rfl, rfl, rfl, rfl, fun q hq => hp q hq _ rfl rfl⟩

end Detached

/-- **A report on parentheses has a result, and its patch keeps the contract.** -/
theorem checkGrouping_repairs (h : ctx.Shaped) {id : NodeId} {node : Node}
    (hnode : ctx.tree.nodes[id]? = some node) (hroot : id ≠ Tree.root) :
    Yields (checkGrouping ctx id) (Detection.Sound ctx) := by
  rw [checkGrouping, Context.grouping_eq_ok hnode, ok_bind]
  rcases hgrouping : ctx.groupingAt node.span with _ | ⟨left, right⟩
  · exact yields_none
  simp only [Context.parent_eq_ok hnode, ok_bind]
  rcases hparent : node.parent with _ | parent
  · exact yields_none
  obtain ⟨whole, hwhole⟩ := h.exists_parent hnode hparent
  obtain ⟨redundant, hredundant⟩ := exists_isRedundantGrouping h hnode hwhole left right
  simp only [hredundant, ok_bind]
  refine yields_unless fun _ => ?_
  rw [Span.ofBounds_of_le (h.grouped hgrouping).left_le_right, ok_bind]
  refine (groupingReport_succeeds h hnode hroot hwhole hgrouping _).imp ?_
  rintro _ ⟨d, rfl, -, -, -, hsound⟩ e he
  obtain rfl := Option.some.inj he
  exact hsound

/-- A report on parentheses: the node has them directly around it, they are redundant, and the patch
is the one that pulls the value up or the one that removes them. -/
theorem checkGrouping_found {id : NodeId} {d : Detection}
    (hcheck : checkGrouping ctx id = .ok (some d)) :
    d.node = id ∧ d.issue = .parens ∧ ∃ left right parent pullUp,
      ctx.grouping id = .ok (some (left, right)) ∧ ctx.parent id = .ok (some parent) ∧
      isRedundantGrouping ctx id parent left right = .ok true ∧
      needsPullUp ctx id parent left = .ok pullUp ∧
      (if pullUp = true then pullUpPatch ctx id parent right
        else Patch.removeGrouping ctx.source left right) = .ok d.patch := by
  obtain ⟨_ | ⟨left, right⟩, hgrouping, hcheck⟩ := bind_eq_ok.1 hcheck
  · cases hcheck
  obtain ⟨_ | parent, hparent, hcheck⟩ := bind_eq_ok.1 hcheck
  · cases hcheck
  obtain ⟨redundant, hredundant, hcheck⟩ := bind_eq_ok.1 hcheck
  obtain ⟨hneeds, hcheck⟩ := unless_eq_some hcheck
  obtain rfl : redundant = true := by simpa using hneeds
  obtain ⟨span, -, hcheck⟩ := bind_eq_ok.1 hcheck
  obtain ⟨pullUp, hpullUp, hcheck⟩ := bind_eq_ok.1 hcheck
  -- the two patches are reported in the same way
  have hreport : ∀ x : Except Fault (Option Patch),
      (x >>= fun patch => pure (some ⟨id, .parens, span, patch⟩)) = .ok (some d) →
      d.node = id ∧ d.issue = .parens ∧ x = .ok d.patch := by
    intro x hx
    obtain ⟨patch, hpatch, hd⟩ := bind_eq_ok.1 hx
    obtain rfl := Option.some.inj (Except.ok.inj hd)
    exact ⟨rfl, rfl, hpatch⟩
  cases pullUp with
  | true =>
      obtain ⟨hnode, hissue, hpatch⟩ := hreport _ hcheck
      exact ⟨hnode, hissue, left, right, parent, true, hgrouping, hparent, hredundant,
        hpullUp, hpatch⟩
  | false =>
      obtain ⟨hnode, hissue, hpatch⟩ := hreport _ hcheck
      exact ⟨hnode, hissue, left, right, parent, false, hgrouping, hparent, hredundant,
        hpullUp, hpatch⟩

/-- What takes the parentheses around a node away: a returned value is pulled up to the keyword, if
no comment stands beside it, or both parentheses are removed. -/
inductive Patch.Ungroups (ctx : Context) (id : NodeId) (node : Node) (parent : NodeId)
    (left right : Token) : Patch → Prop
  | pullUp {keyword : Token} (hkeyword : (ctx.tokensOf parent).head? = some keyword)
      (hnext : ctx.source.tokenAfter keyword.span = some left)
      (hlead : keyword.span.stop ≤ node.span.start) (htail : node.span.stop ≤ right.span.stop)
      (hfree : ctx.source.hasCommentsIn ⟨keyword.span.stop, node.span.start, hlead⟩ = false) :
      Ungroups ctx id node parent left right
        ⟨⟨⟨keyword.span.stop, node.span.start, hlead⟩, " "⟩,
          [Edit.removal ctx.source ⟨node.span.stop, right.span.stop, htail⟩]⟩
  | remove (hstays : needsPullUp ctx id parent left = .ok false) :
      Ungroups ctx id node parent left right
        ⟨Edit.removal ctx.source left.span, [Edit.removal ctx.source right.span]⟩

/-- The patch fits the text. -/
theorem Patch.Ungroups.placed {id parent : NodeId} {node : Node} {left right : Token} {p : Patch}
    (hp : p.Ungroups ctx id node parent left right) (h : ctx.Shaped)
    (hnode : ctx.tree.nodes[id]? = some node) (hroot : id ≠ Tree.root)
    (hgrouping : ctx.groupingAt node.span = some (left, right)) :
    Placed ctx.source.text.toList 0 p.edits := by
  have hgrouped := h.grouped hgrouping
  obtain ⟨hstart, hstop⟩ := h.joints hnode hroot
  cases hp with
  | pullUp hkeyword hnext hlead htail hfree =>
      have hjoint := h.source.joint_stop
        (Context.Shaped.mem_lexemes_of_mem_tokensOf (List.mem_of_mem_head? hkeyword))
      have hjoint' := h.source.joint_stop hgrouped.right_mem
      refine ⟨?_, fun _ _ => Nat.zero_le _, ?_⟩
      · simp [Patch.edits, hjoint.boundary, hstart.boundary, hstop.boundary, hjoint'.boundary]
      · simpa [Patch.edits] using node.span.start_le_stop
  | remove hstays =>
      have hle : left.span.stop ≤ right.span.start := hgrouped.left_precedes_right
      refine ⟨?_, fun _ _ => Nat.zero_le _, ?_⟩
      · simp [Patch.edits, (h.source.joint_start hgrouped.left_mem).boundary,
          (h.source.joint_stop hgrouped.left_mem).boundary,
          (h.source.joint_start hgrouped.right_mem).boundary,
          (h.source.joint_stop hgrouped.right_mem).boundary]
      · simpa [Patch.edits] using hle

/-- **A report on parentheses with a patch takes the parentheses around its node away.** -/
theorem checkGrouping_ungroups (h : ctx.Shaped) {id : NodeId} {d : Detection} {p : Patch}
    (hcheck : checkGrouping ctx id = .ok (some d)) (hp : d.patch = some p) :
    ∃ node parent whole left right, ctx.tree.nodes[id]? = some node ∧ id ≠ Tree.root ∧
      node.parent = some parent ∧ ctx.tree.nodes[parent]? = some whole ∧
      ctx.groupingAt node.span = some (left, right) ∧
      Patch.Ungroups ctx id node parent left right p := by
  obtain ⟨rfl, -, left, right, parent, pullUp, hgrouping, hparent, -, hpullUp, hpatch⟩ :=
    checkGrouping_found hcheck
  rw [hp] at hpatch
  obtain ⟨span, hspan, hpair⟩ := bind_eq_ok.1 hgrouping
  obtain ⟨node, hnode, rfl⟩ := Context.exists_node_of_span hspan
  have hpair := Except.ok.inj hpair
  rw [Context.parent_eq_ok hnode] at hparent
  have hparent := Except.ok.inj hparent
  obtain ⟨whole, hwhole⟩ := h.exists_parent hnode hparent
  -- the program has no parent, and this node has one
  have hroot : d.node ≠ Tree.root := by
    intro hroot
    obtain ⟨root, hget, hnone⟩ := h.root
    rw [← hroot, hnode] at hget
    rw [← Option.some.inj hget, hparent] at hnone
    cases hnone
  have hgrouped := h.grouped hpair
  have hjoint := h.source.joint_start hgrouped.left_mem
  have hjoint' := h.source.joint_stop hgrouped.left_mem
  have hright := h.source.joint_start hgrouped.right_mem
  have hright' := h.source.joint_stop hgrouped.right_mem
  refine ⟨node, parent, whole, left, right, hnode, hroot, hparent, hwhole, hpair, ?_⟩
  cases pullUp with
  | true =>
      have hneeds : Succeeds (needsPullUp ctx d.node parent left) _ :=
        needsPullUp_succeeds h hnode hwhole
      obtain ⟨keyword, hkeyword, hnext⟩ := hneeds.of_eq_ok hpullUp rfl
      have hnext := h.source.tokenAfter_of_map hgrouped.left_mem hnext
      obtain ⟨-, hlate, -⟩ := Source.tokenAfter_eq_some h.source.tokens hnext
      have hlead : keyword.span.stop ≤ node.span.start :=
        Nat.le_trans hlate (Nat.le_trans left.span.start_le_stop hgrouped.left_le)
      have htail : node.span.stop ≤ right.span.stop :=
        Nat.le_trans hgrouped.le_right right.span.start_le_stop
      have hyields : Yields (pullUpPatch ctx d.node parent right) _ :=
        pullUpPatch_yields h hnode hwhole hkeyword hlead htail
          ⟨(h.joints hnode hroot).2.boundary, hright'.boundary⟩
      obtain ⟨hfree, -, rfl⟩ := hyields.of_found hpatch
      exact .pullUp hkeyword hnext hlead htail hfree
  | false =>
      rw [if_neg (by simp), Patch.removeGrouping_eq_ok ⟨hjoint.boundary, hjoint'.boundary⟩
        ⟨hright.boundary, hright'.boundary⟩ hgrouped.left_precedes_right, hgrouped.opening,
        hgrouped.closing] at hpatch
      obtain rfl := Option.some.inj (Except.ok.inj hpatch)
      exact .remove hpullUp

end Pare
