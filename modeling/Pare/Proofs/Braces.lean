import Pare.Proofs.Repair

/-!
**Blocks around a single statement.**

A block is replaced by the text between its braces, trimmed, so the braces are the only lexemes that
go, unless trimming cuts into the outermost lexemes of the block.  A line comment after the
statement may end with blanks, but with one there the block is left alone.

Main results:

* `Pare.exists_isTerminatedIn`, `Pare.exists_endsOpenIn` — looking into the last statement comes to
  an end;
* `Pare.unwrapPatch_repairs` — the patch keeps the contract;
* `Pare.checkBlock_repairs` — **a report on a block has a result, and its patch keeps the
  contract**;
* `Pare.checkBlock_found` — what the report and its patch are.
-/

set_option relaxedAutoImplicit false
set_option autoImplicit false

namespace Pare

open Text (ink)

variable {ctx : Context}

/-- Branches and bodies are parts. -/
theorem mem_children_of_mem_controlledBlocks {kind : Kind NodeId} {id : NodeId}
    (h : id ∈ controlledBlocks kind) : id ∈ kind.children := by
  cases kind <;> simp only [controlledBlocks, Kind.children, List.not_mem_nil] at h ⊢
  all_goals simp_all

/-! ### How a statement ends -/

theorem exists_isTerminatedIn (h : ctx.Shaped) {depth stmt : Nat} {node : Node}
    (hnode : ctx.tree.nodes[stmt]? = some node) (hdepth : ctx.tree.size ≤ stmt + depth) :
    ∃ b, isTerminatedIn ctx depth stmt = .ok b := by
  refine h.descend (P := fun depth stmt => ∃ b, isTerminatedIn ctx depth stmt = .ok b)
    ?_ hnode hdepth
  intro depth stmt node hnode hpart
  rw [isTerminatedIn, h.lastToken_eq_ok hnode, ok_bind]
  rcases (ctx.tokensOf stmt).getLast? with _ | last
  · exact ⟨_, rfl⟩
  dsimp only
  split
  · exact ⟨_, rfl⟩
  rw [Context.kind_eq_ok hnode, ok_bind]
  split
  · rename_i test consequent alternate hkind
    refine hpart _ ?_
    cases alternate <;> simp [hkind, Kind.children]
  · rename_i hkind
    exact hpart _ (by simp [hkind, Kind.children])
  · rename_i hkind
    exact hpart _ (by simp [hkind, Kind.children])
  · rename_i hkind
    exact hpart _ (by simp [hkind, Kind.children])
  · exact ⟨_, rfl⟩
  · exact ⟨_, rfl⟩
  · exact ⟨_, rfl⟩

theorem exists_endsOpenIn (h : ctx.Shaped) {depth stmt : Nat} {node : Node}
    (hnode : ctx.tree.nodes[stmt]? = some node) (hdepth : ctx.tree.size ≤ stmt + depth) :
    ∃ b, endsOpenIn ctx depth stmt = .ok b := by
  refine h.descend (P := fun depth stmt => ∃ b, endsOpenIn ctx depth stmt = .ok b) ?_ hnode hdepth
  intro depth stmt node hnode hpart
  rw [endsOpenIn, Context.kind_eq_ok hnode, ok_bind]
  split
  · exact ⟨_, rfl⟩
  · rename_i hkind
    exact hpart _ (by simp [hkind, Kind.children])
  · rename_i hkind
    exact hpart _ (by simp [hkind, Kind.children])
  · rename_i hkind
    exact hpart _ (by simp [hkind, Kind.children])
  · rename_i hkind
    exact hpart _ (by simp [hkind, Kind.children])
  · exact ⟨_, rfl⟩

theorem exists_isTerminated (h : ctx.Shaped) {stmt : NodeId} {node : Node}
    (hnode : ctx.tree.nodes[stmt]? = some node) : ∃ b, isTerminated ctx stmt = .ok b :=
  exists_isTerminatedIn h hnode (Nat.le_trans (Nat.le_succ _) (Nat.le_add_left ..))

theorem exists_endsOpen (h : ctx.Shaped) {stmt : NodeId} {node : Node}
    (hnode : ctx.tree.nodes[stmt]? = some node) : ∃ b, endsOpen ctx stmt = .ok b :=
  exists_endsOpenIn h hnode (Nat.le_trans (Nat.le_succ _) (Nat.le_add_left ..))

/-! ### The patch -/

/-- In a tight block, what stands between the braces keeps its lexemes when it is trimmed, unless it
ends with a line comment. -/
theorem laid_trim_braced (h : ctx.Shaped) {block stmt : NodeId} (htight : ctx.TightBlock block)
    {node : Node} {left right : Token} (hnode : ctx.tree.nodes[block]? = some node)
    (hkind : node.kind = .block [stmt]) (hbraced : ctx.Braced block stmt node.span left right)
    (hline : ∀ t, (ctx.source.lexemesIn left.span.stop right.span.start).getLast? = some t →
      t.kind ≠ .lineComment) :
    Laid ctx.source.Gap ((ctx.source.lexemesIn left.span.stop right.span.start).map Token.value)
      (Text.trim (Text.slice ctx.source.text.toList left.span.stop right.span.start)) := by
  obtain ⟨hfirst, hlast⟩ :=
    htight node [stmt] hnode hkind left right _ (hbraced.lexemesIn_eq h)
  refine (h.source.laid_slice (hbraced.precedes h) (h.source.joint_stop hbraced.left_mem)
    (h.source.joint_start hbraced.right_mem)).trim ?_ ?_
  · intro w hw
    rw [List.head?_map] at hw
    obtain ⟨t, ht, rfl⟩ := Option.map_eq_some_iff.1 hw
    exact hfirst t ht
  · intro w hw
    rw [List.getLast?_map] at hw
    obtain ⟨t, ht, rfl⟩ := Option.map_eq_some_iff.1 hw
    rcases hlast t ht with hcomment | hend
    · exact absurd hcomment (hline t ht)
    · exact hend

/-- In a clear block, what stands between the braces is lined when it is trimmed, unless it ends
with a line comment. -/
theorem lined_trim_braced (h : ctx.Shaped) (hlines : ctx.source.LinesEnd)
    {block stmt : NodeId} (hclear : ctx.ClearBlock block) {node : Node} {left right : Token}
    (hnode : ctx.tree.nodes[block]? = some node) (hkind : node.kind = .block [stmt])
    (hbraced : ctx.Braced block stmt node.span left right)
    (hline : ∀ t, (ctx.source.lexemesIn left.span.stop right.span.start).getLast? = some t →
      t.kind ≠ .lineComment) :
    ∃ new, List.Forall₂ Word.Trims
        ((ctx.source.lexemesIn left.span.stop right.span.start).map Token.word) new ∧
      Lined ctx.source.Gap false new
        (Text.trim (Text.slice ctx.source.text.toList left.span.stop right.span.start)) false := by
  obtain ⟨hfirst, hlast⟩ := hclear node [stmt] hnode hkind left right _ (hbraced.lexemesIn_eq h)
  obtain ⟨owed, hlined, -⟩ := h.source.lined_slice hlines (hbraced.precedes h)
    (h.source.joint_stop hbraced.left_mem) (h.source.joint_start hbraced.right_mem)
    (fun hfalse : false = true => by cases hfalse)
  refine hlined.trim hfirst (hlast.shielded fun w hw => ?_)
  rw [List.getLast?_map] at hw
  obtain ⟨t, ht, rfl⟩ := Option.map_eq_some_iff.1 hw
  exact Bool.eq_false_iff.2 fun hcomment => hline t ht (Token.kind_of_isLine hcomment)

/-- A block is unwrapped where no line comment stands behind its statement: what is between the
braces, trimmed, takes its place. -/
theorem unwrapPatch_yields (h : ctx.Shaped) {block stmt : NodeId} {node stmtNode : Node}
    (hnode : ctx.tree.nodes[block]? = some node) (hroot : block ≠ Tree.root)
    (hstmt : ctx.tree.nodes[stmt]? = some stmtNode) {left right last : Token}
    (hbraced : ctx.Braced block stmt node.span left right)
    (hlast : (ctx.tokensOf stmt).getLast? = some last) (hle : last.span.stop ≤ right.span.start) :
    Yields (unwrapPatch ctx block stmt) fun p =>
      (∀ c ∈ ctx.source.commentsIn ⟨last.span.stop, right.span.start, hle⟩,
        c.kind ≠ .lineComment) ∧
      p = .single (Edit.substitution ctx.source node.span (String.ofList
        (Text.trim (Text.slice ctx.source.text.toList left.span.stop right.span.start)))) := by
  have hbetween : left.span.stop ≤ right.span.start := hbraced.precedes h
  rw [unwrapPatch, Context.span_eq_ok hnode, ok_bind, h.firstToken_eq_ok hnode, ok_bind,
    h.lastToken_eq_ok hnode, hbraced.head?, hbraced.getLast?]
  simp only [ok_bind, h.firstToken_eq_ok hstmt, h.lastToken_eq_ok hstmt, hlast]
  refine yields_unless fun _ => ?_
  rcases (ctx.tokensOf stmt).head? with _ | first
  · exact yields_none
  rcases ctx.source.tokenAfter left.span with _ | afterLeft
  · exact yields_none
  rcases ctx.source.tokenBefore right.span with _ | beforeRight
  · exact yields_none
  refine yields_unless fun _ => ?_
  rw [Span.ofBounds_of_le hle, ok_bind]
  refine yields_unless fun hfree => ?_
  obtain ⟨terminated, hterminated⟩ := exists_isTerminated h hstmt
  obtain ⟨endsOpen, hopen⟩ := exists_endsOpen h hstmt
  rw [hterminated, ok_bind]
  refine yields_unless fun _ => ?_
  rw [hopen, ok_bind]
  refine yields_unless fun _ => ?_
  -- all conditions are passed
  obtain ⟨hstart, hstop⟩ := h.joints hnode hroot
  have hinner : (ctx.source.slice ⟨left.span.stop, right.span.start, hbetween⟩).toList =
      Text.slice ctx.source.text.toList left.span.stop right.span.start := by
    rw [Source.slice, Text.excerpt, String.toList_ofList]
    rfl
  rw [Span.ofBounds_of_le hbetween, ok_bind, hinner,
    Edit.replace_eq_ok ⟨hstart.boundary, hstop.boundary⟩, ok_bind]
  exact yields_some ⟨by simpa using hfree, rfl⟩

/-- The patch of a block to the statement in it keeps the contract. -/
theorem unwrapPatch_repairs (h : ctx.Shaped) {block stmt : NodeId} {node : Node}
    (hnode : ctx.tree.nodes[block]? = some node) (hroot : block ≠ Tree.root)
    (hkind : node.kind = .block [stmt]) (hcontrolled : ctx.IsControlled block) :
    Yields (unwrapPatch ctx block stmt) fun p =>
      ∀ d : Detection, d.node = block → d.issue = .braces → Repairs ctx d p := by
  obtain ⟨left, right, hbraced⟩ := h.exists_braces hnode hroot hkind
  obtain ⟨stmtNode, hstmt, hstmtRoot⟩ := h.exists_part hnode (show stmt ∈ node.kind.children by
    simp [hkind, Kind.children])
  obtain ⟨last, hlast, -⟩ := h.exists_last hstmt hstmtRoot
  have hlastLe : last.span.stop ≤ right.span.start :=
    (hbraced.between h (List.mem_of_mem_getLast? hlast)).2
  obtain ⟨hstart, hstop⟩ := h.joints hnode hroot
  refine (unwrapPatch_yields h hnode hroot hstmt hbraced hlast hlastLe).imp fun r hr p hp => ?_
  obtain ⟨hfree, rfl⟩ := hr p hp
  have hline := fun t => hbraced.kind_getLast?_ne h (t := t) hlast hlastLe hfree
  rintro d rfl hissue
  -- it fits the text, holds no more ink, and keeps the words and the line comments
  refine ⟨?_, ?_, fun htight => ?_, fun hlines hclear => ?_, fun _ => ?_⟩
  · exact (Edit.respells_substitution hstart hstop (Laid.word _)).placed_single
  · have hink := hbraced.ink_eq h
    simp only [Patch.edits_single, inkGained, inkLost, List.map_cons, List.map_nil, List.sum_cons,
      List.sum_nil, Edit.ink_substitution, Edit.span_substitution, String.toList_ofList,
      Text.ink_trim]
    omega
  · have hlaid : Laid ctx.source.Gap
        ((ctx.source.lexemesIn left.span.stop right.span.start).map Token.value)
        (String.ofList (Text.trim (Text.slice ctx.source.text.toList left.span.stop
          right.span.start))).toList := by
      rw [String.toList_ofList]
      exact laid_trim_braced h (htight hcontrolled) hnode hkind hbraced hline
    obtain ⟨front, back, hall, hout⟩ :=
      (Edit.respells_substitution hstart hstop hlaid).single h.source
    rw [hbraced.lexemesIn_eq h] at hall
    have hwords : Respelled ctx d ((front ++
        ctx.source.lexemesIn left.span.stop right.span.start ++ back).map Token.value) :=
      .braces hissue hcontrolled (by rw [h.firstToken_eq_ok hnode, hbraced.head?])
        hbraced.opening (by rw [h.lastToken_eq_ok hnode, hbraced.getLast?]) hbraced.closing
        (by simpa using hall)
    exact ⟨_, hwords, by simpa using hout⟩
  · obtain ⟨new, htrims, hlined⟩ :=
      lined_trim_braced h hlines (hclear.block hcontrolled) hnode hkind hbraced hline
    rw [← String.toList_ofList (l := Text.trim _)] at hlined
    refine (Edit.rewords_substitution (h.source.settled hlines (h.edges hnode hroot).1) hstop ?_
      hlined).single
    rw [hbraced.lexemesIn_eq h]
    exact .block hbraced.opening hbraced.closing htrims
  · exact hbraced.not_endsInLineComment h hnode hlast hlastLe hfree

/-- **A report on a block has a result, and its patch keeps the contract.** -/
theorem checkBlock_repairs (h : ctx.Shaped) {block controlling : NodeId} {whole : Node}
    (hwhole : ctx.tree.nodes[controlling]? = some whole)
    (hblock : block ∈ controlledBlocks whole.kind) :
    Yields (checkBlock ctx block controlling) (Detection.Sound ctx) := by
  obtain ⟨node, hnode, hroot⟩ :=
    h.exists_part hwhole (mem_children_of_mem_controlledBlocks hblock)
  rw [checkBlock, Context.kind_eq_ok hnode, ok_bind]
  split
  · rename_i stmt hkind
    obtain ⟨stmtNode, hstmt, -⟩ := h.exists_part hnode (show stmt ∈ node.kind.children by
      simp [hkind, Kind.children])
    -- all ways to a report but one end with the patch
    have hreport : Yields (unwrapPatch ctx block stmt >>= fun patch =>
        pure (some ⟨block, .braces, node.span, patch⟩)) (Detection.Sound ctx) := by
      refine (unwrapPatch_repairs h hnode hroot hkind
        ⟨_, _, Context.kind_eq_ok hwhole, hblock⟩).bind fun patch hpatch => yields_some ?_
      exact fun p hp => hpatch p hp _ rfl rfl
    simp only [Context.kind_eq_ok hstmt, Context.span_eq_ok hnode, Context.kind_eq_ok hwhole,
      ok_bind]
    refine yields_unless fun _ => ?_
    split
    · exact yields_none
    split
    · split
      · split
        · refine yields_unless fun _ => ?_
          obtain ⟨b, hb⟩ := exists_endsOpen h hstmt
          rw [hb, ok_bind]
          split
          · exact yields_some (by simp [Detection.Sound])
          · exact hreport
        · exact hreport
      · exact hreport
    · exact hreport
  · exact yields_none

/-! ### What was found -/

/-- A report on a block: it holds one statement, and if there is a patch, it is the one to that
statement. -/
theorem checkBlock_found {block controlling : NodeId} {d : Detection}
    (hcheck : checkBlock ctx block controlling = .ok (some d)) :
    d.node = block ∧ d.issue = .braces ∧ ∃ stmt, ctx.kind block = .ok (.block [stmt]) ∧
      ∀ p, d.patch = some p → unwrapPatch ctx block stmt = .ok (some p) := by
  obtain ⟨kind, hkind, hcheck⟩ := bind_eq_ok.1 hcheck
  split at hcheck
  · rename_i stmt
    -- all ways to a report but one end with the patch
    have hreport : ∀ span, (unwrapPatch ctx block stmt >>= fun patch =>
        pure (some ⟨block, .braces, span, patch⟩)) = .ok (some d) →
        d.node = block ∧ d.issue = .braces ∧ ∃ stmt, ctx.kind block = .ok (.block [stmt]) ∧
          ∀ p, d.patch = some p → unwrapPatch ctx block stmt = .ok (some p) := by
      intro span hreport
      obtain ⟨patch, hpatch, hd⟩ := bind_eq_ok.1 hreport
      obtain rfl := Option.some.inj (Except.ok.inj hd)
      exact ⟨rfl, rfl, stmt, hkind, fun p hp => hp ▸ hpatch⟩
    obtain ⟨stmtKind, -, hcheck⟩ := bind_eq_ok.1 hcheck
    obtain ⟨-, hcheck⟩ := unless_eq_some hcheck
    split at hcheck
    · cases hcheck
    obtain ⟨span, -, hcheck⟩ := bind_eq_ok.1 hcheck
    obtain ⟨whole, -, hcheck⟩ := bind_eq_ok.1 hcheck
    dsimp only at hcheck
    split at hcheck
    · split at hcheck
      · split at hcheck
        · obtain ⟨-, hcheck⟩ := unless_eq_some hcheck
          obtain ⟨openEnd, -, hcheck⟩ := bind_eq_ok.1 hcheck
          split at hcheck
          -- a branch that ends in an open `if` is reported without a patch
          · obtain rfl := Option.some.inj (Except.ok.inj hcheck)
            exact ⟨rfl, rfl, stmt, hkind, fun p hp => by cases hp⟩
          · exact hreport span hcheck
        · exact hreport span hcheck
      · exact hreport span hcheck
    · exact hreport span hcheck
  · cases hcheck

end Pare
