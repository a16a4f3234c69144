import Mathlib
import Pare.Proofs.Grouping
import Pare.Proofs.Lined

/-!
**The value stays on the line of the keyword.**

A line break directly after `return` ends the statement, and the value behind it is never returned.
Parentheses keep a value on another line; when they go, the value must not be left there.  If the
parentheses that go are the ones at the keyword, either no line ends between the keyword and the
value, or the value is pulled up; if they are not, the ones at the keyword are left where they are.

Main results:

* `Pare.Context.Shaped.exists_opening` — what comes after the keyword of a value in parentheses is
  a parenthesis, and none of those that go is before it;
* `Pare.Patch.Ungroups.keeps_line`, `Pare.Patch.Ungroups.keeps_front` — the text around the value
  in both cases;
* `Pare.checkGrouping_keeps_return_line` — **a returned value stays on the line of the keyword**.
-/

set_option relaxedAutoImplicit false
set_option autoImplicit false

namespace Pare

open Text (IsBoundary slice hasBreak)

variable {ctx : Context}

/-! ### The parenthesis at the keyword -/

/-- What comes after the keyword of a value in parentheses is a parenthesis; it is the one directly
around the value or stands before that. -/
theorem Context.Shaped.exists_opening (h : ctx.Shaped) {stmt argument : NodeId} {whole node : Node}
    (hstmt : ctx.tree.nodes[stmt]? = some whole)
    (hkind : whole.kind = .returnStatement (some argument))
    (hnode : ctx.tree.nodes[argument]? = some node) (hroot : argument ≠ Tree.root)
    {left right : Token} (hgrouping : ctx.groupingAt node.span = some (left, right)) :
    ∃ keyword paren, (ctx.tokensOf stmt).head? = some keyword ∧ keyword.isWord "return" = true ∧
      ctx.source.tokenAfter keyword.span = some paren ∧ paren.isSign "(" = true ∧
      (paren = left ∨ paren.Precedes left) := by
  obtain ⟨keyword, opening, closing, tail, hkeyword, hopening, -, -, -, htokens⟩ :=
    h.returned stmt whole (some argument) hstmt hkind
  rw [Option.toList_some, List.flatMap_singleton] at htokens
  obtain ⟨first, hfirst, hstart⟩ := h.exists_first hnode hroot
  obtain ⟨rest, hrest⟩ := List.head?_eq_some_iff.1 hfirst
  obtain ⟨hbefore, -, hleft, -⟩ := Context.groupingAt_eq_some hgrouping
  obtain ⟨hleftMem, hleftLe, hnearest⟩ := Source.tokenBefore_eq_some h.source.tokens hbefore
  have horder := h.tokensOf_inOrder stmt
  rw [htokens] at horder
  have hkeywordMem : keyword ∈ ctx.source.tokens.toList :=
    Context.Shaped.mem_tokens_of_mem_tokensOf (htokens ▸ List.mem_cons_self ..)
  -- the keyword comes before the value, so it comes before the parenthesis
  have hkeywordLe : keyword.span.stop ≤ node.span.start := by
    rw [← hstart]
    exact (List.pairwise_cons.1 horder.apart).1 first (by simp [hrest])
  have hprecedes : keyword.span.stop ≤ left.span.start := by
    rcases hnearest keyword hkeywordMem hkeywordLe with rfl | hprecedes
    · rw [Token.isWord_of_isSign hleft] at hkeyword
      cases hkeyword
    · exact hprecedes
  rw [Context.tokensOf_eq hstmt] at htokens
  cases opening with
  | nil =>
      -- without a parenthesis, the value would come directly after the keyword
      rw [hrest] at htokens
      have hnext := Source.tokenAfter_of_tokensIn h.source.tokens htokens
      obtain ⟨-, -, hfar⟩ := Source.tokenAfter_eq_some h.source.tokens hnext
      have hne := h.source.tokens.nonempty left hleftMem
      rcases hfar left hleftMem hprecedes with rfl | hlate
      · omega
      · have hle := first.span.start_le_stop
        simp only [Token.Precedes] at hlate
        omega
  | cons paren opening =>
      have hnext := Source.tokenAfter_of_tokensIn h.source.tokens htokens
      obtain ⟨-, -, hfar⟩ := Source.tokenAfter_eq_some h.source.tokens hnext
      refine ⟨keyword, paren, ?_, hkeyword, hnext, hopening paren (List.mem_cons_self ..), ?_⟩
      · rw [Context.tokensOf_eq hstmt, htokens]
        rfl
      · rcases hfar left hleftMem hprecedes with rfl | hlate
        · exact .inl rfl
        · exact .inr hlate

/-! ### The text around the value -/

/-- What a text starts with is unchanged if only something behind it changes. -/
theorem slice_append_of_le {cs : List Char} {m n : Nat} (hm : IsBoundary cs m)
    (hn : IsBoundary cs n) (hle : m ≤ n) (rest : List Char) :
    slice (slice cs 0 n ++ rest) 0 m = slice cs 0 m := by
  have hzero := Text.isBoundary_zero cs
  have hjoin := Text.slice_append hzero hm hn (Nat.zero_le m) hle
  have hsize := Text.byteSize_slice hzero hm (Nat.zero_le m)
  refine Text.slice_eq [] (slice cs m n ++ rest) ?_ rfl (by simpa using hsize)
  rw [List.nil_append, ← List.append_assoc, hjoin]

theorem hasBreak_pad (a b : Option Char) : hasBreak (Edit.pad a b).toList = false := by
  unfold Edit.pad
  split <;> decide +kernel

namespace Patch.Ungroups

variable {id parent : NodeId} {node : Node} {left right : Token} {p : Patch}

/-- Where the parentheses directly follow the keyword, no line ends between the keyword and the
value. -/
theorem keeps_line (hp : p.Ungroups ctx id node parent left right) (h : ctx.Shaped)
    {whole : Node} {argument : Option NodeId} (hnode : ctx.tree.nodes[id]? = some node)
    (hroot : id ≠ Tree.root) (hparent : ctx.tree.nodes[parent]? = some whole)
    (hkind : whole.kind = .returnStatement argument)
    (hgrouping : ctx.groupingAt node.span = some (left, right)) {keyword : Token}
    (hkeyword : (ctx.tokensOf parent).head? = some keyword)
    (hnext : ctx.source.tokenAfter keyword.span = some left) :
    ∃ gap rest, rewritten ctx.source.text.toList 0 p.edits
        (Text.byteSize ctx.source.text.toList) =
      slice ctx.source.text.toList 0 keyword.span.stop ++ gap ++
        slice ctx.source.text.toList node.span.start node.span.stop ++ rest ∧
      hasBreak gap = false := by
  have hgrouped := h.grouped hgrouping
  obtain ⟨hstart, hstop⟩ := h.joints hnode hroot
  have hkeywordMem :=
    Context.Shaped.mem_lexemes_of_mem_tokensOf (List.mem_of_mem_head? hkeyword)
  have hjoint := (h.source.joint_stop hkeywordMem).boundary
  cases hp with
  | @pullUp first hfirst _ hlead htail hfree =>
      obtain rfl : keyword = first := Option.some.inj (hkeyword.symm.trans hfirst)
      refine ⟨[' '],
        (Edit.removal ctx.source ⟨node.span.stop, right.span.stop, htail⟩).text.toList ++
          slice ctx.source.text.toList right.span.stop (Text.byteSize ctx.source.text.toList),
        ?_, by decide⟩
      simp [Patch.edits]
  | remove hstays =>
      rw [needsPullUp_eq h hnode hparent hkind hkeyword, hnext] at hstays
      have hstays := Except.ok.inj hstays
      simp only [Option.map_some, BEq.rfl, Bool.true_and, Bool.or_eq_false_iff] at hstays
      obtain ⟨-, hlate, -⟩ := Source.tokenAfter_eq_some h.source.tokens hnext
      have hleft := (h.source.joint_start hgrouped.left_mem).boundary
      have hleft' := (h.source.joint_stop hgrouped.left_mem).boundary
      have hright := (h.source.joint_start hgrouped.right_mem).boundary
      have hl := h.source.nonempty hgrouped.left_mem
      have hn := node.span.start_le_stop
      have hle := hgrouped.left_le
      have hle' := hgrouped.le_right
      have hfront := Text.slice_append (Text.isBoundary_zero _) hjoint hleft (Nat.zero_le _) hlate
      have hlead := Text.slice_append hleft' hstart.boundary hright hle (by omega)
      have hvalue := Text.slice_append hstart.boundary hstop.boundary hright hn hle'
      refine ⟨slice ctx.source.text.toList keyword.span.stop left.span.start ++
          (Edit.removal ctx.source left.span).text.toList ++
          slice ctx.source.text.toList left.span.stop node.span.start,
        slice ctx.source.text.toList node.span.stop right.span.start ++
          (Edit.removal ctx.source right.span).text.toList ++
          slice ctx.source.text.toList right.span.stop (Text.byteSize ctx.source.text.toList),
        ?_, ?_⟩
      · simp only [Patch.edits, rewritten_cons, rewritten_nil, Edit.span_removal, ← hfront, ← hlead,
          ← hvalue, List.append_assoc]
      · -- the gap is the text between keyword and value, but for the parenthesis
        have hwhole := Text.slice_append hjoint hleft hstart.boundary hlate (by omega)
        have hrest := Text.slice_append hleft hleft' hstart.boundary (Nat.le_of_lt hl) hle
        have hlt : keyword.span.stop < node.span.start := by omega
        have hnone : hasBreak (slice ctx.source.text.toList keyword.span.stop node.span.start) =
            false := by
          simpa [Source.breakBetween, hlt, hasBreak, Source.gapText, slice] using hstays.2
        rw [← hwhole, ← hrest] at hnone
        simp only [Text.hasBreak_append, Bool.or_eq_false_iff] at hnone
        have hpad := hasBreak_pad (ctx.source.leftOf left.span) (ctx.source.rightOf left.span)
        simp [Edit.removal, hpad, hnone]

/-- Where the parentheses do not directly follow the keyword, the text up to them is unchanged. -/
theorem keeps_front (hp : p.Ungroups ctx id node parent left right) (h : ctx.Shaped)
    (hgrouping : ctx.groupingAt node.span = some (left, right)) {keyword : Token}
    (hkeyword : (ctx.tokensOf parent).head? = some keyword)
    (hnext : ctx.source.tokenAfter keyword.span ≠ some left) {n : Nat}
    (hn : IsBoundary ctx.source.text.toList n) (hle : n ≤ left.span.start) :
    slice (rewritten ctx.source.text.toList 0 p.edits (Text.byteSize ctx.source.text.toList)) 0 n =
      slice ctx.source.text.toList 0 n := by
  cases hp with
  | @pullUp first hfirst hafter =>
      obtain rfl : keyword = first := Option.some.inj (hkeyword.symm.trans hfirst)
      exact absurd hafter hnext
  | remove hstays =>
      have hleft := (h.source.joint_start (h.grouped hgrouping).left_mem).boundary
      rw [Patch.edits, rewritten_cons, List.append_assoc, Edit.span_removal]
      exact slice_append_of_le hn hleft hle _

end Patch.Ungroups

/-! ### The report -/

/-- **A returned value stays on the line of the keyword.**  If the parentheses around a returned
value are reported with a patch, the patch can be applied.  Where they directly follow the keyword,
the text up to the keyword stays, then the value comes, and no line ends between the two; where they
do not, a parenthesis follows the keyword, and the text up to and with this parenthesis stays. -/
theorem checkGrouping_keeps_return_line (h : ctx.WellFormed) {stmt argument : NodeId}
    (hstmt : ctx.kind stmt = .ok (.returnStatement (some argument))) {d : Detection} {p : Patch}
    (hcheck : checkGrouping ctx argument = .ok (some d)) (hp : d.patch = some p) :
    ∃ keyword left right span out, ctx.firstToken stmt = .ok (some keyword) ∧
      keyword.isWord "return" = true ∧ ctx.grouping argument = .ok (some (left, right)) ∧
      ctx.span argument = .ok span ∧ p.apply ctx.source.text = .ok out ∧
      (ctx.source.tokenAfter keyword.span = some left → ∃ gap rest,
        out.toList = slice ctx.source.text.toList 0 keyword.span.stop ++ gap ++
          slice ctx.source.text.toList span.start span.stop ++ rest ∧
        hasBreak gap = false ∧ slice ctx.source.text.toList span.start span.stop ≠ []) ∧
      (ctx.source.tokenAfter keyword.span ≠ some left → ∃ paren,
        ctx.source.tokenAfter keyword.span = some paren ∧ paren.isSign "(" = true ∧
        slice out.toList 0 paren.span.stop =
          slice ctx.source.text.toList 0 paren.span.stop) := by
  have hshaped := h.shaped
  obtain ⟨node, parent, whole, left, right, hnode, hroot, hparent, hwhole, hgrouping, hungroups⟩ :=
    checkGrouping_ungroups hshaped hcheck hp
  -- the statement is the parent of the value
  obtain ⟨stmtNode, hstmtNode, hkind⟩ := Context.exists_node hstmt
  obtain ⟨-, inner, hinner, hup, -⟩ := hshaped.parts stmt stmtNode hstmtNode argument
    (by simp [hkind, Kind.children])
  obtain rfl : inner = node := Option.some.inj ((show _ = some inner from hinner).symm.trans hnode)
  obtain rfl : parent = stmt := Option.some.inj (hparent.symm.trans hup)
  obtain rfl : whole = stmtNode := Option.some.inj (hwhole.symm.trans hstmtNode)
  obtain ⟨keyword, paren, hkeyword, hword, hnext, hparen, hplace⟩ :=
    hshaped.exists_opening hwhole hkind hnode hroot hgrouping
  have hplaced := hungroups.placed hshaped hnode hroot hgrouping
  refine ⟨keyword, left, right, inner.span, _, by rw [hshaped.firstToken_eq_ok hwhole, hkeyword],
    hword, by rw [Context.grouping_eq_ok hnode, hgrouping], Context.span_eq_ok hnode,
    Patch.apply_eq_ok hplaced, fun hafter => ?_, fun hafter => ?_⟩
  · obtain ⟨gap, rest, hout, hbreak⟩ := hungroups.keeps_line hshaped hnode hroot hwhole hkind
      hgrouping hkeyword hafter
    obtain ⟨hstart, hstop⟩ := hshaped.joints hnode hroot
    obtain ⟨-, -, hlt⟩ := h.aligned argument inner hnode hroot
    exact ⟨gap, rest, by rw [String.toList_ofList, hout], hbreak,
      slice_ne_nil hstart.boundary hstop.boundary hlt⟩
  · have hle : paren.span.stop ≤ left.span.start := by
      rcases hplace with rfl | hprecedes
      · exact absurd hnext hafter
      · exact hprecedes
    obtain ⟨hmem, -, -⟩ := Source.tokenAfter_eq_some hshaped.source.tokens hnext
    have hjoint := hshaped.source.joint_stop (Source.mem_lexemes_of_token hmem)
    refine ⟨paren, hnext, hparen, ?_⟩
    rw [String.toList_ofList]
    exact hungroups.keeps_front hshaped hgrouping hkeyword hafter hjoint.boundary hle

/-- The value stands on another line than the keyword in `return(…)`. -/
def returnedBelow : Context where
  tree := ⟨#[
    ⟨.program [1], .upTo 0 10, none⟩,
    ⟨.returnStatement (some 2), .upTo 0 10, some 0⟩,
    ⟨.identifier "a", .upTo 8 9, some 1⟩]⟩
  source := ⟨"return(\na)", #[⟨.word, "return", .upTo 0 6⟩, ⟨.punctuator, "(", .upTo 6 7⟩,
    ⟨.word, "a", .upTo 8 9⟩, ⟨.punctuator, ")", .upTo 9 10⟩], #[]⟩

set_option maxRecDepth 20000 in
theorem wellFormed_returnedBelow : returnedBelow.WellFormed := by decide

set_option maxRecDepth 20000 in
theorem checkGrouping_returnedBelow : checkGrouping returnedBelow 2 =
    .ok (some ⟨2, .parens, .upTo 6 10, some ⟨⟨.upTo 6 8, " "⟩, [⟨.upTo 9 10, ""⟩]⟩⟩) := by
  -- evaluated by equations of the library that no smaller import has together
  cbv

/-- The value is pulled up to the keyword. -/
theorem checkGrouping_keeps_return_line_below : returnedBelow.WellFormed ∧ ∃ d p out gap rest,
    checkGrouping returnedBelow 2 = .ok (some d) ∧ d.patch = some p ∧
    p.apply returnedBelow.source.text = .ok out ∧
    out.toList = slice returnedBelow.source.text.toList 0 6 ++ gap ++
      slice returnedBelow.source.text.toList 8 9 ++ rest ∧ hasBreak gap = false := by
  have hstmt : returnedBelow.kind 1 = .ok (.returnStatement (some 2)) := rfl
  obtain ⟨keyword, left, right, span, out, hkeyword, -, hgrouping, hspan, hout, hline, -⟩ :=
    checkGrouping_keeps_return_line wellFormed_returnedBelow hstmt checkGrouping_returnedBelow rfl
  have hfirst : returnedBelow.firstToken 1 = .ok (some ⟨.word, "return", .upTo 0 6⟩) := by
    decide +kernel
  have hpair : returnedBelow.grouping 2 = .ok (some (⟨.punctuator, "(", .upTo 6 7⟩,
      ⟨.punctuator, ")", .upTo 9 10⟩)) := by decide +kernel
  obtain rfl := Option.some.inj (Except.ok.inj (hfirst.symm.trans hkeyword))
  obtain ⟨rfl, -⟩ := Prod.mk.inj (Option.some.inj (Except.ok.inj (hpair.symm.trans hgrouping)))
  have hvalue : returnedBelow.span 2 = .ok (.upTo 8 9) := rfl
  obtain rfl := Except.ok.inj (hvalue.symm.trans hspan)
  obtain ⟨gap, rest, htext, hbreak, -⟩ := hline (by decide +kernel)
  exact ⟨wellFormed_returnedBelow, _, _, out, gap, rest, checkGrouping_returnedBelow, rfl, hout,
    htext, hbreak⟩

end Pare
