import Pare.Proofs.Braces

/-!
**What follows a block that is unwrapped.**

When the braces around a statement go, what ends the statement is no longer the closing brace but
whatever comes next.  Two things can go wrong: an `else` that belonged to the construct around the
block is taken over by an `if` without `else` at the end of the statement, and a statement that ends
in an expression runs on into the next token.  Both are looked for at the end of the statement, by
going from an `if` or a loop to its last statement; the search is right as long as that way leads to
the end.  It does not go into a label or a `with`, so an `if` that ends one of these is not seen;
and a brace at the end of a construct that is not looked into counts as the end of a statement, even
where it ends the value of a `throw`.

Main definitions:

* `Pare.Kind.lastStatement?`, `Pare.Context.EndsWith` — what an `if` or a loop ends with;
* `Pare.Context.WayDown`, `Pare.Context.EndsInLast` — a way down the tree, and a node that has
  nothing but its last statement at its end;
* `Pare.Context.EndsInExpression`, `Pare.Source.EndsAt` — statements that may need a semicolon, and
  where none is needed.

Main results:

* `Pare.unwrapPatch_guards`, `Pare.checkBlock_guards` — what was checked before a block is
  unwrapped;
* `Pare.endsOpenIn_eq_false`, `Pare.isTerminatedIn_eq_of_endsWith` — what is found at the end of a
  statement;
* `Pare.checkBlock_keeps_else` — **no `else` is taken over by an `if` at the end of ifs and loops**;
* `Pare.checkBlock_keeps_ends` — **no expression runs on, unless a brace ends a `throw`**.
-/

set_option relaxedAutoImplicit false
set_option autoImplicit false

namespace Pare

variable {ctx : Context}

/-! ### The end of a statement -/

/-- The statement that an `if` or a loop ends with. -/
def Kind.lastStatement? {α : Type} : Kind α → Option α
  | .ifStatement _ consequent alternate => some (alternate.getD consequent)
  | .forStatement _ _ _ body | .forInStatement _ _ body _ | .whileStatement _ body => some body
  | _ => none

/-- The last statement is a part. -/
theorem Kind.mem_children_of_lastStatement? {α : Type} [DecidableEq α] {kind : Kind α} {last : α}
    (h : kind.lastStatement? = some last) : last ∈ kind.children := by
  cases kind with
  | ifStatement test consequent alternate =>
      obtain rfl := Option.some.inj h
      cases alternate <;> simp [children]
  | forStatement | forInStatement | whileStatement =>
      obtain rfl := Option.some.inj h
      simp [children]
  | _ => cases h

namespace Context

/-- A statement ends with another one: it is that, or it is an `if` or a loop whose last statement
reaches its end and ends with the other. -/
inductive EndsWith (ctx : Context) : NodeId → NodeId → Prop
  | here (id : NodeId) : EndsWith ctx id id
  | last {id last target : NodeId} {node inner : Node} (hnode : ctx.tree.nodes[id]? = some node)
      (hlast : node.kind.lastStatement? = some last)
      (hinner : ctx.tree.nodes[last]? = some inner) (hstop : inner.span.stop = node.span.stop)
      (hends : EndsWith ctx last target) : EndsWith ctx id target

/-- A way down from a node to a node below it, with the nodes that are passed, the lower one left
out. -/
inductive WayDown (ctx : Context) : NodeId → List NodeId → NodeId → Prop
  | here (id : NodeId) : WayDown ctx id [] id
  | part {id part target : NodeId} {way : List NodeId} {node : Node}
      (hnode : ctx.tree.nodes[id]? = some node) (hpart : part ∈ node.kind.children)
      (hway : WayDown ctx part way target) : WayDown ctx id (id :: way) target

/-- An `if` or a loop that has none of its parts but its last statement at its end. -/
def EndsInLast (ctx : Context) (id : NodeId) : Prop :=
  ∃ node last, ctx.tree.nodes[id]? = some node ∧ node.kind.lastStatement? = some last ∧
    ∀ part ∈ node.kind.children, ∀ inner, ctx.tree.nodes[part]? = some inner →
      inner.span.stop = node.span.stop → part = last

/-- What is below a node ends in time. -/
theorem WayDown.stop_le (h : ctx.Anchored) {id target : NodeId} {way : List NodeId}
    (hway : ctx.WayDown id way target) {node inner : Node}
    (hnode : ctx.tree.nodes[id]? = some node) (hinner : ctx.tree.nodes[target]? = some inner) :
    inner.span.stop ≤ node.span.stop := by
  induction hway generalizing node with
  | here id =>
      obtain rfl := Option.some.inj (hnode.symm.trans hinner)
      exact Nat.le_refl _
  | part hwhole hpart _ ih =>
      obtain rfl := Option.some.inj (hnode.symm.trans hwhole)
      obtain ⟨middle, hmiddle, -, hinside⟩ := h.exists_part hnode hpart
      exact Nat.le_trans (ih hmiddle hinner) (Span.contains_iff.1 hinside).2

/-- A way down that only passes nodes with nothing but their last statement at their ends leads, if
it leads to the end of a statement, to what the statement ends with. -/
theorem WayDown.endsWith (h : ctx.Anchored) {id target : NodeId} {way : List NodeId}
    (hway : ctx.WayDown id way target) {node inner : Node}
    (hnode : ctx.tree.nodes[id]? = some node) (hinner : ctx.tree.nodes[target]? = some inner)
    (hstop : inner.span.stop = node.span.stop) (hlast : ∀ whole ∈ way, ctx.EndsInLast whole) :
    ctx.EndsWith id target := by
  induction hway generalizing node with
  | here id => exact .here id
  | @part id part target way whole hwhole hpart hway ih =>
      obtain rfl := Option.some.inj (hnode.symm.trans hwhole)
      rw [List.forall_mem_cons] at hlast
      obtain ⟨⟨node', last, hnode', hkind, honly⟩, hlast⟩ := hlast
      obtain rfl := Option.some.inj (hnode.symm.trans hnode')
      obtain ⟨middle, hmiddle, -, hinside⟩ := h.exists_part hnode hpart
      -- the part lies between the target and the whole, which end at one place
      have hmiddleStop : middle.span.stop = node.span.stop := by
        have hle := hway.stop_le h hmiddle hinner
        have hle' := (Span.contains_iff.1 hinside).2
        omega
      obtain rfl := honly part hpart middle hmiddle hmiddleStop
      exact .last hnode hkind hmiddle hmiddleStop
        (ih hmiddle hinner (hstop.trans hmiddleStop.symm) hlast)

namespace Anchored

/-- Nodes that end at one place have one last token. -/
theorem getLast?_eq (h : ctx.Anchored) {a b : NodeId} {m n : Node}
    (ha : ctx.tree.nodes[a]? = some m) (hb : ctx.tree.nodes[b]? = some n) (haroot : a ≠ Tree.root)
    (hbroot : b ≠ Tree.root) (hstop : m.span.stop = n.span.stop) :
    (ctx.tokensOf a).getLast? = (ctx.tokensOf b).getLast? := by
  obtain ⟨t, ht, htstop⟩ := h.exists_last ha haroot
  obtain ⟨u, hu, hustop⟩ := h.exists_last hb hbroot
  have htmem := Shaped.mem_tokens_of_mem_tokensOf (List.mem_of_mem_getLast? ht)
  have humem := Shaped.mem_tokens_of_mem_tokensOf (List.mem_of_mem_getLast? hu)
  have hne := h.tokens.nonempty t htmem
  have hne' := h.tokens.nonempty u humem
  rw [ht, hu]
  rcases h.tokens.trichotomy htmem humem with hbefore | rfl | hbefore
  · simp only [Token.Precedes] at hbefore
    omega
  · rfl
  · simp only [Token.Precedes] at hbefore
    omega

end Anchored

end Context

/-! ### What is found at the end -/

/-- Where no open `if` is found, the statement does not end with one. -/
theorem endsOpenIn_eq_false {depth stmt target : Nat}
    (hopen : endsOpenIn ctx depth stmt = .ok false) (hends : ctx.EndsWith stmt target)
    {node : Node} (hnode : ctx.tree.nodes[target]? = some node) (test consequent : NodeId) :
    node.kind ≠ .ifStatement test consequent none := by
  -- by induction on the way down, which the search follows
  induction hends generalizing depth with
  | here id =>
      intro hkind
      cases depth with
      | zero => cases hopen
      | succ depth =>
          rw [endsOpenIn, Context.kind_eq_ok hnode, ok_bind, hkind] at hopen
          cases hopen
  | @last id last target whole inner hwhole hlast _ _ _ ih =>
      cases depth with
      | zero => cases hopen
      | succ depth =>
          rw [endsOpenIn, Context.kind_eq_ok hwhole, ok_bind] at hopen
          cases hkind : whole.kind with
          | ifStatement test' consequent' alternate =>
              rw [hkind] at hopen hlast
              cases alternate with
              | none => cases hopen
              | some alternate =>
                  obtain rfl := Option.some.inj hlast
                  exact ih hopen hnode
          | forStatement | forInStatement | whileStatement =>
              rw [hkind] at hopen hlast
              obtain rfl := Option.some.inj hlast
              exact ih hopen hnode
          | _ =>
              rw [hkind] at hlast
              cases hlast

/-- Where the last token is no semicolon, what is found at the end of a statement is what is found
at the end of the statement that it ends with. -/
theorem isTerminatedIn_eq_of_endsWith (h : ctx.Anchored) {stmt final : NodeId} {node : Node}
    {last : Token} (hends : ctx.EndsWith stmt final) (hroot : stmt ≠ Tree.root)
    (hnode : ctx.tree.nodes[stmt]? = some node)
    (hlast : (ctx.tokensOf stmt).getLast? = some last) (hsign : last.isSign ";" = false)
    {depth : Nat} {b : Bool} (hterminated : isTerminatedIn ctx depth stmt = .ok b) :
    (ctx.tokensOf final).getLast? = some last ∧
      ∃ depth, isTerminatedIn ctx (depth + 1) final = .ok b := by
  induction hends generalizing depth node with
  | here id =>
      cases depth with
      | zero => cases hterminated
      | succ depth => exact ⟨hlast, depth, hterminated⟩
  | @last id inner target whole innerNode hwhole hkind hinner hstop _ ih =>
      have hpart := Kind.mem_children_of_lastStatement? hkind
      obtain ⟨-, -, hinnerRoot, -⟩ := h.exists_part hwhole hpart
      -- the inner statement ends where the whole does, so both have one last token
      have hsame := h.getLast?_eq hinner hwhole hinnerRoot hroot hstop
      cases depth with
      | zero => cases hterminated
      | succ depth =>
          have hdown : isTerminatedIn ctx depth inner = .ok b := by
            rw [isTerminatedIn, h.lastToken_eq_ok hwhole, ok_bind, hlast] at hterminated
            simp only [hsign, Context.kind_eq_ok hwhole, ok_bind] at hterminated
            cases hcase : whole.kind with
            | ifStatement | forStatement | forInStatement | whileStatement =>
                rw [hcase] at hterminated hkind
                obtain rfl := Option.some.inj hkind
                exact hterminated
            | _ =>
                rw [hcase] at hkind
                cases hkind
          exact ih hinnerRoot hinner (hsame.trans hlast) hdown

/-! ### What is checked before a block is unwrapped -/

/-- A block is unwrapped only if its statement is terminated or the end of the block is a clean one,
and only if no `if` is open or no `else` follows. -/
theorem unwrapPatch_guards (h : ctx.Anchored) {block stmt : NodeId} {node : Node} {p : Patch}
    (hnode : ctx.tree.nodes[block]? = some node) (hroot : block ≠ Tree.root)
    (hpatch : unwrapPatch ctx block stmt = .ok (some p)) :
    (isTerminated ctx stmt = .ok true ∨ endsCleanly ctx node.span.stop = true) ∧
      (endsOpen ctx stmt = .ok false ∨ nextIsWord ctx node.span.stop "else" = false) := by
  obtain ⟨right, hright, hstop⟩ := h.exists_last hnode hroot
  rw [← hstop]
  obtain ⟨span, -, hpatch⟩ := bind_eq_ok.1 hpatch
  obtain ⟨_ | left, -, hpatch⟩ := bind_eq_ok.1 hpatch
  · cases hpatch
  rw [h.lastToken_eq_ok hnode, hright] at hpatch
  obtain ⟨-, hpatch⟩ := unless_eq_some hpatch
  obtain ⟨_ | first, -, hpatch⟩ := bind_eq_ok.1 hpatch
  · cases hpatch
  obtain ⟨_ | last, -, hpatch⟩ := bind_eq_ok.1 hpatch
  · cases hpatch
  rcases hafter : ctx.source.tokenAfter left.span with _ | afterLeft
  · rw [hafter] at hpatch
    cases hpatch
  rcases hbefore : ctx.source.tokenBefore right.span with _ | beforeRight
  · rw [hafter, hbefore] at hpatch
    cases hpatch
  rw [hafter, hbefore] at hpatch
  obtain ⟨-, hpatch⟩ := unless_eq_some hpatch
  obtain ⟨trailing, -, hpatch⟩ := bind_eq_ok.1 hpatch
  obtain ⟨-, hpatch⟩ := unless_eq_some hpatch
  -- the two guards are passed one after the other
  obtain ⟨terminated, hterminated, hpatch⟩ := bind_eq_ok.1 hpatch
  obtain ⟨hclean, hpatch⟩ := unless_eq_some hpatch
  obtain ⟨openEnd, hopen, hpatch⟩ := bind_eq_ok.1 hpatch
  obtain ⟨helse, -⟩ := unless_eq_some hpatch
  rw [hterminated, hopen]
  simp only [Bool.and_eq_false_iff, Bool.not_eq_false'] at hclean helse
  exact ⟨hclean.imp_left (congrArg Except.ok), helse.imp_left (congrArg Except.ok)⟩

/-- A block that is unwrapped holds one statement, and one of the checks for each of the two dangers
was passed. -/
theorem checkBlock_guards (h : ctx.Anchored) {block controlling : NodeId} {whole : Node}
    (hwhole : ctx.tree.nodes[controlling]? = some whole)
    (hblock : block ∈ controlledBlocks whole.kind) {d : Detection} {p : Patch}
    (hcheck : checkBlock ctx block controlling = .ok (some d)) (hp : d.patch = some p) :
    ∃ blockNode stmt node, ctx.tree.nodes[block]? = some blockNode ∧
      blockNode.kind = .block [stmt] ∧ ctx.tree.nodes[stmt]? = some node ∧ stmt ≠ Tree.root ∧
      (isTerminated ctx stmt = .ok true ∨ endsCleanly ctx blockNode.span.stop = true) ∧
      (endsOpen ctx stmt = .ok false ∨ nextIsWord ctx blockNode.span.stop "else" = false) := by
  obtain ⟨blockNode, hnode, hroot, -⟩ :=
    h.exists_part hwhole (mem_children_of_mem_controlledBlocks hblock)
  obtain ⟨-, -, stmt, hkind, hpatch⟩ := checkBlock_found hcheck
  rw [Context.kind_eq_ok hnode] at hkind
  have hkind := Except.ok.inj hkind
  obtain ⟨node, hstmt, hstmtRoot, -⟩ := h.exists_part hnode
    (show stmt ∈ blockNode.kind.children by simp [hkind, Kind.children])
  exact ⟨blockNode, stmt, node, hnode, hkind, hstmt, hstmtRoot, unwrapPatch_guards h hnode hroot
    (hpatch p hp)⟩

/-! ### An `else` after the block -/

/-- The first code token at or after an offset. -/
def Source.following (s : Source) (offset : Nat) : Option Token :=
  s.tokens.toList.find? fun t => offset ≤ t.span.start

theorem Source.tokenAfter_point {s : Source} (h : InOrder s.tokens.toList) (offset : Nat) :
    s.tokenAfter (.point offset) = s.following offset := by
  rw [tokenAfter_eq h, Span.stop_point, List.head?_filter, following]

/-- **No `else` is taken over by an `if` at the end of ifs and loops.**  If a block is unwrapped and
the next token is the word `else`, then no `if` without `else` ends where the statement of the block
does, at whatever depth it lies in the statement, unless the way down to it passes a node that is no
`if` or loop, or one that has something else than its last statement at its end. -/
theorem checkBlock_keeps_else (h : ctx.Anchored) {block controlling : NodeId} {whole : Node}
    (hwhole : ctx.tree.nodes[controlling]? = some whole)
    (hblock : block ∈ controlledBlocks whole.kind) {d : Detection} {p : Patch}
    (hcheck : checkBlock ctx block controlling = .ok (some d)) (hp : d.patch = some p) :
    ∃ blockNode stmt node, ctx.tree.nodes[block]? = some blockNode ∧
      blockNode.kind = .block [stmt] ∧ ctx.tree.nodes[stmt]? = some node ∧
      ∀ next, ctx.source.following blockNode.span.stop = some next → next.isWord "else" = true →
        ∀ way target inner test consequent, ctx.WayDown stmt way target →
          ctx.tree.nodes[target]? = some inner → inner.kind = .ifStatement test consequent none →
          inner.span.stop = node.span.stop → ∃ passed ∈ way, ¬ ctx.EndsInLast passed := by
  obtain ⟨blockNode, stmt, node, hnode, hkind, hstmt, -, -, hguard⟩ :=
    checkBlock_guards h hwhole hblock hcheck hp
  refine ⟨blockNode, stmt, node, hnode, hkind, hstmt, ?_⟩
  intro next hnext helse way target inner test consequent hway hinner hif hstop
  by_contra hall
  push Not at hall
  have hends := hway.endsWith h hstmt hinner hstop hall
  rcases hguard with hclosed | hnot
  · exact endsOpenIn_eq_false hclosed hends hinner test consequent hif
  · simp [nextIsWord, Source.tokenAfter_point h.tokens, hnext, helse] at hnot

/-- A label hides the open `if` in `if(a){l:if(b)c;}else d;`. -/
def labelled : Context where
  tree := ⟨#[
    ⟨.program [1], .upTo 0 23, none⟩,
    ⟨.ifStatement 2 3 (some 10), .upTo 0 23, some 0⟩,
    ⟨.identifier "a", .upTo 3 4, some 1⟩,
    ⟨.block [4], .upTo 5 16, some 1⟩,
    ⟨.other [5, 6], .upTo 6 15, some 3⟩,
    ⟨.identifier "l", .upTo 6 7, some 4⟩,
    ⟨.ifStatement 7 8 none, .upTo 8 15, some 4⟩,
    ⟨.identifier "b", .upTo 11 12, some 6⟩,
    ⟨.expressionStatement 9, .upTo 13 15, some 6⟩,
    ⟨.identifier "c", .upTo 13 14, some 8⟩,
    ⟨.expressionStatement 11, .upTo 21 23, some 1⟩,
    ⟨.identifier "d", .upTo 21 22, some 10⟩]⟩
  source := ⟨"if(a)\x7bl:if(b)c;\x7delse d;", #[
    ⟨.word, "if", .upTo 0 2⟩, ⟨.punctuator, "(", .upTo 2 3⟩, ⟨.word, "a", .upTo 3 4⟩,
    ⟨.punctuator, ")", .upTo 4 5⟩, ⟨.punctuator, "\x7b", .upTo 5 6⟩, ⟨.word, "l", .upTo 6 7⟩,
    ⟨.punctuator, ":", .upTo 7 8⟩, ⟨.word, "if", .upTo 8 10⟩, ⟨.punctuator, "(", .upTo 10 11⟩,
    ⟨.word, "b", .upTo 11 12⟩, ⟨.punctuator, ")", .upTo 12 13⟩, ⟨.word, "c", .upTo 13 14⟩,
    ⟨.punctuator, ";", .upTo 14 15⟩, ⟨.punctuator, "\x7d", .upTo 15 16⟩,
    ⟨.word, "else", .upTo 16 20⟩, ⟨.word, "d", .upTo 21 22⟩, ⟨.punctuator, ";", .upTo 22 23⟩],
    #[]⟩

set_option maxRecDepth 20000 in
theorem wellFormed_labelled : labelled.WellFormed := by decide

theorem checkBlock_labelled : checkBlock labelled 3 1 =
    .ok (some ⟨3, .braces, .upTo 5 16, some (.single ⟨.upTo 5 16, "l:if(b)c;"⟩)⟩) := by
  decide +kernel

theorem wayDown_labelled : labelled.WayDown 4 [4] 6 :=
  .part rfl (by decide) (.here 6)

/-- The way down to the open `if` passes the label, which is no `if` and no loop. -/
theorem checkBlock_keeps_else_labelled : labelled.Anchored ∧ ∃ passed ∈ [4],
    ¬ labelled.EndsInLast passed := by
  have hanchored := wellFormed_labelled.shaped.anchored
  have hwhole : labelled.tree.nodes[1]? =
      some ⟨.ifStatement 2 3 (some 10), .upTo 0 23, some 0⟩ := rfl
  obtain ⟨blockNode, stmt, node, hblock, hkind, hstmt, hall⟩ :=
    checkBlock_keeps_else hanchored hwhole (by decide) checkBlock_labelled rfl
  obtain rfl := Option.some.inj hblock
  cases hkind
  obtain rfl := Option.some.inj hstmt
  exact ⟨hanchored, hall ⟨.word, "else", .upTo 16 20⟩ (by decide +kernel) rfl [4] 6 _ 7 8
    wayDown_labelled rfl rfl rfl⟩

/-- **A label hides an open `if`, which then takes over the `else`.**  The block is unwrapped, an
`else` follows it, and its statement ends with an `if` without `else`. -/
theorem checkBlock_labelled_takes_else : labelled.WellFormed ∧ ∃ d p next,
    checkBlock labelled 3 1 = .ok (some d) ∧ d.patch = some p ∧
    p.apply labelled.source.text = .ok "if(a)l:if(b)c;else d;" ∧
    labelled.source.following 16 = some next ∧ next.isWord "else" = true ∧
    labelled.WayDown 4 [4] 6 ∧ labelled.kind 6 = .ok (.ifStatement 7 8 none) ∧
    labelled.span 3 = .ok (.upTo 5 16) ∧ labelled.kind 3 = .ok (.block [4]) ∧
    labelled.span 4 = .ok (.upTo 6 15) ∧ labelled.span 6 = .ok (.upTo 8 15) :=
  ⟨wellFormed_labelled, _, _, ⟨.word, "else", .upTo 16 20⟩, checkBlock_labelled, rfl,
    by decide +kernel, by decide +kernel, rfl, wayDown_labelled, rfl, rfl, rfl, rfl, rfl⟩

/-! ### The end of an expression -/

/-- A statement that ends in an expression, after which a semicolon may have to be supplied: an
expression, a `return` with a value, or a `throw`. -/
def Context.EndsInExpression (ctx : Context) (id : NodeId) : Prop :=
  ∃ node, ctx.tree.nodes[id]? = some node ∧
    ((∃ value, node.kind = .expressionStatement value) ∨
      (∃ value, node.kind = .returnStatement (some value)) ∨
      ∃ parts first, node.kind = .other parts ∧ (ctx.tokensOf id).head? = some first ∧
        first.isWord "throw" = true)

/-- Nothing that comes after an offset carries on what ends there: there is no further token, or it
is a closing brace, or it stands on another line and does not carry on an expression. -/
def Source.EndsAt (s : Source) (offset : Nat) : Prop :=
  ∀ next, s.following offset = some next → next.isSign "\x7d" = true ∨
    s.breakBetween offset next.span.start = true ∧ next.continuesExpression = false

theorem endsAt_of_endsCleanly (h : InOrder ctx.source.tokens.toList) {offset : Nat}
    (hclean : endsCleanly ctx offset = true) : ctx.source.EndsAt offset := by
  intro next hnext
  rw [endsCleanly, Source.tokenAfter_point h, hnext] at hclean
  simpa using hclean

/-- A statement that ends in an expression, but not in a semicolon, is terminated only if a brace
ends a `throw`. -/
theorem sign_of_isTerminatedIn (h : ctx.Anchored) {final : NodeId} {last : Token} {depth : Nat}
    (hfinal : ctx.EndsInExpression final) (hlast : (ctx.tokensOf final).getLast? = some last)
    (hsign : last.isSign ";" = false)
    (hterminated : isTerminatedIn ctx (depth + 1) final = .ok true) :
    (∃ parts, ctx.kind final = .ok (.other parts)) ∧ last.isSign "\x7d" = true := by
  obtain ⟨node, hnode, hcase⟩ := hfinal
  rw [isTerminatedIn, h.lastToken_eq_ok hnode, ok_bind, hlast] at hterminated
  simp only [hsign, Context.kind_eq_ok hnode, ok_bind] at hterminated ⊢
  rcases hcase with ⟨value, hkind⟩ | ⟨value, hkind⟩ | ⟨parts, first, hkind, -⟩
  · rw [hkind] at hterminated
    cases hterminated
  · rw [hkind] at hterminated
    cases hterminated
  · rw [hkind] at hterminated
    exact ⟨⟨parts, by rw [hkind]⟩, Except.ok.inj hterminated⟩

/-- **No expression runs on, unless a brace ends a `throw`.**  If a block is unwrapped whose
statement ends in an expression, itself or as the last statement of ifs and loops, and the last
token of the statement is no semicolon, then nothing that comes after the block carries the
expression on; the one exception is a `throw` whose last token is a closing brace. -/
theorem checkBlock_keeps_ends (h : ctx.Anchored) {block controlling : NodeId} {whole : Node}
    (hwhole : ctx.tree.nodes[controlling]? = some whole)
    (hblock : block ∈ controlledBlocks whole.kind) {d : Detection} {p : Patch}
    (hcheck : checkBlock ctx block controlling = .ok (some d)) (hp : d.patch = some p) :
    ∃ blockNode stmt, ctx.tree.nodes[block]? = some blockNode ∧ blockNode.kind = .block [stmt] ∧
      ∀ final last, ctx.EndsWith stmt final → ctx.EndsInExpression final →
        (ctx.tokensOf stmt).getLast? = some last → last.isSign ";" = false →
        ctx.source.EndsAt blockNode.span.stop ∨
          (∃ parts, ctx.kind final = .ok (.other parts)) ∧ last.isSign "\x7d" = true := by
  obtain ⟨blockNode, stmt, node, hnode, hkind, hstmt, hstmtRoot, hguard, -⟩ :=
    checkBlock_guards h hwhole hblock hcheck hp
  refine ⟨blockNode, stmt, hnode, hkind, ?_⟩
  intro final last hends hfinal hlast hsign
  rcases hguard with hterminated | hclean
  · obtain ⟨hfinalLast, depth, hdown⟩ :=
      isTerminatedIn_eq_of_endsWith h hends hstmtRoot hstmt hlast hsign hterminated
    exact .inr (sign_of_isTerminatedIn h hfinal hfinalLast hsign hdown)
  · exact .inl (endsAt_of_endsCleanly h.tokens hclean)

/-- The end of a line ends the expression in `if(a){b}` when its braces go. -/
def lineEnded : Context where
  tree := ⟨#[
    ⟨.program [1, 6], .upTo 0 10, none⟩,
    ⟨.ifStatement 2 3 none, .upTo 0 8, some 0⟩,
    ⟨.identifier "a", .upTo 3 4, some 1⟩,
    ⟨.block [4], .upTo 5 8, some 1⟩,
    ⟨.expressionStatement 5, .upTo 6 7, some 3⟩,
    ⟨.identifier "b", .upTo 6 7, some 4⟩,
    ⟨.expressionStatement 7, .upTo 9 10, some 0⟩,
    ⟨.identifier "c", .upTo 9 10, some 6⟩]⟩
  source := ⟨"if(a)\x7bb\x7d\nc", #[
    ⟨.word, "if", .upTo 0 2⟩, ⟨.punctuator, "(", .upTo 2 3⟩, ⟨.word, "a", .upTo 3 4⟩,
    ⟨.punctuator, ")", .upTo 4 5⟩, ⟨.punctuator, "\x7b", .upTo 5 6⟩, ⟨.word, "b", .upTo 6 7⟩,
    ⟨.punctuator, "\x7d", .upTo 7 8⟩, ⟨.word, "c", .upTo 9 10⟩], #[]⟩

set_option maxRecDepth 20000 in
theorem wellFormed_lineEnded : lineEnded.WellFormed := by decide

theorem checkBlock_lineEnded : checkBlock lineEnded 3 1 =
    .ok (some ⟨3, .braces, .upTo 5 8, some (.single ⟨.upTo 5 8, "b"⟩)⟩) := by
  decide +kernel

/-- The expression in the block does not run on into the next line. -/
theorem checkBlock_keeps_ends_line : lineEnded.Anchored ∧ lineEnded.source.EndsAt 8 := by
  have hanchored := wellFormed_lineEnded.shaped.anchored
  have hwhole : lineEnded.tree.nodes[1]? =
      some ⟨.ifStatement 2 3 none, .upTo 0 8, some 0⟩ := rfl
  obtain ⟨blockNode, stmt, hblock, hkind, hall⟩ :=
    checkBlock_keeps_ends hanchored hwhole (by decide) checkBlock_lineEnded rfl
  obtain rfl := Option.some.inj hblock
  cases hkind
  obtain hends | ⟨-, hsign⟩ := hall 4 ⟨.word, "b", .upTo 6 7⟩ (.here 4)
    ⟨_, rfl, .inl ⟨5, rfl⟩⟩ (by decide +kernel) (by decide)
  · exact ⟨hanchored, hends⟩
  · exact absurd hsign (by decide)

/-- A brace ends the value, but not the statement, in `if(a){throw{}}`. -/
def thrown : Context where
  tree := ⟨#[
    ⟨.program [1, 6], .upTo 0 15, none⟩,
    ⟨.ifStatement 2 3 none, .upTo 0 14, some 0⟩,
    ⟨.identifier "a", .upTo 3 4, some 1⟩,
    ⟨.block [4], .upTo 5 14, some 1⟩,
    ⟨.other [5], .upTo 6 13, some 3⟩,
    ⟨.object [], .upTo 11 13, some 4⟩,
    ⟨.expressionStatement 7, .upTo 14 15, some 0⟩,
    ⟨.identifier "b", .upTo 14 15, some 6⟩]⟩
  source := ⟨"if(a)\x7bthrow\x7b\x7d\x7db", #[
    ⟨.word, "if", .upTo 0 2⟩, ⟨.punctuator, "(", .upTo 2 3⟩, ⟨.word, "a", .upTo 3 4⟩,
    ⟨.punctuator, ")", .upTo 4 5⟩, ⟨.punctuator, "\x7b", .upTo 5 6⟩,
    ⟨.word, "throw", .upTo 6 11⟩, ⟨.punctuator, "\x7b", .upTo 11 12⟩,
    ⟨.punctuator, "\x7d", .upTo 12 13⟩, ⟨.punctuator, "\x7d", .upTo 13 14⟩,
    ⟨.word, "b", .upTo 14 15⟩], #[]⟩

set_option maxRecDepth 20000 in
theorem wellFormed_thrown : thrown.WellFormed := by decide

/-- **A brace that ends the value of a `throw` is taken for the end of the statement.**  The block
is unwrapped, and the next token stands on the same line. -/
theorem checkBlock_thrown_runs_on : thrown.WellFormed ∧ ∃ d p next last,
    checkBlock thrown 3 1 = .ok (some d) ∧ d.patch = some p ∧
    p.apply thrown.source.text = .ok "if(a)throw\x7b\x7db" ∧
    thrown.kind 3 = .ok (.block [4]) ∧ thrown.span 3 = .ok (.upTo 5 14) ∧
    thrown.EndsInExpression 4 ∧ (thrown.tokensOf 4).getLast? = some last ∧
    last.isSign ";" = false ∧ thrown.source.following 14 = some next ∧
    next.isSign "\x7d" = false ∧ thrown.source.breakBetween 14 next.span.start = false := by
  have hcheck : checkBlock thrown 3 1 =
      .ok (some ⟨3, .braces, .upTo 5 14, some (.single ⟨.upTo 5 14, "throw\x7b\x7d"⟩)⟩) := by
    decide +kernel
  exact ⟨wellFormed_thrown, _, _, ⟨.word, "b", .upTo 14 15⟩, ⟨.punctuator, "\x7d", .upTo 12 13⟩,
    hcheck, rfl, by decide +kernel, rfl, rfl,
    ⟨_, rfl, .inr (.inr ⟨[5], ⟨.word, "throw", .upTo 6 11⟩, rfl, by decide +kernel, by decide⟩)⟩,
    by decide +kernel, by decide, by decide +kernel, by decide, by decide +kernel⟩

end Pare
