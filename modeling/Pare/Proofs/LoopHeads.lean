import Pare.Proofs.Exchange

/-!
**The head of a loop.**

In the first part of the head of a `for`, an `in` without brackets around it is the one that makes
the loop run over keys; an `in` that tests for a key must stand in brackets.  A report looks no
further than the parent of a node for a reason to leave its parentheses or braces, but the loop may
be any number of steps up.  So an `in` stays in brackets unless the pair that goes is the only one
around it, and in that case it is bared.

Main results:

* `Pare.Exchange.Leaves.keeps_in` — what one exchange does to an `in` in a node;
* `Pare.Rule.run_keeps_in` — **an `in` in the head of a loop stays in brackets, unless the only pair
  around it goes**;
* `Pare.Rule.run_bares_in` — an arrow function whose `in` is bared.
-/

set_option relaxedAutoImplicit false
set_option autoImplicit false

namespace Pare

variable {ctx : Context}

/-! ### The head of a loop -/

/-- An exchange that leaves every `in` keeps it in brackets, unless the place is bared. -/
theorem Exchange.Leaves.keeps_in {x : Exchange} {d : Detection} {words : List String}
    (hx : x.Leaves ctx d words) (h : ctx.Shaped) (hbracketed : ctx.Bracketed) {id : NodeId}
    {node : Node} (hnode : ctx.tree.nodes[id]? = some node) (hroot : id ≠ Tree.root)
    {front back : List Token} {t : Token}
    (hall : ctx.source.lexemesIn node.span.start node.span.stop = front ++ t :: back)
    (hword : t.isWord "in" = true)
    (hin : InBrackets (front.map Token.word) (back.map Token.word)) :
    x.becomes t = [t.word] ∧
      (InBrackets (front.flatMap x.becomes) (back.flatMap x.becomes) ↔ ¬ x.Bares front back) := by
  have hplain := Token.isPlain_of_isWord hword
  have hmatched := hbracketed.matched_node h.source hnode
  obtain ⟨hstart, hstop⟩ := h.joints hnode hroot
  obtain ⟨outer, more, hsplit⟩ :=
    h.source.exists_append_lexemesIn hstart hstop node.span.start_le_stop
  rw [hall] at hmatched hsplit
  refine ⟨?_, hx.suits.inBrackets_iff hsplit hmatched hplain hin⟩
  rw [hx.suits.becomes_of_isPlain hplain]
  cases hlookup : x.others.lookup t with
  | none => rfl
  | some ws =>
      have hkept := hx.keeps _ (Exchange.mem_of_lookup hlookup)
      rw [hword] at hkept
      cases hkept

/-- **An `in` in the head of a loop stays in brackets, unless the only pair around it goes.**  In
every well-formed context whose brackets match, the rule has a result, and each of its patches can
be applied.  It takes one pair of brackets away or puts another in its place, with some words
beside; where a branch or a body loses its braces, it must be tight.  Every `in` that stands in
brackets within the first part of the head of a `for` is left, and stays in brackets within what
that part becomes, but for one case: the pair that goes is the only one around it within that part,
and nothing takes its place. -/
theorem Rule.run_keeps_in (h : ctx.WellFormed) (hbracketed : ctx.Bracketed) (rule : Rule) :
    Succeeds (rule.run ctx) fun found => ∀ d ∈ found, ∀ p, d.patch = some p →
      ∃ out, p.apply ctx.source.text = .ok out ∧
        ((ctx.IsControlled d.node → ctx.TightBlock d.node) →
          ∃ x, Exchanges ctx d x ∧
            Laid ctx.source.Gap ((ctx.source.lexemes.flatMap x.becomes).map Word.text) out.toList ∧
            ∀ (loop init body : NodeId) (test step : Option NodeId) (span : Span),
              ctx.kind loop = .ok (.forStatement (some init) test step body) →
              ctx.span init = .ok span → ∀ (front back : List Token) (t : Token),
                ctx.source.lexemesIn span.start span.stop = front ++ t :: back →
                t.isWord "in" = true →
                InBrackets (front.map Token.word) (back.map Token.word) →
                x.becomes t = [t.word] ∧
                  (InBrackets (front.flatMap x.becomes) (back.flatMap x.becomes) ↔
                    ¬ x.Bares front back)) := by
  refine ((Rule.run_repairs h rule).and (Rule.run_atPart h rule)).imp fun found hfound d hd p hp =>
    ?_
  obtain ⟨hsound, hpart⟩ := hfound
  have hrepairs := hsound d hd p hp
  refine ⟨_, Patch.apply_eq_ok hrepairs.placed, fun htight => ?_⟩
  obtain ⟨words, hwords, hlaid⟩ := hrepairs.respells htight
  obtain ⟨x, hx⟩ := hwords.exists_leaves h hbracketed (hpart d hd p hp)
  rw [hx.words] at hlaid
  refine ⟨x, hx.made, by rwa [String.toList_ofList], ?_⟩
  intro loop init body test step span hloop hspan front back t hall hword hin
  obtain ⟨whole, hwhole, hkind⟩ := Context.exists_node hloop
  obtain ⟨node, hnode, hroot⟩ := h.shaped.exists_part hwhole
    (show init ∈ whole.kind.children by simp [hkind, Kind.children])
  rw [Context.span_eq_ok hnode] at hspan
  obtain rfl := Except.ok.inj hspan
  exact hx.keeps_in h.shaped hbracketed hnode hroot hall hword hin

/-! ### A test for a key in the head of a loop -/

/-- The loop `for(x=()=>…;;);` with a test for a key in some pairs of parentheses. -/
def keyTest (pairs : Nat) : Context :=
  let start := 10 + pairs
  let stop := start + 6 + pairs
  { tree := ⟨#[
      ⟨.program [1], .upTo 0 (stop + 4), none⟩,
      ⟨.forStatement (some 2) none none 8, .upTo 0 (stop + 4), some 0⟩,
      ⟨.assignment "=" 3 4, .upTo 4 stop, some 1⟩,
      ⟨.identifier "x", .upTo 4 5, some 2⟩,
      ⟨.arrow [] 5 true false, .upTo 6 stop, some 2⟩,
      ⟨.binary "in" 6 7, .upTo start (start + 6), some 4⟩,
      ⟨.identifier "a", .upTo start (start + 1), some 5⟩,
      ⟨.identifier "b", .upTo (start + 5) (start + 6), some 5⟩,
      ⟨.emptyStatement, .upTo (stop + 3) (stop + 4), some 1⟩]⟩
    source := ⟨"for(x=()=>" ++ String.ofList (List.replicate pairs '(') ++ "a in b" ++
        String.ofList (List.replicate pairs ')') ++ ";;);",
      #[⟨.word, "for", .upTo 0 3⟩, ⟨.punctuator, "(", .upTo 3 4⟩, ⟨.word, "x", .upTo 4 5⟩,
        ⟨.punctuator, "=", .upTo 5 6⟩, ⟨.punctuator, "(", .upTo 6 7⟩,
        ⟨.punctuator, ")", .upTo 7 8⟩, ⟨.punctuator, "=>", .upTo 8 10⟩] ++
      ((List.range pairs).map fun i => ⟨.punctuator, "(", .upTo (10 + i) (11 + i)⟩).toArray ++
      #[⟨.word, "a", .upTo start (start + 1)⟩, ⟨.word, "in", .upTo (start + 2) (start + 4)⟩,
        ⟨.word, "b", .upTo (start + 5) (start + 6)⟩] ++
      ((List.range pairs).map fun i =>
        ⟨.punctuator, ")", .upTo (start + 6 + i) (start + 7 + i)⟩).toArray ++
      #[⟨.punctuator, ";", .upTo stop (stop + 1)⟩,
        ⟨.punctuator, ";", .upTo (stop + 1) (stop + 2)⟩,
        ⟨.punctuator, ")", .upTo (stop + 2) (stop + 3)⟩,
        ⟨.punctuator, ";", .upTo (stop + 3) (stop + 4)⟩], #[]⟩ }

set_option maxRecDepth 20000 in
theorem wellFormed_keyTest {pairs : Nat} (h : pairs = 1 ∨ pairs = 2) :
    (keyTest pairs).WellFormed ∧ (keyTest pairs).Bracketed := by
  rcases h with rfl | rfl <;> decide

theorem lexemes_keyTest {pairs : Nat} (h : pairs = 1 ∨ pairs = 2) :
    (keyTest pairs).source.lexemes = (keyTest pairs).source.tokens.toList :=
  (wellFormed_keyTest h).1.source.lexemes_eq_tokens rfl

/-- The test is no block. -/
theorem tightBlock_keyTest (pairs : Nat) : (keyTest pairs).TightBlock 5 := by
  intro node body hnode hkind
  obtain rfl := Option.some.inj hnode
  cases hkind

set_option maxRecDepth 20000 in
theorem Rule.run_keyTest_double : Rule.run {} (keyTest 2) =
    .ok [⟨5, .parens, .upTo 11 19, some ⟨⟨.upTo 11 12, ""⟩, [⟨.upTo 18 19, ""⟩]⟩⟩] := by
  cbv

set_option maxRecDepth 20000 in
theorem Rule.run_keyTest_single : Rule.run {} (keyTest 1) =
    .ok [⟨5, .parens, .upTo 10 18, some ⟨⟨.upTo 10 11, ""⟩, [⟨.upTo 17 18, ""⟩]⟩⟩] := by
  cbv

/-- In two pairs of parentheses the test stays in brackets when one pair goes. -/
theorem Rule.run_keeps_in_double : (keyTest 2).WellFormed ∧ (keyTest 2).Bracketed ∧
    ∃ d p x front t back, Rule.run {} (keyTest 2) = .ok [d] ∧ d.patch = some p ∧
      Exchanges (keyTest 2) d x ∧ t.isWord "in" = true ∧
      (keyTest 2).source.lexemesIn 4 20 = front ++ t :: back ∧
      InBrackets (front.map Token.word) (back.map Token.word) ∧ x.becomes t = [t.word] ∧
      InBrackets (front.flatMap x.becomes) (back.flatMap x.becomes) := by
  obtain ⟨hctx, hbracketed⟩ := wellFormed_keyTest (.inr rfl)
  obtain ⟨found, hrun, hall⟩ := Rule.run_keeps_in hctx hbracketed {}
  obtain rfl := Except.ok.inj (Rule.run_keyTest_double.symm.trans hrun)
  obtain ⟨out, -, hkeeps⟩ := hall _ (List.mem_singleton.2 rfl) _ rfl
  obtain ⟨x, hx, -, hkeeps⟩ := hkeeps fun _ => tightBlock_keyTest 2
  have hlexemes : (keyTest 2).source.lexemesIn 4 20 =
      ((keyTest 2).source.tokens.toList.drop 2).take 8 ++ ⟨.word, "in", .upTo 14 16⟩ ::
        ((keyTest 2).source.tokens.toList.drop 11).take 3 := by
    rw [Source.lexemesIn, lexemes_keyTest (.inr rfl)]
    decide +kernel
  have hin : InBrackets
      ((((keyTest 2).source.tokens.toList.drop 2).take 8).map Token.word)
      ((((keyTest 2).source.tokens.toList.drop 11).take 3).map Token.word) :=
    ⟨[⟨.word, "x"⟩, ⟨.punctuator, "="⟩, ⟨.punctuator, "("⟩, ⟨.punctuator, ")"⟩,
        ⟨.punctuator, "=>"⟩], ⟨.punctuator, "("⟩, [⟨.punctuator, "("⟩, ⟨.word, "a"⟩],
      [⟨.word, "b"⟩, ⟨.punctuator, ")"⟩], ⟨.punctuator, ")"⟩, [], by decide +kernel,
      by decide +kernel, by decide, by decide⟩
  obtain ⟨hstays, hiff⟩ := hkeeps 1 2 8 none none _ rfl rfl _ _ _ hlexemes rfl hin
  refine ⟨hctx, hbracketed, _, _, x, _, _, _, Rule.run_keyTest_double, rfl, hx, rfl, hlexemes, hin,
    hstays, hiff.2 ?_⟩
  -- the words in front of the pair that goes leave the other pair open
  rintro ⟨-, -, outer, before, after, more, hfront, -, houter, -⟩
  have hgrouping : (keyTest 2).grouping 5 = .ok (some (⟨.punctuator, "(", .upTo 11 12⟩,
      ⟨.punctuator, ")", .upTo 18 19⟩)) := by decide +kernel
  obtain rfl := hx.eq_of_parens rfl hgrouping
  have hsplit : ((keyTest 2).source.tokens.toList.drop 2).take 6 ++
      ⟨.punctuator, "(", .upTo 11 12⟩ :: [⟨.word, "a", .upTo 12 13⟩] =
        outer ++ ⟨.punctuator, "(", .upTo 11 12⟩ :: before := hfront
  obtain ⟨rfl, -⟩ := append_cons_inj_of_nodup (by decide +kernel) hsplit
  revert houter
  decide +kernel

/-- **The only pair around an `in` goes.**  The body of an arrow function in the head of a loop
loses its parentheses, and nothing keeps its `in` from being the one of the loop. -/
theorem Rule.run_bares_in : (keyTest 1).WellFormed ∧ (keyTest 1).Bracketed ∧
    ∃ d p x front t back, Rule.run {} (keyTest 1) = .ok [d] ∧ d.patch = some p ∧
      p.apply (keyTest 1).source.text = .ok "for(x=()=>a in b;;);" ∧
      (keyTest 1).kind 1 = .ok (.forStatement (some 2) none none 8) ∧
      (keyTest 1).span 2 = .ok (.upTo 4 18) ∧
      (keyTest 1).source.lexemesIn 4 18 = front ++ t :: back ∧ t.isWord "in" = true ∧
      InBrackets (front.map Token.word) (back.map Token.word) ∧ Exchanges (keyTest 1) d x ∧
      Laid (keyTest 1).source.Gap
        (((keyTest 1).source.lexemes.flatMap x.becomes).map Word.text)
        "for(x=()=>a in b;;);".toList ∧
      x.becomes t = [t.word] ∧
      ¬ InBrackets (front.flatMap x.becomes) (back.flatMap x.becomes) := by
  obtain ⟨hctx, hbracketed⟩ := wellFormed_keyTest (.inl rfl)
  obtain ⟨found, hrun, hsound⟩ := Rule.run_repairs hctx {}
  obtain rfl := Except.ok.inj (Rule.run_keyTest_single.symm.trans hrun)
  have hrepairs := hsound _ (List.mem_singleton.2 rfl) _ rfl
  have happly : (Patch.mk ⟨.upTo 10 11, ""⟩ [⟨.upTo 17 18, ""⟩]).apply (keyTest 1).source.text =
      .ok "for(x=()=>a in b;;);" := by decide +kernel
  have hlexemes : (keyTest 1).source.lexemesIn 4 18 =
      ((keyTest 1).source.tokens.toList.drop 2).take 7 ++ ⟨.word, "in", .upTo 13 15⟩ ::
        ((keyTest 1).source.tokens.toList.drop 10).take 2 := by
    rw [Source.lexemesIn, lexemes_keyTest (.inl rfl)]
    decide +kernel
  have hgrouping : (keyTest 1).grouping 5 = .ok (some (⟨.punctuator, "(", .upTo 10 11⟩,
      ⟨.punctuator, ")", .upTo 17 18⟩)) := by decide +kernel
  -- the words of the outcome
  obtain ⟨words, hwords, hlaid⟩ := hrepairs.respells fun _ => tightBlock_keyTest 1
  have hpart : Detection.AtPart (keyTest 1)
      ⟨5, .parens, .upTo 10 18, some ⟨⟨.upTo 10 11, ""⟩, [⟨.upTo 17 18, ""⟩]⟩⟩ :=
    ⟨fun _ => by decide, fun hbraces => by cases hbraces⟩
  obtain ⟨x, hx⟩ := hwords.exists_leaves hctx hbracketed hpart
  obtain rfl := hx.made.eq_of_parens rfl hgrouping
  have hout := Except.ok.inj ((Patch.apply_eq_ok hrepairs.placed).symm.trans happly)
  rw [hx.words, ← String.toList_ofList (l := rewritten _ _ _ _), hout] at hlaid
  refine ⟨hctx, hbracketed, _, _, _, _, _, _, Rule.run_keyTest_single, rfl, happly, rfl, rfl,
    hlexemes, rfl, ?_, hx.made, hlaid, by decide +kernel,
    Matched.not_inBrackets (by decide +kernel)⟩
  exact ⟨[⟨.word, "x"⟩, ⟨.punctuator, "="⟩, ⟨.punctuator, "("⟩, ⟨.punctuator, ")"⟩,
      ⟨.punctuator, "=>"⟩], ⟨.punctuator, "("⟩, [⟨.word, "a"⟩], [⟨.word, "b"⟩],
    ⟨.punctuator, ")"⟩, [], by decide +kernel, by decide +kernel, by decide, by decide⟩

end Pare
