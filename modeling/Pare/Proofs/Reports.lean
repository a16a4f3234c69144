import Pare.Rule.Walk
import Pare.Proofs.Indexing
import Pare.Proofs.Grouping
import Pare.Proofs.Braces
import Pare.Proofs.ArrowBody

/-!
**What the rule reports.**

The rule asks four detectors at every node.  Each of them keeps the contract, so every patch that
the rule offers does: the rule has a result in every well-formed context, its patches fit the text,
take away more than they bring in, and leave the lexemes that the reports promise.

Main results:

* `Pare.Detector.check_of_indexing`, `Pare.Rule.run_of_check` — what holds of the reports of one
  detector holds of those of all four, and what holds at every node holds of the whole;
* `Pare.dropRepeats_sublist` — reports are only dropped on the way;
* `Pare.Rule.run_repairs` — **the rule has a result, and all its patches keep the contract**;
* `Pare.Rule.run_placed` — the rule has a result, and its patches fit the text, whatever values the
  tree gives to its strings;
* `Pare.Rule.run_applicable` — **the rule never breaks down, and its patches can be applied**;
* `Pare.Rule.run_preserves_lexemes` — **the text after a patch is the sequence of lexemes that the
  report promises, with gaps**.
-/

set_option relaxedAutoImplicit false
set_option autoImplicit false

namespace Pare

variable {ctx : Context}

section Found

variable {P : Detection → Prop}

/-- What was found at the members of a list has a property if each finding has it. -/
theorem succeeds_mapM_filterMap {f : NodeId → Except Fault (Option Detection)} {ids : List NodeId}
    (h : ∀ id ∈ ids, Yields (f id) P) :
    Succeeds (do
      let found ← ids.mapM f
      return found.filterMap id) fun found => ∀ d ∈ found, P d := by
  refine (succeeds_mapM (R := fun _ r => ∀ d ∈ r, P d) h).bind fun found hfound => ?_
  refine succeeds_pure fun d hd => ?_
  obtain ⟨r, hr, hrd⟩ := List.mem_filterMap.1 hd
  obtain ⟨-, -, hsound⟩ := hfound r hr
  exact hsound d hrd

/-- What may have been found once has a property if the finding has it. -/
theorem Yields.succeeds_toList {x : Except Fault (Option Detection)} (h : Yields x P) :
    Succeeds (do return (← x).toList) fun found => ∀ d ∈ found, P d := by
  refine h.bind fun r hr => succeeds_pure fun d hd => ?_
  exact hr d (by simpa using hd)

/-- Three detectors rely on no more than the shape of the context, so the one that looks at strings
decides what all of them have in common. -/
theorem Detector.check_of_indexing (h : ctx.Shaped) {id : NodeId} {node : Node}
    (hnode : ctx.tree.nodes[id]? = some node) (hsound : ∀ d : Detection, d.Sound ctx → P d)
    (hindexing : Yields (checkIndexing ctx id) P) (detector : Detector) :
    Succeeds (detector.check ctx id) fun found => ∀ d ∈ found, P d := by
  have hothers : ∀ {x : Except Fault (Option Detection)}, Yields x (Detection.Sound ctx) →
      Yields x P := fun hx => hx.imp fun r hr d hd => hsound d (hr d hd)
  cases detector with
  | indexing => exact hindexing.succeeds_toList
  | grouping =>
      rw [check, Context.kind_eq_ok hnode, ok_bind]
      refine succeeds_mapM_filterMap fun place hplace => ?_
      obtain ⟨part, hpart, hroot⟩ :=
        h.exists_part hnode (mem_children_of_mem_groupingPlaces hplace)
      exact hothers (checkGrouping_repairs h hpart hroot)
  | braces =>
      rw [check, Context.kind_eq_ok hnode, ok_bind]
      exact succeeds_mapM_filterMap fun block hblock =>
        hothers (checkBlock_repairs h hnode hblock)
  | arrowBody => exact (hothers (checkArrowBody_repairs h hnode)).succeeds_toList

/-- What the detectors report at every node is what they report at all of them. -/
theorem reportsAt_of_check
    (hcheck : ∀ (detector : Detector) (id : NodeId) (node : Node), ctx.tree.nodes[id]? = some node →
      Succeeds (detector.check ctx id) fun found => ∀ d ∈ found, P d)
    (detectors : List Detector) {ids : List NodeId} (hids : ∀ id ∈ ids, id < ctx.tree.size) :
    Succeeds (reportsAt ctx detectors ids) fun found => ∀ d ∈ found, P d := by
  have hnode : ∀ id ∈ ids, Succeeds (detectors.mapM (Detector.check ctx id)) fun lists =>
      ∀ found ∈ lists, ∀ d ∈ found, P d := by
    intro id hid
    obtain ⟨node, hnode⟩ := Tree.exists_node (hids id hid)
    refine (succeeds_mapM (R := fun _ found => ∀ d ∈ found, P d) fun detector _ =>
      hcheck detector id node hnode).imp fun lists hlists found hfound => ?_
    obtain ⟨-, -, hsound⟩ := hlists found hfound
    exact hsound
  refine (succeeds_mapM (R := fun _ lists => ∀ found ∈ lists, ∀ d ∈ found, P d)
    hnode).bind fun perNode hperNode => succeeds_pure fun d hd => ?_
  obtain ⟨found, hfound, hd⟩ := List.mem_flatten.1 hd
  obtain ⟨lists, hlists, hfound⟩ := List.mem_flatten.1 hfound
  obtain ⟨-, -, hsound⟩ := hperNode lists hlists
  exact hsound found hfound d hd

theorem dropRepeatsAfter_sublist (kept : Detection) (found : List Detection) :
    (dropRepeatsAfter kept found).Sublist found := by
  induction found generalizing kept with
  | nil => exact .slnil
  | cons d rest ih =>
      rw [dropRepeatsAfter]
      split
      · exact (ih kept).cons d
      · exact (ih d).cons_cons d

/-- Dropping repeated reports adds none and moves none. -/
theorem dropRepeats_sublist (found : List Detection) : (dropRepeats found).Sublist found := by
  cases found with
  | nil => exact .slnil
  | cons d rest => exact (dropRepeatsAfter_sublist d rest).cons_cons d

/-- The rule has a result, and reports nothing but what the detectors report at the nodes. -/
theorem Rule.run_of_check (h : ctx.Shaped)
    (hcheck : ∀ (detector : Detector) (id : NodeId) (node : Node), ctx.tree.nodes[id]? = some node →
      Succeeds (detector.check ctx id) fun found => ∀ d ∈ found, P d) (rule : Rule) :
    Succeeds (rule.run ctx) fun found => ∀ d ∈ found, P d := by
  unfold Rule.run
  split
  · obtain ⟨root, hroot, -⟩ := h.root
    have hin := Tree.lt_size hroot
    rw [walk, h.ranked.descendants_eq_ok hin, ok_bind]
    refine (reportsAt_of_check hcheck Detector.all fun id hid =>
      h.ranked.lt_size_of_mem_preorder hin hid).bind fun found hfound => ?_
    refine succeeds_pure fun d hd => hfound d ?_
    exact List.mem_mergeSort.1 ((dropRepeats_sublist _).subset hd)
  · exact succeeds_pure (by simp)

end Found

/-- **The rule has a result in every well-formed context, and all its patches keep the
contract.** -/
theorem Rule.run_repairs (h : ctx.WellFormed) (rule : Rule) :
    Succeeds (rule.run ctx) fun found => ∀ d ∈ found, d.Sound ctx :=
  Rule.run_of_check h.shaped (fun detector _ _ hnode => detector.check_of_indexing h.shaped hnode
    (fun _ hd => hd) (checkIndexing_repairs h hnode)) rule

/-- The rule has a result in every context of the right shape, and all its patches fit the text. -/
theorem Rule.run_placed (h : ctx.Shaped) (rule : Rule) :
    Succeeds (rule.run ctx) fun found =>
      ∀ d ∈ found, ∀ p ∈ d.patch, Placed ctx.source.text.toList 0 p.edits := by
  refine Rule.run_of_check h (fun detector id node hnode => ?_) rule
  refine detector.check_of_indexing h hnode (fun d hd p hp => (hd p hp).placed) ?_
  refine (checkIndexing_dots h hnode).imp fun r hr d hd p hp => ?_
  obtain ⟨-, keyNode, name, -, -, hdots⟩ := hr d hd
  obtain ⟨left, right, hdots⟩ := hdots p hp
  exact hdots.placed h.source

/-- **The rule never breaks down, and its patches can be applied.**  In every context of the right
shape the rule has a result; every patch in it is a list of edits, not empty, in the order of their
places, apart, inside the text and on its boundaries.  So each patch can be applied, and any choice
of them can be merged. -/
theorem Rule.run_applicable (h : ctx.Shaped) (rule : Rule) :
    Succeeds (rule.run ctx) fun found =>
      (∀ d ∈ found, ∀ p, d.patch = some p →
        p.edits ≠ [] ∧ (p.edits.Pairwise fun a b => a.notAfter b = true) ∧
        (p.edits.Pairwise fun a b => a.span.stop ≤ b.span.start) ∧
        (∀ e ∈ p.edits, e.span.stop ≤ Text.byteSize ctx.source.text.toList ∧
          Text.IsBoundary ctx.source.text.toList e.span.start ∧
          Text.IsBoundary ctx.source.text.toList e.span.stop) ∧
        ∃ out, p.apply ctx.source.text = .ok out) ∧
      ∀ patches : List Patch, (∀ p ∈ patches, ∃ d ∈ found, d.patch = some p) →
        ∃ out, mergePatches ctx.source.text patches = .ok out := by
  refine (Rule.run_placed h rule).imp fun found hfound => ⟨fun d hd p hp => ?_, ?_⟩
  · have hplaced := hfound d hd p hp
    refine ⟨List.cons_ne_nil _ _, hplaced.ordered, hplaced.apart, fun e he => ?_,
      _, Patch.apply_eq_ok hplaced⟩
    obtain ⟨hstart, hstop⟩ := hplaced.boundary e he
    exact ⟨hstop.le_byteSize, hstart, hstop⟩
  · intro patches hpatches
    refine ⟨_, mergePatches_eq_ok fun p hp => ?_⟩
    obtain ⟨d, hd, hdp⟩ := hpatches p hp
    exact hfound d hd p hdp

/-- **The text after a patch is the sequence of lexemes that the report promises, with gaps.**  In
every well-formed context the rule has a result, and each of its patches can be applied; what comes
out are the words of the report, and every gap holds only inserted spaces and characters that lie
outside all tokens and comments of the source.  Where a branch or a body loses its braces, it must
be tight. -/
theorem Rule.run_preserves_lexemes (h : ctx.WellFormed) (rule : Rule) :
    Succeeds (rule.run ctx) fun found => ∀ d ∈ found, ∀ p, d.patch = some p →
      ∃ out, p.apply ctx.source.text = .ok out ∧
        ((ctx.IsControlled d.node → ctx.TightBlock d.node) →
          ∃ words, Respelled ctx d words ∧ Laid ctx.source.Gap words out.toList) := by
  refine (Rule.run_repairs h rule).imp fun found hfound d hd p hp => ?_
  have hrepairs := hfound d hd p hp
  refine ⟨_, Patch.apply_eq_ok hrepairs.placed, fun htight => ?_⟩
  rw [String.toList_ofList]
  exact hrepairs.respells htight

/-! ### A branch -/

/-- The program `if(x){…}` with one word, which may be any text, in the block. -/
def branch (name : String) : Context where
  tree := ⟨#[
    ⟨.program [1], .upTo 0 (7 + name.utf8ByteSize), none⟩,
    ⟨.ifStatement 2 3 none, .upTo 0 (7 + name.utf8ByteSize), some 0⟩,
    ⟨.identifier "x", .upTo 3 4, some 1⟩,
    ⟨.block [4], .upTo 5 (7 + name.utf8ByteSize), some 1⟩,
    ⟨.expressionStatement 5, .upTo 6 (6 + name.utf8ByteSize), some 3⟩,
    ⟨.identifier name, .upTo 6 (6 + name.utf8ByteSize), some 4⟩]⟩
  source := ⟨"if(x)\x7b" ++ name ++ "\x7d", #[
    ⟨.word, "if", .upTo 0 2⟩, ⟨.punctuator, "(", .upTo 2 3⟩, ⟨.word, "x", .upTo 3 4⟩,
    ⟨.punctuator, ")", .upTo 4 5⟩, ⟨.punctuator, "\x7b", .upTo 5 6⟩,
    ⟨.word, name, .upTo 6 (6 + name.utf8ByteSize)⟩,
    ⟨.punctuator, "\x7d", .upTo (6 + name.utf8ByteSize) (7 + name.utf8ByteSize)⟩], #[]⟩

set_option maxRecDepth 20000 in
theorem wellFormed_branch {name : String} (h : name = "a" ∨ name = " a") :
    (branch name).WellFormed := by
  rcases h with rfl | rfl <;> decide

theorem lexemes_branch {name : String} (h : name = "a" ∨ name = " a") :
    (branch name).source.lexemes = (branch name).source.tokens.toList :=
  (wellFormed_branch h).source.lexemes_eq_tokens rfl

/-- The block of a branch with a plain name in it is tight. -/
theorem tightBlock_branch : (branch "a").TightBlock 3 := by
  intro node body hnode _ left right inner hall
  obtain rfl := Option.some.inj hnode
  have hlexemes : (branch "a").source.lexemesIn 5 8 = ⟨.punctuator, "\x7b", .upTo 5 6⟩ ::
      [⟨.word, "a", .upTo 6 7⟩] ++ [⟨.punctuator, "\x7d", .upTo 7 8⟩] := by
    rw [Source.lexemesIn, lexemes_branch (.inl rfl)]
    decide +kernel
  have hsame := List.append_inj' (hlexemes.symm.trans hall) rfl
  obtain rfl := (List.cons.inj hsame.1).2
  constructor
  · intro t ht
    obtain rfl := Option.some.inj ht
    exact ⟨'a', by decide +kernel, by decide +kernel⟩
  · intro t ht
    obtain rfl := Option.some.inj ht
    exact .inr ⟨'a', by decide +kernel, by decide +kernel⟩

set_option maxRecDepth 20000 in
theorem Rule.run_branch : Rule.run {} (branch "a") =
    .ok [⟨3, .braces, .upTo 5 8, some (.single ⟨.upTo 5 8, "a"⟩)⟩] := by
  cbv

/-- The patch that takes the braces away can be applied and merged. -/
theorem Rule.run_applicable_branch : (branch "a").Shaped ∧ ∃ d p out merged,
    Rule.run {} (branch "a") = .ok [d] ∧ d.patch = some p ∧ p.edits ≠ [] ∧
    p.apply (branch "a").source.text = .ok out ∧
      mergePatches (branch "a").source.text [p] = .ok merged := by
  have hshaped := (wellFormed_branch (.inl rfl)).shaped
  obtain ⟨found, hrun, hall, hmerge⟩ := Rule.run_applicable hshaped {}
  obtain rfl := Except.ok.inj (Rule.run_branch.symm.trans hrun)
  obtain ⟨hne, -, -, -, out, hout⟩ := hall _ (List.mem_singleton.2 rfl) _ rfl
  obtain ⟨merged, hmerged⟩ := hmerge [_] fun p hp =>
    ⟨_, List.mem_singleton.2 rfl, (List.mem_singleton.1 hp).symm ▸ rfl⟩
  exact ⟨hshaped, _, _, out, merged, Rule.run_branch, rfl, hne, hout, hmerged⟩

/-- Without its braces the branch has the words that it had, but for the braces. -/
theorem Rule.run_preserves_lexemes_branch : ∃ d p out words,
    Rule.run {} (branch "a") = .ok [d] ∧ d.patch = some p ∧
    p.apply (branch "a").source.text = .ok out ∧ Respelled (branch "a") d words ∧
      Laid (branch "a").source.Gap words out.toList := by
  obtain ⟨found, hrun, hall⟩ := Rule.run_preserves_lexemes (wellFormed_branch (.inl rfl)) {}
  obtain rfl := Except.ok.inj (Rule.run_branch.symm.trans hrun)
  obtain ⟨out, hout, hwords⟩ := hall _ (List.mem_singleton.2 rfl) _ rfl
  obtain ⟨words, hwords⟩ := hwords fun _ => tightBlock_branch
  exact ⟨_, _, out, words, Rule.run_branch, rfl, hout, hwords⟩

set_option maxRecDepth 20000 in
theorem Rule.run_branch_blank : Rule.run {} (branch " a") =
    .ok [⟨3, .braces, .upTo 5 9, some (.single ⟨.upTo 5 9, "a"⟩)⟩] := by
  cbv

/-- Trimming cuts into a word that starts with a blank, so there tight blocks are needed. -/
theorem Rule.run_cuts_blank_word : ∃ d p, Rule.run {} (branch " a") = .ok [d] ∧ d.patch = some p ∧
    (branch " a").WellFormed ∧ ¬ ∃ out words, p.apply (branch " a").source.text = .ok out ∧
      Respelled (branch " a") d words ∧ Laid (branch " a").source.Gap words out.toList := by
  refine ⟨_, _, Rule.run_branch_blank, rfl, wellFormed_branch (.inr rfl), ?_⟩
  rintro ⟨out, words, hout, hwords, hlaid⟩
  have happly : (Patch.single ⟨.upTo 5 9, "a"⟩).apply (branch " a").source.text = .ok "if(x)a" := by
    cbv
  obtain rfl := Except.ok.inj (happly.symm.trans hout)
  -- the word would be among those that are left, but there is no blank any more
  suffices hin : " a" ∈ words by
    have hblank := hlaid.mem_of_mem_word hin (show ' ' ∈ " a".toList by decide +kernel)
    revert hblank
    decide +kernel
  cases hwords with
  | parens hissue => cases hissue
  | brackets hissue => cases hissue
  | body _ _ hblock hstmt =>
      cases hblock
      cases hstmt
  | @braces left right front inner back _ _ _ hleft _ hright hall =>
      have hmem : ⟨.word, " a", .upTo 6 8⟩ ∈ front ++ left :: inner ++ right :: back := by
        rw [← hall, lexemes_branch (.inr rfl)]
        decide +kernel
      refine List.mem_map.2 ⟨⟨.word, " a", .upTo 6 8⟩, ?_, rfl⟩
      simp only [List.mem_append, List.mem_cons] at hmem ⊢
      rcases hmem with (hmem | rfl | hmem) | rfl | hmem
      · exact .inl (.inl hmem)
      · cases hleft
      · exact .inl (.inr hmem)
      · cases hright
      · exact .inr hmem

/-! ### A branch with remarks -/

/-- The program `if(x){…}…` with one word in the block, which may be any text, with comments before
and behind the word and after the block. -/
def remarked (ahead name behind after : String) (comments : Array Token) : Context :=
  let start := 6 + ahead.utf8ByteSize
  let stop := start + name.utf8ByteSize
  let close := stop + behind.utf8ByteSize
  { tree := ⟨#[
      ⟨.program [1], .upTo 0 (close + 1 + after.utf8ByteSize), none⟩,
      ⟨.ifStatement 2 3 none, .upTo 0 (close + 1), some 0⟩,
      ⟨.identifier "x", .upTo 3 4, some 1⟩,
      ⟨.block [4], .upTo 5 (close + 1), some 1⟩,
      ⟨.expressionStatement 5, .upTo start stop, some 3⟩,
      ⟨.identifier name, .upTo start stop, some 4⟩]⟩
    source := ⟨"if(x)\x7b" ++ ahead ++ name ++ behind ++ "\x7d" ++ after, #[
      ⟨.word, "if", .upTo 0 2⟩, ⟨.punctuator, "(", .upTo 2 3⟩, ⟨.word, "x", .upTo 3 4⟩,
      ⟨.punctuator, ")", .upTo 4 5⟩, ⟨.punctuator, "\x7b", .upTo 5 6⟩,
      ⟨.word, name, .upTo start stop⟩, ⟨.punctuator, "\x7d", .upTo close (close + 1)⟩],
      comments⟩ }

/-- A line comment stands before the word. -/
def remarkAhead : Context :=
  remarked "// c\n" "a" "" "" #[⟨.lineComment, "// c", .upTo 6 10⟩]

set_option maxRecDepth 20000 in
theorem wellFormed_remarkAhead : remarkAhead.WellFormed := by
  decide

end Pare
