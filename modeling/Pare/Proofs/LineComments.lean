import Pare.Proofs.Reports

/-!
**Line comments never swallow code.**

A patch moves what stands behind a line comment, and if the break between the two goes, the comment
takes in code.  All patches keep that break: parentheses go by themselves, a block with a line
comment right before its closing brace is left alone, and the value of an arrow function keeps the
breaks behind its line comments.  What is joined from such patches keeps the breaks as well.

Two places are left out.  Unwrapping a block trims the text between the braces, which may cut into a
line comment that starts with a blank, or take the break away if the lexemes that follow in the
block are all blank.  And the semicolon behind a returned value is dropped, even where it is part of
the value and a line comment stands in front of it.  `Pare.Detection.Clear` says that there is no
such line comment.

Main definitions:

* `Pare.Context.LosesLines` — a context in which a line comment or the break behind it is lost.

Main results:

* `Pare.Rule.run_keeps_line_comments` — **no patch, and no pass over all of them, loses a line
  comment or the break behind it**;
* `Pare.Rule.run_loses_line_comments` — in the places left out it may be lost.
-/

set_option relaxedAutoImplicit false
set_option autoImplicit false

namespace Pare

variable {ctx : Context}

/-- **Line comments never swallow code.**  In a well-formed context in which a line ends after every
line comment, each patch can be applied, and so can all of them in one pass.  What comes out has
the line comments of the source, and a line still ends after each of them, as far as the reports
whose patches were applied are clear.  Braces with a line comment right before the closing one are
never taken away. -/
theorem Rule.run_keeps_line_comments (h : ctx.WellFormed) (hlines : ctx.source.LinesEnd)
    (rule : Rule) :
    Succeeds (rule.run ctx) fun found =>
      (∀ d ∈ found, ∀ p, d.patch = some p → ∃ out, p.apply ctx.source.text = .ok out ∧
        (d.Clear ctx → ctx.source.KeepsLines p.edits out)) ∧
      (∀ d ∈ found, d.issue = .braces → ctx.EndsInLineComment d.node → d.patch = none) ∧
      ∃ out, mergePatches ctx.source.text (found.filterMap Detection.patch) =
          .ok (out, (accepted (found.filterMap Detection.patch)).length) ∧
        ((∀ p ∈ accepted (found.filterMap Detection.patch),
            ∃ d ∈ found, d.patch = some p ∧ d.Clear ctx) →
          ctx.source.KeepsLines
            ((accepted (found.filterMap Detection.patch)).flatMap Patch.edits) out) := by
  refine (Rule.run_repairs h rule).imp fun found hfound => ⟨?_, ?_, ?_⟩
  · intro d hd p hp
    have hrepairs := hfound d hd p hp
    refine ⟨_, Patch.apply_eq_ok hrepairs.placed, fun hclear => ?_⟩
    exact h.source.keepsLines hlines (hrepairs.rewords hlines hclear) hrepairs.placed
  · intro d hd hissue hends
    refine Option.eq_none_iff_forall_ne_some.2 fun p hp => ?_
    exact (hfound d hd p hp).unremarked hissue hends
  · have hplaced : ∀ p ∈ found.filterMap Detection.patch,
        Placed ctx.source.text.toList 0 p.edits := by
      intro p hp
      obtain ⟨d, hd, hpatch⟩ := List.mem_filterMap.1 hp
      exact (hfound d hd p hpatch).placed
    refine ⟨_, mergePatches_eq_ok hplaced, fun hclear => ?_⟩
    refine h.source.keepsLines hlines (.flatMap fun p hp => ?_) (placed_accepted hplaced)
    obtain ⟨d, hd, hpatch, hd'⟩ := hclear p hp
    exact (hfound d hd p hpatch).rewords hlines hd'

/-! ### Blocks with line comments -/

theorem lexemes_remarkAhead : remarkAhead.source.lexemesIn 5 13 =
    ⟨.punctuator, "\x7b", .upTo 5 6⟩ ::
      [⟨.lineComment, "// c", .upTo 6 10⟩, ⟨.word, "a", .upTo 11 12⟩] ++
      [⟨.punctuator, "\x7d", .upTo 12 13⟩] := by
  cbv

theorem clear_remarkAhead {d : Detection} (hd : d.node = 3) : d.Clear remarkAhead where
  block := by
    rw [hd]
    intro _ node body hnode _ left right inner hall
    obtain rfl := Option.some.inj hnode
    have hsame := List.append_inj' (lexemes_remarkAhead.symm.trans hall) rfl
    obtain rfl := (List.cons.inj hsame.1).2
    refine ⟨⟨fun _ => ⟨'/', rfl, by decide +kernel⟩, fun hblank => ?_⟩, ⟨fun _ _ => ?_, ?_⟩⟩
    · exact absurd hblank (by decide +kernel)
    · exact ⟨_, List.mem_singleton.2 rfl, by decide +kernel⟩
    · exact ⟨fun hline => absurd hline (by decide +kernel), trivial⟩
  value := by
    rw [hd]
    intro arrow stmt argument params isAsync _ hblock hstmt
    cases hblock
    cases hstmt

set_option maxRecDepth 20000 in
theorem Rule.run_remarkAhead : Rule.run {} remarkAhead =
    .ok [⟨3, .braces, .upTo 5 13, some (.single ⟨.upTo 5 13, "// c\na"⟩)⟩] := by
  cbv

/-- A line comment stands behind the word. -/
def remarkBehind : Context :=
  remarked "" "a" "// c\n" "" #[⟨.lineComment, "// c", .upTo 7 11⟩]

set_option maxRecDepth 20000 in
theorem wellFormed_remarkBehind : remarkBehind.WellFormed := by
  decide

theorem endsInLineComment_remarkBehind : remarkBehind.EndsInLineComment 3 := by
  refine ⟨⟨.block [4], .upTo 5 13, some 1⟩, ⟨.punctuator, "\x7b", .upTo 5 6⟩,
    ⟨.punctuator, "\x7d", .upTo 12 13⟩, ⟨.lineComment, "// c", .upTo 7 11⟩,
    [⟨.word, "a", .upTo 6 7⟩, ⟨.lineComment, "// c", .upTo 7 11⟩], rfl, ?_, rfl, rfl⟩
  cbv

set_option maxRecDepth 20000 in
theorem Rule.run_remarkBehind :
    Rule.run {} remarkBehind = .ok [⟨3, .braces, .upTo 5 13, none⟩] := by
  cbv

/-- Without its braces the branch has the line comment that stands before the word, and the word is
on the next line; with a line comment behind the word, it keeps its braces. -/
theorem Rule.run_keeps_line_comments_ahead :
    (∃ d p out all, Rule.run {} remarkAhead = .ok [d] ∧
      d.patch = some p ∧ p.apply remarkAhead.source.text = .ok out ∧
      remarkAhead.source.KeepsLines p.edits out ∧
      mergePatches remarkAhead.source.text [p] = .ok (all, 1) ∧
      remarkAhead.source.KeepsLines ([p].flatMap Patch.edits) all) ∧
    ∃ d, Rule.run {} remarkBehind = .ok [d] ∧ d.issue = .braces ∧
      remarkBehind.EndsInLineComment d.node ∧ d.patch = none := by
  obtain ⟨found, hrun, hall, -, all, hmerge, hpass⟩ :=
    Rule.run_keeps_line_comments wellFormed_remarkAhead (by decide +kernel) {}
  obtain ⟨found', hrun', -, hkept, -⟩ :=
    Rule.run_keeps_line_comments wellFormed_remarkBehind (by decide +kernel) {}
  obtain rfl := Except.ok.inj (Rule.run_remarkAhead.symm.trans hrun)
  obtain ⟨out, hout, hkeeps⟩ := hall _ (List.mem_singleton.2 rfl) _ rfl
  have haccepted : accepted [.single ⟨.upTo 5 13, "// c\na"⟩] =
      [.single ⟨.upTo 5 13, "// c\na"⟩] := by
    cbv
  simp only [List.filterMap_cons, List.filterMap_nil, haccepted] at hmerge hpass
  constructor
  · refine ⟨_, _, out, all, Rule.run_remarkAhead, rfl, hout, hkeeps (clear_remarkAhead rfl),
      hmerge, hpass fun p hp => ⟨_, List.mem_singleton.2 rfl, ?_, clear_remarkAhead rfl⟩⟩
    rw [List.mem_singleton.1 hp]
  · obtain rfl := Except.ok.inj (Rule.run_remarkBehind.symm.trans hrun')
    exact ⟨_, Rule.run_remarkBehind, rfl, endsInLineComment_remarkBehind,
      hkept _ (List.mem_singleton.2 rfl) rfl endsInLineComment_remarkBehind⟩

/-! ### The places left out -/

/-- A well-formed context in which a line ends after every line comment.  After the patch of the
only report there, that is lost, whatever words the edits are said to bring in. -/
def Context.LosesLines (ctx : Context) : Prop :=
  ctx.WellFormed ∧ ctx.source.LinesEnd ∧ ∃ d p out, Rule.run {} ctx = .ok [d] ∧
    d.patch = some p ∧ p.apply ctx.source.text = .ok out ∧
    ∀ plan, plan.map Prod.fst = p.edits → ¬ ctx.source.Keeps plan out.toList

/-- No line ends in the new text, though something follows the line comment. -/
theorem Context.losesLines_of_hasBreak {d : Detection} {e : Edit} {out : String} {c t : Token}
    {rest : List Token} (h : ctx.WellFormed) (hlines : ctx.source.LinesEnd)
    (hrun : Rule.run {} ctx = .ok [d]) (hpatch : d.patch = some (.single e))
    (happly : (Patch.single e).apply ctx.source.text = .ok out)
    (hc : c ∈ ctx.source.comments.toList) (hkind : c.kind = .lineComment)
    (hafter : ctx.source.lexemesIn e.span.stop (Text.byteSize ctx.source.text.toList) = t :: rest)
    (hplain : ∀ u ∈ t :: rest, u.kind ≠ .lineComment)
    (hbreak : Text.hasBreak out.toList = false) : ctx.LosesLines := by
  refine ⟨h, hlines, d, _, out, hrun, hpatch, happly, fun plan hplan hkeeps => ?_⟩
  obtain ⟨⟨f, words⟩, rfl, rfl⟩ := List.map_eq_singleton_iff.1 hplan
  have hends := hkeeps.hasBreak (Source.mem_lexemes.2 (.inr hc)) hkind hafter hplain
  rw [hbreak] at hends
  cases hends

/-- A line comment that starts with a blank stands behind the opening brace. -/
def remarkBlank : Context :=
  remarked " //\n" "a" "" "" #[⟨.lineComment, " //", .upTo 6 9⟩]

/-- Nothing but a blank word follows a line comment in the block. -/
def remarkBare : Context :=
  remarked "//\n" " " "" "/**/"
    #[⟨.lineComment, "//", .upTo 6 8⟩, ⟨.blockComment, "/**/", .upTo 11 15⟩]

/-- The program `()=>{return a//…;};` in which the value ends with a semicolon of its own, on the
line after a line comment. -/
def remarkReturned : Context where
  tree := ⟨#[
    ⟨.program [1], .upTo 0 19, none⟩,
    ⟨.expressionStatement 2, .upTo 0 19, some 0⟩,
    ⟨.arrow [] 3 false false, .upTo 0 18, some 1⟩,
    ⟨.block [4], .upTo 4 18, some 2⟩,
    ⟨.returnStatement (some 5), .upTo 5 17, some 3⟩,
    ⟨.other [], .upTo 12 17, some 4⟩]⟩
  source := ⟨"()=>\x7breturn a//\n;\x7d;", #[
    ⟨.punctuator, "(", .upTo 0 1⟩, ⟨.punctuator, ")", .upTo 1 2⟩, ⟨.punctuator, "=>", .upTo 2 4⟩,
    ⟨.punctuator, "\x7b", .upTo 4 5⟩, ⟨.word, "return", .upTo 5 11⟩, ⟨.word, "a", .upTo 12 13⟩,
    ⟨.punctuator, ";", .upTo 16 17⟩, ⟨.punctuator, "\x7d", .upTo 17 18⟩,
    ⟨.punctuator, ";", .upTo 18 19⟩], #[⟨.lineComment, "//", .upTo 13 15⟩]⟩

set_option maxRecDepth 20000 in
theorem Rule.run_remarkBlank : Rule.run {} remarkBlank =
    .ok [⟨3, .braces, .upTo 5 12, some (.single ⟨.upTo 5 12, "//\na"⟩)⟩] := by
  cbv

set_option maxRecDepth 20000 in
theorem Rule.run_remarkBare : Rule.run {} remarkBare =
    .ok [⟨3, .braces, .upTo 5 11, some (.single ⟨.upTo 5 11, "//"⟩)⟩] := by
  cbv

set_option maxRecDepth 20000 in
theorem Rule.run_remarkReturned : Rule.run {} remarkReturned =
    .ok [⟨3, .braces, .upTo 4 18, some (.single ⟨.upTo 4 18, " a//"⟩)⟩] := by
  cbv

theorem losesLines_remarkBlank : remarkBlank.LosesLines := by
  have happly : (Patch.single ⟨.upTo 5 12, "//\na"⟩).apply remarkBlank.source.text =
      .ok "if(x)//\na" := by
    cbv
  refine ⟨by decide +kernel, by decide +kernel, _, _, _, Rule.run_remarkBlank, rfl, happly, ?_⟩
  intro plan _ hkeeps
  -- the comment would still be in the text, but its first character is not
  have hinfix := hkeeps.isInfix (c := ⟨.lineComment, " //", .upTo 6 9⟩)
    (Source.mem_lexemes.2 (.inr (by decide +kernel))) rfl
  revert hinfix
  decide +kernel

theorem losesLines_remarkBare : remarkBare.LosesLines := by
  have happly : (Patch.single ⟨.upTo 5 11, "//"⟩).apply remarkBare.source.text =
      .ok "if(x)///**/" := by
    cbv
  have hafter : remarkBare.source.lexemesIn 11 (Text.byteSize remarkBare.source.text.toList) =
      [⟨.blockComment, "/**/", .upTo 11 15⟩] := by
    cbv
  exact Context.losesLines_of_hasBreak (c := ⟨.lineComment, "//", .upTo 6 8⟩) (by decide +kernel)
    (by decide +kernel) Rule.run_remarkBare rfl happly (by decide +kernel) rfl hafter
    (by decide +kernel) (by decide +kernel)

theorem losesLines_remarkReturned : remarkReturned.LosesLines := by
  have happly : (Patch.single ⟨.upTo 4 18, " a//"⟩).apply remarkReturned.source.text =
      .ok "()=> a//;" := by
    cbv
  have hafter : remarkReturned.source.lexemesIn 18
      (Text.byteSize remarkReturned.source.text.toList) = [⟨.punctuator, ";", .upTo 18 19⟩] := by
    cbv
  exact Context.losesLines_of_hasBreak (c := ⟨.lineComment, "//", .upTo 13 15⟩) (by decide +kernel)
    (by decide +kernel) Rule.run_remarkReturned rfl happly (by decide +kernel) rfl hafter
    (by decide +kernel) (by decide +kernel)

/-- Trimming cuts into a line comment that starts with a blank, or takes the break behind a line
comment away; and so does dropping a semicolon that is part of a value. -/
theorem Rule.run_loses_line_comments :
    remarkBlank.LosesLines ∧ remarkBare.LosesLines ∧ remarkReturned.LosesLines :=
  ⟨losesLines_remarkBlank, losesLines_remarkBare, losesLines_remarkReturned⟩

end Pare
