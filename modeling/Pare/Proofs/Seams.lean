import Mathlib
import Pare.Proofs.Endings
import Pare.Proofs.Grouping
import Pare.Proofs.Indexing

/-!
**Words at the seams of an edit.**

Brackets keep words apart: `return(a)` holds two words and `returna` one.  Where an edit takes a
bracket away, the characters on both sides come together, and the edit must not let them read as one
word.  At the opening side of parentheses and braces it leaves a space between two word characters,
so what is kept apart there are words that start with such a character.  At the closing side of the
brackets of a key nothing is looked at: the name ends where it should only if no word is written
directly behind the bracket.

Main definitions:

* `Pare.Detection.Opens` — the parenthesis or brace at the start of what a report is about;
* `Pare.Source.Divides` — a sign between two words that would run together without it;
* `Pare.Patch.Spaces` — a patch that leaves a space between the two;
* `Pare.StopsWord` — a text that does not go on with the word before it.

Main results:

* `Pare.Text.isBlank_of_isWordChar` — word characters are not blank;
* `Pare.Source.WellFormed.leftOf_eq`, `Pare.Source.WellFormed.rightOf_eq` — the characters beside a
  span are those of the lexemes beside it;
* `Pare.Detection.Opens.keeps_words_apart` — **words that would run together at an opening sign are
  kept apart by a space**;
* `Pare.checkIndexing_ends_name` — **a name after a dot ends where it should exactly if no word is
  written directly behind the bracket**.
-/

set_option relaxedAutoImplicit false
set_option autoImplicit false

namespace Pare

open Text (IsBoundary slice isBlank isWordChar trim)

variable {ctx : Context}

/-! ### Characters at a seam -/

/-- Characters run together if both are there and belong to words. -/
theorem runTogether_eq_true {a b : Option Char} : runTogether a b = true ↔
    ∃ c d, a = some c ∧ b = some d ∧ isWordChar c = true ∧ isWordChar d = true := by
  cases a <;> cases b <;> simp [runTogether]

namespace Text

/-- The blanks as one table. -/
theorem inRanges_of_isBlank {c : Char} (h : isBlank c = true) :
    inRanges ((0x09, 0x0D) :: (0x20, 0x20) :: blankRanges) c.toNat = true := by
  simp only [isBlank, Bool.or_eq_true, beq_iff_eq] at h
  simp only [inRanges, List.any_cons, Bool.or_eq_true]
  rcases h with (rfl | hcontrol) | htable
  · exact .inr (.inl rfl)
  · exact .inl hcontrol
  · exact .inr (.inr htable)

/-- No code is in two tables if their ranges are apart. -/
theorem inRanges_eq_false_of_apart {rs qs : List (Nat × Nat)} {code : Nat}
    (h : (rs.all fun r => qs.all fun q => Nat.blt r.2 q.1 || Nat.blt q.2 r.1) = true)
    (hin : inRanges rs code = true) : inRanges qs code = false := by
  rw [← Bool.not_eq_true]
  intro hin'
  simp only [inRanges, List.any_eq_true, Bool.and_eq_true, decide_eq_true_eq] at hin hin'
  obtain ⟨r, hr, hrcode⟩ := hin
  obtain ⟨q, hq, hqcode⟩ := hin'
  have hapart := List.all_eq_true.1 (List.all_eq_true.1 h r hr) q hq
  simp only [Bool.or_eq_true, Nat.blt_eq] at hapart
  omega

/-- Word characters are not blank. -/
theorem isBlank_of_isWordChar {c : Char} (h : isWordChar c = true) : isBlank c = false := by
  rw [← Bool.not_eq_true]
  intro hblank
  have hcode := inRanges_of_isBlank hblank
  simp only [isWordChar, isAlphanumeric, Bool.or_eq_true, beq_iff_eq] at h
  rcases h with ((hletter | htable) | rfl) | rfl
  · -- the letters and digits of ASCII
    simp [Char.isAlphanum, Char.isAlpha, Char.isUpper, Char.isLower, Char.isDigit,
      UInt32.le_iff_toNat_le] at hletter
    simp [inRanges, blankRanges] at hcode
    omega
  · have hapart : (((0x09, 0x0D) :: (0x20, 0x20) :: blankRanges).all fun r =>
        alphanumericRanges.all fun q => Nat.blt r.2 q.1 || Nat.blt q.2 r.1) = true := by
      decide +kernel
    rw [inRanges_eq_false_of_apart hapart hcode] at htable
    cases htable
  · cases hblank
  · cases hblank

/-- A text that starts with no blank still starts with this character when it is trimmed. -/
theorem head?_trim {cs : List Char} {c : Char} (h : cs.head? = some c)
    (hblank : isBlank c = false) : (trim cs).head? = some c := by
  obtain ⟨rest, rfl⟩ := List.head?_eq_some_iff.1 h
  have hstays : (rest.reverse ++ [c]).dropWhile isBlank =
      rest.reverse.dropWhile isBlank ++ [c] := by
    rw [List.dropWhile_append]
    split
    · rename_i hnone
      rw [List.isEmpty_iff] at hnone
      simp [hnone, hblank]
    · rfl
  rw [trim, List.dropWhile_cons_of_neg (by simp [hblank]), List.reverse_cons, hstays]
  simp

end Text

/-- The character after a span is the first one of every piece behind it that is not empty. -/
theorem Source.rightOf_eq_head? {s : Source} {span : Span} {n : Nat}
    (hstop : IsBoundary s.text.toList span.stop) (hn : IsBoundary s.text.toList n)
    (hlt : span.stop < n) :
    s.rightOf span = (Text.slice s.text.toList span.stop n).head? := by
  rw [rightOf, head?_slice hstop hn (Text.isBoundary_byteSize _) hlt hn.le_byteSize]

namespace Source.WellFormed

variable {s : Source} {t : Token} {span : Span}

/-- The character before a span is the last one of the lexeme that ends there. -/
theorem leftOf_eq (h : s.WellFormed) (ht : t ∈ s.lexemes) (hstop : t.span.stop = span.start) :
    s.leftOf span = t.value.toList.getLast? := by
  have hstart := (h.joint_start ht).boundary
  have hend := (h.joint_stop ht).boundary
  have hlt := h.nonempty ht
  rw [leftOf, ← hstop, ← h.slice_lexeme ht,
    getLast?_slice (Text.isBoundary_zero _) hstart hend (Nat.zero_le _) hlt]

/-- The character after a span is the first one of the lexeme that starts there. -/
theorem rightOf_eq (h : s.WellFormed) (ht : t ∈ s.lexemes) (hstart : t.span.start = span.stop) :
    s.rightOf span = t.value.toList.head? := by
  have hfrom := (h.joint_start ht).boundary
  have hlt := h.nonempty ht
  rw [hstart] at hfrom hlt
  rw [rightOf_eq_head? hfrom (h.joint_stop ht).boundary hlt, ← hstart, h.slice_lexeme ht]

/-- A character that directly follows a lexeme stands outside all lexemes, if none starts there. -/
theorem outside_of_rightOf (h : s.WellFormed) (ht : t ∈ s.lexemes)
    (hnone : ∀ next ∈ s.lexemes, next.span.start ≠ t.span.stop) {c : Char}
    (hc : s.rightOf t.span = some c) : s.Outside c := by
  have hjoint := h.joint_stop ht
  obtain ⟨back, hback⟩ := List.head?_eq_some_iff.1 hc
  have hjoin := Text.slice_append (Text.isBoundary_zero _) hjoint.boundary
    (Text.isBoundary_byteSize _) (Nat.zero_le _) hjoint.boundary.le_byteSize
  have hsize := Text.byteSize_slice (Text.isBoundary_zero _) hjoint.boundary (Nat.zero_le _)
  rw [hback, Text.slice_whole] at hjoin
  refine ⟨_, back, hjoin.symm, fun u hu => ?_⟩
  have hseam := hjoint.seam u hu
  have hne := hnone u hu
  omega

end Source.WellFormed

/-! ### Opening signs -/

/-- The sign at the start of what a report is about: the parenthesis before a node, or the brace at
the start of a branch or a body. -/
inductive Detection.Opens (ctx : Context) (d : Detection) (left : Token) : Prop
  | parens {id : NodeId} {right : Token} (hcheck : checkGrouping ctx id = .ok (some d))
      (hgrouping : ctx.grouping id = .ok (some (left, right)))
  | braces {block controlling : NodeId} {whole : Node}
      (hwhole : ctx.tree.nodes[controlling]? = some whole)
      (hblock : block ∈ controlledBlocks whole.kind)
      (hcheck : checkBlock ctx block controlling = .ok (some d))
      (hleft : ctx.firstToken block = .ok (some left))

/-- A sign that alone stands between a code token and a lexeme which would run together without
it. -/
structure Source.Divides (s : Source) (word sign next : Token) : Prop where
  word_mem : word ∈ s.tokens.toList
  next_mem : next ∈ s.lexemes
  stop : word.span.stop = sign.span.start
  start : next.span.start = sign.span.stop
  run : runTogether word.value.toList.getLast? next.value.toList.head? = true

/-- A patch that fits and leaves one space between a token and what a lexeme starts with. -/
def Patch.Spaces (s : Source) (word next : Token) (p : Patch) : Prop :=
  Placed s.text.toList 0 p.edits ∧ ∃ back,
    rewritten s.text.toList 0 p.edits (Text.byteSize s.text.toList) =
      slice s.text.toList 0 word.span.stop ++ ' ' :: back ∧
    back.head? = next.value.toList.head?

section Opening

variable {left word next : Token}

/-- The next token after a keyword is an opening sign, so a token that ends at this sign is the
keyword. -/
theorem Source.eq_of_tokenAfter {s : Source} (h : InOrder s.tokens.toList) {keyword : Token}
    (hkeyword : keyword ∈ s.tokens.toList) (hafter : s.tokenAfter keyword.span = some left)
    (hword : word ∈ s.tokens.toList) (hstop : word.span.stop = left.span.start) :
    word = keyword := by
  obtain ⟨-, hlate, hfar⟩ := Source.tokenAfter_eq_some h hafter
  have hk := h.nonempty keyword hkeyword
  have hw := h.nonempty word hword
  rcases h.trichotomy hword hkeyword with hbefore | rfl | hbehind
  · simp only [Token.Precedes] at hbefore
    omega
  · rfl
  · rcases hfar word hword hbehind with rfl | hlater
    · omega
    · have hl := left.span.start_le_stop
      simp only [Token.Precedes] at hlater
      omega

/-- Where parentheses go, a space keeps apart what the opening one divided. -/
theorem Patch.Ungroups.keeps_space {id parent : NodeId} {node : Node} {right : Token} {p : Patch}
    (hp : p.Ungroups ctx id node parent left right) (h : ctx.Shaped)
    (hnode : ctx.tree.nodes[id]? = some node) (hroot : id ≠ Tree.root)
    (hgrouping : ctx.groupingAt node.span = some (left, right))
    (hdivides : ctx.source.Divides word left next) : p.Spaces ctx.source word next := by
  refine ⟨hp.placed h hnode hroot hgrouping, ?_⟩
  have hgrouped := h.grouped hgrouping
  obtain ⟨hfirst, hlast⟩ := h.joints hnode hroot
  obtain ⟨-, -, hlt⟩ := h.aligned id node hnode hroot
  have hle := hgrouped.left_le
  have hle' := hgrouped.le_right
  have hstart := hdivides.start
  have hleft' := (h.source.joint_stop hgrouped.left_mem).boundary
  have hbehind : ctx.source.rightOf left.span = next.value.toList.head? :=
    h.source.rightOf_eq hdivides.next_mem hstart
  obtain ⟨_, b, -, hb, -, -⟩ := runTogether_eq_true.1 hdivides.run
  cases hp with
  | @pullUp keyword hkeyword hafter hlead htail hfree =>
      have hkeywordMem :=
        Context.Shaped.mem_tokens_of_mem_tokensOf (List.mem_of_mem_head? hkeyword)
      obtain rfl := Source.eq_of_tokenAfter h.source.tokens hkeywordMem hafter hdivides.word_mem
        hdivides.stop
      -- no comment stands before the value, so the lexeme behind the parenthesis is its first one
      have hvalue : left.span.stop = node.span.start := by
        rcases hfirst.seam next hdivides.next_mem with hfrom | hupto
        · omega
        · have hle : word.span.stop ≤ next.span.start := by
            rw [hdivides.stop, hstart]
            exact left.span.start_le_stop
          have hin : next ∈ ctx.source.lexemesIn word.span.stop node.span.start :=
            Source.mem_lexemesIn.2 ⟨hdivides.next_mem, hle, hupto⟩
          rw [hgrouped.lexemesIn_lead h.source hafter rfl hlead hfree, List.mem_singleton] at hin
          have hl := h.source.nonempty hgrouped.left_mem
          rw [hin] at hstart
          omega
      have hhead := Source.rightOf_eq_head? hleft' hlast.boundary (hvalue.trans_lt hlt)
      rw [hbehind, hb, hvalue] at hhead
      refine ⟨slice ctx.source.text.toList node.span.start node.span.stop ++
        ((Edit.removal ctx.source ⟨node.span.stop, right.span.stop, htail⟩).text.toList ++
          slice ctx.source.text.toList right.span.stop (Text.byteSize ctx.source.text.toList)),
        ?_, ?_⟩
      · simp [Patch.edits]
      · rw [List.head?_append, ← hhead, hb, Option.some_or]
  | remove hstays =>
      have hbefore : ctx.source.leftOf left.span = word.value.toList.getLast? :=
        h.source.leftOf_eq (Source.mem_lexemes_of_token hdivides.word_mem) hdivides.stop
      have hhead := Source.rightOf_eq_head? hleft'
        (h.source.joint_start hgrouped.right_mem).boundary (by omega)
      rw [hbehind, hb] at hhead
      refine ⟨slice ctx.source.text.toList left.span.stop right.span.start ++
        ((Edit.removal ctx.source right.span).text.toList ++
          slice ctx.source.text.toList right.span.stop (Text.byteSize ctx.source.text.toList)),
        ?_, ?_⟩
      · simp [Patch.edits, Edit.removal, Edit.pad, hbefore, hbehind, hdivides.run, hdivides.stop]
      · rw [List.head?_append, ← hhead, hb, Option.some_or]

/-- Where braces go, a space keeps apart what the opening one divided. -/
theorem unwrapPatch_keeps_space (h : ctx.Shaped) {block stmt : NodeId} {node : Node} {p : Patch}
    {right : Token} (hnode : ctx.tree.nodes[block]? = some node) (hroot : block ≠ Tree.root)
    (hkind : node.kind = .block [stmt]) (hbraced : ctx.Braced block stmt node.span left right)
    (hpatch : unwrapPatch ctx block stmt = .ok (some p))
    (hdivides : ctx.source.Divides word left next) : p.Spaces ctx.source word next := by
  obtain ⟨stmtNode, hstmt, hstmtRoot⟩ := h.exists_part hnode (show stmt ∈ node.kind.children by
    simp [hkind, Kind.children])
  obtain ⟨last, hlast, -⟩ := h.exists_last hstmt hstmtRoot
  obtain ⟨hafter, hle⟩ := hbraced.between h (List.mem_of_mem_getLast? hlast)
  have hlastLt := h.source.nonempty
    (Context.Shaped.mem_lexemes_of_mem_tokensOf (List.mem_of_mem_getLast? hlast))
  have hyields : Yields (unwrapPatch ctx block stmt) _ :=
    unwrapPatch_yields h hnode hroot hstmt hbraced hlast hle
  obtain ⟨-, rfl⟩ := hyields.of_found hpatch
  obtain ⟨hfirst, hend⟩ := h.joints hnode hroot
  refine ⟨(Edit.respells_substitution hfirst hend (Laid.word _)).placed_single, ?_⟩
  -- what is between the braces starts with a word character, which trimming keeps
  have hrun := hdivides.run
  obtain ⟨a, b, ha, hb, -, hwordChar⟩ := runTogether_eq_true.1 hrun
  have hlt : left.span.stop < right.span.start := by
    simp only [Token.Precedes] at hafter hle
    omega
  have hhead := Source.rightOf_eq_head? (h.source.joint_stop hbraced.left_mem).boundary
    (h.source.joint_start hbraced.right_mem).boundary hlt
  rw [h.source.rightOf_eq hdivides.next_mem hdivides.start, hb] at hhead
  obtain ⟨rest, htrim⟩ := List.head?_eq_some_iff.1
    (Text.head?_trim hhead.symm (Text.isBlank_of_isWordChar hwordChar))
  have hbefore : ctx.source.leftOf node.span = some a := by
    rw [← ha]
    exact h.source.leftOf_eq (Source.mem_lexemes_of_token hdivides.word_mem)
      (hdivides.stop.trans hbraced.start)
  rw [ha, hb] at hrun
  refine ⟨b :: rest ++ (Edit.pad (ctx.source.rightOf node.span) (b :: rest).getLast?).toList ++
    slice ctx.source.text.toList node.span.stop (Text.byteSize ctx.source.text.toList), ?_, ?_⟩
  · simp [Edit.substitution, htrim, hbefore, Edit.pad, hrun, hdivides.stop, hbraced.start]
  · simp [hb]

/-- **Words that would run together at an opening sign are kept apart by a space.**  If the
parenthesis or the brace goes that alone stands between a code token and a lexeme, and the two would
run together, then the patch can be applied; the text stays up to the end of the token, one space
follows, and then comes what the lexeme starts with. -/
theorem Detection.Opens.keeps_words_apart (h : ctx.WellFormed) {d : Detection} {p : Patch}
    (hopens : d.Opens ctx left) (hp : d.patch = some p)
    (hdivides : ctx.source.Divides word left next) :
    ∃ out back, p.apply ctx.source.text = .ok out ∧
      out.toList = slice ctx.source.text.toList 0 word.span.stop ++ ' ' :: back ∧
      back.head? = next.value.toList.head? := by
  have hshaped := h.shaped
  obtain ⟨hplaced, back, hback, hhead⟩ : p.Spaces ctx.source word next := by
    cases hopens with
    | @parens id right hcheck hgrouping =>
        obtain ⟨node, parent, whole, left', right', hnode, hroot, -, -, hpair, hungroups⟩ :=
          checkGrouping_ungroups hshaped hcheck hp
        rw [Context.grouping_eq_ok hnode, hpair] at hgrouping
        obtain ⟨rfl, rfl⟩ := Prod.mk.inj (Option.some.inj (Except.ok.inj hgrouping))
        exact hungroups.keeps_space hshaped hnode hroot hpair hdivides
    | @braces block controlling whole hwhole hblock hcheck hleft =>
        obtain ⟨-, -, stmt, hkind, hpatch⟩ := checkBlock_found hcheck
        have hpatch := hpatch p hp
        obtain ⟨node, hnode, hroot⟩ :=
          hshaped.exists_part hwhole (mem_children_of_mem_controlledBlocks hblock)
        rw [Context.kind_eq_ok hnode] at hkind
        have hkind := Except.ok.inj hkind
        obtain ⟨left', right, hbraced⟩ := hshaped.exists_braces hnode hroot hkind
        rw [hshaped.firstToken_eq_ok hnode, hbraced.head?] at hleft
        obtain rfl := Option.some.inj (Except.ok.inj hleft)
        exact unwrapPatch_keeps_space hshaped hnode hroot hkind hbraced hpatch hdivides
  exact ⟨_, back, Patch.apply_eq_ok hplaced, by rw [String.toList_ofList, hback], hhead⟩

end Opening

/-- A name, which may be spelled with escapes, in parentheses after `return`. -/
def returnedName (name : String) : Context :=
  let stop := 7 + name.length
  { tree := ⟨#[
      ⟨.program [1], .upTo 0 (stop + 1), none⟩,
      ⟨.returnStatement (some 2), .upTo 0 (stop + 1), some 0⟩,
      ⟨.identifier name, .upTo 7 stop, some 1⟩]⟩
    source := ⟨"return(" ++ name ++ ")", #[⟨.word, "return", .upTo 0 6⟩,
      ⟨.punctuator, "(", .upTo 6 7⟩, ⟨.word, name, .upTo 7 stop⟩,
      ⟨.punctuator, ")", .upTo stop (stop + 1)⟩], #[]⟩ }

set_option maxRecDepth 20000 in
theorem wellFormed_returnedName {name : String} (h : name = "a" ∨ name = "\\u0061") :
    (returnedName name).WellFormed := by
  rcases h with rfl | rfl <;> decide

theorem grouping_returnedName {name : String} (h : name = "a" ∨ name = "\\u0061") :
    (returnedName name).grouping 2 = .ok (some (⟨.punctuator, "(", .upTo 6 7⟩,
      ⟨.punctuator, ")", .upTo (7 + name.length) (8 + name.length)⟩)) := by
  rcases h with rfl | rfl <;> decide +kernel

theorem lexemes_returnedName {name : String} (h : name = "a" ∨ name = "\\u0061") :
    ⟨.word, name, .upTo 7 (7 + name.length)⟩ ∈ (returnedName name).source.lexemes :=
  Source.mem_lexemes_of_token (by rcases h with rfl | rfl <;> simp [returnedName])

set_option maxRecDepth 20000 in
theorem checkGrouping_returnedName_plain : checkGrouping (returnedName "a") 2 =
    .ok (some ⟨2, .parens, .upTo 6 9, some ⟨⟨.upTo 6 7, " "⟩, [⟨.upTo 8 9, ""⟩]⟩⟩) := by
  -- evaluated by equations of the library that no smaller import has together
  cbv

set_option maxRecDepth 20000 in
theorem checkGrouping_returnedName_escaped : checkGrouping (returnedName "\\u0061") 2 =
    .ok (some ⟨2, .parens, .upTo 6 14, some ⟨⟨.upTo 6 7, ""⟩, [⟨.upTo 13 14, ""⟩]⟩⟩) := by
  cbv

/-- A letter is kept apart from the keyword. -/
theorem Detection.Opens.keeps_words_apart_letter : (returnedName "a").WellFormed ∧
    ∃ (d : Detection) (p : Patch) (left word next : Token) (out : String) (back : List Char),
      d.Opens (returnedName "a") left ∧ d.patch = some p ∧
      (returnedName "a").source.Divides word left next ∧
      p.apply (returnedName "a").source.text = .ok out ∧
      out.toList = "return ".toList ++ back ∧ back.head? = some 'a' := by
  have hctx := wellFormed_returnedName (.inl rfl)
  have hopens := Detection.Opens.parens checkGrouping_returnedName_plain
    (grouping_returnedName (.inl rfl))
  have hdivides : (returnedName "a").source.Divides ⟨.word, "return", .upTo 0 6⟩
      ⟨.punctuator, "(", .upTo 6 7⟩ ⟨.word, "a", .upTo 7 8⟩ :=
    ⟨by simp [returnedName], lexemes_returnedName (.inl rfl), rfl, rfl, by decide⟩
  obtain ⟨out, back, hout, htext, hhead⟩ := hopens.keeps_words_apart hctx rfl hdivides
  refine ⟨hctx, _, _, _, _, _, out, back, hopens, rfl, hdivides, hout, ?_, hhead⟩
  have hfront : slice (returnedName "a").source.text.toList 0 6 = "return".toList := rfl
  rw [htext, show (Span.upTo 0 6).stop = 6 from rfl, hfront]
  simp

/-- A name that starts with an escape is not: the backslash is no word character, although the
language reads it as a part of the name. -/
theorem Detection.Opens.fuses_escape : (returnedName "\\u0061").WellFormed ∧
    ∃ (d : Detection) (p : Patch) (left word next : Token) (out : String),
      d.Opens (returnedName "\\u0061") left ∧ d.patch = some p ∧
      word ∈ (returnedName "\\u0061").source.tokens.toList ∧ word.kind = .word ∧
      word.span.stop = left.span.start ∧
      next ∈ (returnedName "\\u0061").source.lexemes ∧ next.span.start = left.span.stop ∧
      (returnedName "\\u0061").kind 2 = .ok (.identifier "\\u0061") ∧
      (returnedName "\\u0061").firstToken 2 = .ok (some next) ∧
      p.apply (returnedName "\\u0061").source.text = .ok out ∧
      out.toList = word.value.toList ++ next.value.toList := by
  have hword : ⟨.word, "return", .upTo 0 6⟩ ∈
      (returnedName "\\u0061").source.tokens.toList := by simp [returnedName]
  exact ⟨wellFormed_returnedName (.inr rfl), _, _, _, _, _, "return\\u0061",
    .parens checkGrouping_returnedName_escaped (grouping_returnedName (.inr rfl)), rfl, hword, rfl,
    rfl, lexemes_returnedName (.inr rfl), rfl, rfl, by decide +kernel, rfl, rfl⟩

/-! ### Names after a dot -/

/-- A text that does not go on with the word before it. -/
def StopsWord (cs : List Char) : Prop := ∀ c ∈ cs.head?, isWordChar c = false

instance (cs : List Char) : Decidable (StopsWord cs) :=
  decidable_of_iff (cs.head?.any isWordChar = false) (by cases cs <;> simp [StopsWord])

/-- **A name after a dot ends where it should exactly if no word is written directly behind the
bracket.**  If a key in brackets is reported with a patch, the patch can be applied; the text up to
the bracket is followed by a dot, the name and the text behind the bracket.  If a lexeme starts
directly behind the bracket, the name ends where it should exactly if that lexeme does not start
with a word character; if none does, what comes after the name stands outside all lexemes. -/
theorem checkIndexing_ends_name (h : ctx.WellFormed) {id : NodeId} {d : Detection} {p : Patch}
    (hcheck : checkIndexing ctx id = .ok (some d)) (hp : d.patch = some p) :
    ∃ name span left right out back, ctx.kind d.node = .ok (.literal (.string (some name))) ∧
      ctx.span d.node = .ok span ∧ ctx.source.tokenBefore span = some left ∧
      left.isSign "[" = true ∧ ctx.source.tokenAfter span = some right ∧
      right.isSign "]" = true ∧
      back = slice ctx.source.text.toList right.span.stop
        (Text.byteSize ctx.source.text.toList) ∧
      p.apply ctx.source.text = .ok out ∧
      out.toList =
        slice ctx.source.text.toList 0 left.span.start ++ '.' :: (name.toList ++ back) ∧
      (∀ next ∈ ctx.source.lexemes, next.span.start = right.span.stop →
        (StopsWord back ↔ StopsWord next.value.toList)) ∧
      ((∀ next ∈ ctx.source.lexemes, next.span.start ≠ right.span.stop) →
        ∀ c ∈ back.head?, ctx.source.Outside c) := by
  obtain ⟨kind, hkind, -⟩ := bind_eq_ok.1 hcheck
  obtain ⟨node, hnode, -⟩ := Context.exists_node hkind
  have hyields : Yields (checkIndexing ctx id) _ := checkIndexing_dots h.shaped hnode
  obtain ⟨-, keyNode, name, hkey, hname, hdots⟩ := hyields.of_found hcheck
  obtain ⟨left, right, hdots⟩ := hdots p hp
  obtain ⟨hrightMem, -, -⟩ := Source.tokenAfter_eq_some h.source.tokens hdots.after
  have hright := Source.mem_lexemes_of_token hrightMem
  refine ⟨name, keyNode.span, left, right, _, _, by rw [Context.kind_eq_ok hkey, hname],
    Context.span_eq_ok hkey, hdots.before, hdots.opening, hdots.after, hdots.closing, rfl,
    Patch.apply_eq_ok (hdots.placed h.source), ?_, fun next hnext hstart => ?_,
    fun hnone c hc => h.source.outside_of_rightOf hright hnone hc⟩
  · rw [String.toList_ofList, hdots.eq]
    simp
  · have hhead : (slice ctx.source.text.toList right.span.stop
        (Text.byteSize ctx.source.text.toList)).head? = next.value.toList.head? :=
      h.source.rightOf_eq hnext hstart
    rw [StopsWord, StopsWord, hhead]

/-- An access by a constant key, so many spaces, and the operator `in`. -/
def indexedIn (spaces : Nat) : Context :=
  { tree := ⟨#[
      ⟨.program [1], .upTo 0 (10 + spaces), none⟩,
      ⟨.expressionStatement 2, .upTo 0 (10 + spaces), some 0⟩,
      ⟨.binary "in" 3 6, .upTo 0 (10 + spaces), some 1⟩,
      ⟨.member 4 5 true false, .upTo 0 6, some 2⟩,
      ⟨.identifier "a", .upTo 0 1, some 3⟩,
      ⟨.literal (.string (some "b")), .upTo 2 5, some 3⟩,
      ⟨.identifier "c", .upTo (9 + spaces) (10 + spaces), some 2⟩]⟩
    source := ⟨"a[\"b\"]" ++ String.ofList (List.replicate spaces ' ') ++ "in c",
      #[⟨.word, "a", .upTo 0 1⟩, ⟨.punctuator, "[", .upTo 1 2⟩, ⟨.string, "\"b\"", .upTo 2 5⟩,
        ⟨.punctuator, "]", .upTo 5 6⟩, ⟨.word, "in", .upTo (6 + spaces) (8 + spaces)⟩,
        ⟨.word, "c", .upTo (9 + spaces) (10 + spaces)⟩], #[]⟩ }

set_option maxRecDepth 20000 in
theorem wellFormed_indexedIn {spaces : Nat} (h : spaces = 0 ∨ spaces = 1) :
    (indexedIn spaces).WellFormed := by
  rcases h with rfl | rfl <;> decide

theorem checkIndexing_indexedIn {spaces : Nat} (h : spaces = 0 ∨ spaces = 1) :
    checkIndexing (indexedIn spaces) 3 =
      .ok (some ⟨5, .brackets, .upTo 2 5, some (.single ⟨.upTo 1 6, ".b"⟩)⟩) := by
  rcases h with rfl | rfl <;> decide +kernel

/-- With a space behind the bracket the name ends there. -/
theorem checkIndexing_ends_name_spaced : (indexedIn 1).WellFormed ∧
    ∃ (d : Detection) (p : Patch) (name out : String) (front back : List Char),
      checkIndexing (indexedIn 1) 3 = .ok (some d) ∧ d.patch = some p ∧
      (indexedIn 1).kind d.node = .ok (.literal (.string (some name))) ∧
      p.apply (indexedIn 1).source.text = .ok out ∧
      out.toList = front ++ '.' :: (name.toList ++ back) ∧ StopsWord back := by
  have hctx := wellFormed_indexedIn (.inr rfl)
  have hcheck := checkIndexing_indexedIn (.inr rfl)
  obtain ⟨name, span, left, right, out, back, hname, hspan, -, -, hright, -, rfl, hout, htext, -⟩ :=
    checkIndexing_ends_name hctx hcheck rfl
  have hkey : (indexedIn 1).span 5 = .ok (.upTo 2 5) := rfl
  obtain rfl := Except.ok.inj (hkey.symm.trans hspan)
  have hclosing : (indexedIn 1).source.tokenAfter (.upTo 2 5) =
      some ⟨.punctuator, "]", .upTo 5 6⟩ := by decide +kernel
  obtain rfl := Option.some.inj (hclosing.symm.trans hright)
  exact ⟨hctx, _, _, name, out, _, _, hcheck, rfl, hname, hout, htext, by decide +kernel⟩

/-- Without one, the operator is read on into the name. -/
theorem checkIndexing_fuses_name : (indexedIn 0).WellFormed ∧
    ∃ (d : Detection) (p : Patch) (out : String) (back : List Char),
      checkIndexing (indexedIn 0) 3 = .ok (some d) ∧ d.patch = some p ∧
      (indexedIn 0).kind d.node = .ok (.literal (.string (some "b"))) ∧
      p.apply (indexedIn 0).source.text = .ok out ∧
      out.toList = "a.b".toList ++ back ∧ ¬ StopsWord back :=
  ⟨wellFormed_indexedIn (.inl rfl), _, _, "a.bin c", "in c".toList,
    checkIndexing_indexedIn (.inl rfl), rfl, rfl, rfl, rfl, by decide⟩

end Pare
