import Mathlib
import Pare.Proofs.Narrowing

/-!
**Arrow functions that only return a value.**

The block of an arrow function is rewritten to the lexemes of the value, joined anew.  The new text
is the lexemes of the value with gaps between them, and it holds no more than the old text did.  The
two braces and the keyword weigh more than the parentheses that are put around some values.  A gap
behind a line comment is kept as it is, and the value does not end with a line comment, so no break
is lost.

Main definitions:

* `Pare.Context.Returning` — the tokens of a block that only returns a value;
* `Pare.Context.Unblocked` — what a patch of such a block is made of;
* `Pare.Context.Returns` — the tokens and comments that a block returns.

Main results:

* `Pare.Context.Returning.lexemesIn_eq` — the lexemes of the replaced text;
* `Pare.Context.Returning.kind_getLast?_ne_lineComment` — the value does not end with a line
  comment;
* `Pare.bodyPatch_unblocks`, `Pare.bodyPatch_repairs` — what the patch is made of, and that it keeps
  the contract;
* `Pare.checkArrowBody_repairs` — **a report on an arrow function has a result, and its patch keeps
  the contract**;
* `Pare.checkArrowBody_found`, `Pare.bodyPatch_found` — what the report and its patch are;
* `Pare.checkArrowBody_narrows_gaps` — **a value in the place of a block keeps what matters**.
-/

set_option relaxedAutoImplicit false
set_option autoImplicit false

namespace Pare

open Text (ink)

variable {ctx : Context}

/-! ### The tokens of the block -/

/-- The tokens of a block that only returns a value: the braces, and the outermost tokens of the
statement, with the value between them. -/
structure Context.Returning (ctx : Context) (block stmt : NodeId) (blockSpan valueSpan : Span)
    (left keyword last right : Token) : Prop where
  braced : ctx.Braced block stmt blockSpan left right
  head? : (ctx.tokensOf stmt).head? = some keyword
  isReturn : keyword.isWord "return" = true
  getLast? : (ctx.tokensOf stmt).getLast? = some last
  keyword_le : keyword.span.stop ≤ valueSpan.start
  le_last : valueSpan.stop ≤ last.span.stop
  value_mem : ∀ t ∈ ctx.source.tokensIn valueSpan, t ∈ ctx.tokensOf stmt

/-- A block whose only statement returns a value has these tokens. -/
theorem Context.Shaped.exists_returning (h : ctx.Shaped) {block stmt argument : NodeId}
    {blockNode stmtNode node : Node} (hblock : ctx.tree.nodes[block]? = some blockNode)
    (hroot : block ≠ Tree.root) (hblockKind : blockNode.kind = .block [stmt])
    (hstmt : ctx.tree.nodes[stmt]? = some stmtNode)
    (hstmtKind : stmtNode.kind = .returnStatement (some argument))
    (hnode : ctx.tree.nodes[argument]? = some node) (hargument : argument ≠ Tree.root) :
    ∃ left keyword last right,
      ctx.Returning block stmt blockNode.span node.span left keyword last right := by
  obtain ⟨left, right, hbraced⟩ := h.exists_braces hblock hroot hblockKind
  obtain ⟨keyword, opening, closing, tail, hkeyword, -, -, -, -, htokens⟩ :=
    h.returned stmt stmtNode (some argument) hstmt hstmtKind
  obtain ⟨first, hfirst, hstart⟩ := h.exists_first hnode hargument
  obtain ⟨final, hfinal, hstop⟩ := h.exists_last hnode hargument
  have horder := h.tokensOf_inOrder stmt
  have hmem : ∀ t ∈ ctx.tokensOf argument,
      t ∈ opening ++ (some argument).toList.flatMap ctx.tokensOf ++ closing ++ tail := by
    intro t ht
    simp [ht]
  have hin : ∀ t ∈ ctx.tokensOf argument, t ∈ ctx.tokensOf stmt := by
    intro t ht
    rw [htokens]
    exact List.mem_cons_of_mem keyword (hmem t ht)
  obtain ⟨last, hlast⟩ : ∃ last, (ctx.tokensOf stmt).getLast? = some last :=
    ⟨_, List.getLast?_eq_some_getLast (by simp [htokens])⟩
  refine ⟨left, keyword, last, right, hbraced, by simp [htokens], hkeyword, hlast, ?_, ?_, ?_⟩
  · rw [htokens] at horder
    rw [← hstart]
    exact (List.pairwise_cons.1 horder.apart).1 first (hmem first (List.mem_of_mem_head? hfirst))
  · rw [← hstop]
    rcases horder.precedes_getLast? hlast (hin final (List.mem_of_mem_getLast? hfinal)) with
      rfl | hbefore
    · exact Nat.le_refl _
    · exact Nat.le_trans hbefore last.span.start_le_stop
  · rw [← Context.tokensOf_eq hnode]
    exact hin

namespace Context.Returning

variable {block stmt : NodeId} {blockSpan valueSpan : Span} {left keyword last right : Token}

theorem keyword_mem (h : ctx.Returning block stmt blockSpan valueSpan left keyword last right) :
    keyword ∈ ctx.tokensOf stmt :=
  List.mem_of_mem_head? h.head?

theorem last_mem (h : ctx.Returning block stmt blockSpan valueSpan left keyword last right) :
    last ∈ ctx.tokensOf stmt :=
  List.mem_of_mem_getLast? h.getLast?

/-- No lexeme stands between the opening brace and the keyword. -/
theorem lexemesIn_before_keyword
    (h : ctx.Returning block stmt blockSpan valueSpan left keyword last right)
    (hctx : ctx.Shaped) (hspan : ctx.tokensOf block = ctx.source.tokensIn blockSpan)
    (hle : left.span.stop ≤ keyword.span.start)
    (hfree : ctx.source.hasCommentsIn ⟨left.span.stop, keyword.span.start, hle⟩ = false) :
    ctx.source.lexemesIn left.span.stop keyword.span.start = [] := by
  refine hctx.source.lexemesIn_eq_nil hfree (Nat.le_refl _) (Nat.le_refl _) ?_
  intro t ht hlate htime
  have hne := hctx.source.tokens.nonempty t ht
  have hkeyword := (h.braced.between hctx h.keyword_mem).2
  have hk := keyword.span.start_le_stop
  simp only [Token.Precedes] at hkeyword
  have hright : t.span.stop ≤ right.span.start := by omega
  have hin := h.braced.mem_of_between hspan ht hne hlate hright
  rcases (hctx.tokensOf_inOrder stmt).head?_precedes h.head? hin with rfl | hbefore
  · omega
  · simp only [Token.Precedes] at hbefore
    omega

/-- No lexeme stands between the statement and the closing brace. -/
theorem lexemesIn_after_last
    (h : ctx.Returning block stmt blockSpan valueSpan left keyword last right)
    (hctx : ctx.Shaped) (hspan : ctx.tokensOf block = ctx.source.tokensIn blockSpan)
    (hle : valueSpan.stop ≤ right.span.start)
    (hfree : ctx.source.hasCommentsIn ⟨valueSpan.stop, right.span.start, hle⟩ = false) :
    ctx.source.lexemesIn last.span.stop right.span.start = [] := by
  refine hctx.source.lexemesIn_eq_nil hfree h.le_last (Nat.le_refl _) ?_
  intro t ht hlate htime
  have hne := hctx.source.tokens.nonempty t ht
  have hlast := (h.braced.between hctx h.last_mem).1
  have hl := last.span.start_le_stop
  simp only [Token.Precedes] at hlast
  have hleft : left.span.stop ≤ t.span.start := by omega
  have hin := h.braced.mem_of_between hspan ht hne hleft htime
  rcases (hctx.tokensOf_inOrder stmt).precedes_getLast? h.getLast? hin with rfl | hbefore
  · omega
  · simp only [Token.Precedes] at hbefore
    omega

/-- The keyword is not the semicolon, so it comes before it. -/
theorem keyword_precedes
    (h : ctx.Returning block stmt blockSpan valueSpan left keyword last right)
    (hctx : ctx.Shaped) :
    keyword.Precedes (if last.isSign ";" then last else right) := by
  split
  · rename_i hsemicolon
    rcases (hctx.tokensOf_inOrder stmt).head?_precedes h.head? h.last_mem with rfl | hbefore
    · have hword := h.isReturn
      simp only [Token.isSign, Token.isWord, Bool.and_eq_true, beq_iff_eq] at hsemicolon hword
      rw [hsemicolon.1] at hword
      cases hword.1
    · exact hbefore
  · exact (h.braced.between hctx h.keyword_mem).2

/-- The value ends before a lexeme, the semicolon or the closing brace. -/
theorem end_mem (h : ctx.Returning block stmt blockSpan valueSpan left keyword last right) :
    (if last.isSign ";" then last else right) ∈ ctx.source.lexemes := by
  split
  · exact Context.Shaped.mem_lexemes_of_mem_tokensOf h.last_mem
  · exact h.braced.right_mem

theorem end_start_le
    (h : ctx.Returning block stmt blockSpan valueSpan left keyword last right)
    (hctx : ctx.Shaped) :
    (if last.isSign ";" then last else right).span.start ≤ right.span.start := by
  split
  · exact Nat.le_trans last.span.start_le_stop (h.braced.between hctx h.last_mem).2
  · exact Nat.le_refl _

/-- The lexemes from the keyword on: the value, perhaps a semicolon, and the closing brace. -/
theorem lexemesIn_from_keyword
    (h : ctx.Returning block stmt blockSpan valueSpan left keyword last right)
    (hctx : ctx.Shaped) (hspan : ctx.tokensOf block = ctx.source.tokensIn blockSpan)
    (hle : valueSpan.stop ≤ right.span.start)
    (hfree : ctx.source.hasCommentsIn ⟨valueSpan.stop, right.span.start, hle⟩ = false) :
    ctx.source.lexemesIn keyword.span.stop right.span.stop =
      ctx.source.lexemesIn keyword.span.stop (if last.isSign ";" then last else right).span.start ++
        (if last.isSign ";" then [last] else []) ++ [right] := by
  have hkeyword := h.keyword_precedes hctx
  have hlast := (h.braced.between hctx h.last_mem).2
  have hr := right.span.start_le_stop
  split at hkeyword
  · rename_i hsemicolon
    simp only [Token.Precedes] at hkeyword hlast
    have hin := Context.Shaped.mem_lexemes_of_mem_tokensOf h.last_mem
    simp only [hsemicolon, if_true]
    rw [hctx.source.lexemesIn_split hin hkeyword (by omega),
      hctx.source.lexemesIn_split h.braced.right_mem hlast (Nat.le_refl _),
      hctx.source.lexemesIn_point, h.lexemesIn_after_last hctx hspan hle hfree]
    simp
  · rename_i hsemicolon
    simp only [hsemicolon, Bool.false_eq_true, if_false, List.append_nil]
    rw [hctx.source.lexemesIn_split h.braced.right_mem hkeyword (Nat.le_refl _),
      hctx.source.lexemesIn_point]

/-- The lexemes of the replaced text. -/
theorem lexemesIn_eq (h : ctx.Returning block stmt blockSpan valueSpan left keyword last right)
    (hctx : ctx.Shaped) (hspan : ctx.tokensOf block = ctx.source.tokensIn blockSpan)
    {arrow : Token} (harrow : ctx.source.tokenBefore blockSpan = some arrow)
    (hle₁ : arrow.span.stop ≤ left.span.start)
    (hfree₁ : ctx.source.hasCommentsIn ⟨arrow.span.stop, left.span.start, hle₁⟩ = false)
    (hle₂ : left.span.stop ≤ keyword.span.start)
    (hfree₂ : ctx.source.hasCommentsIn ⟨left.span.stop, keyword.span.start, hle₂⟩ = false)
    (hle₃ : valueSpan.stop ≤ right.span.start)
    (hfree₃ : ctx.source.hasCommentsIn ⟨valueSpan.stop, right.span.start, hle₃⟩ = false) :
    ctx.source.lexemesIn arrow.span.stop blockSpan.stop = left :: keyword ::
      ctx.source.lexemesIn keyword.span.stop (if last.isSign ";" then last else right).span.start ++
        (if last.isSign ";" then [last] else []) ++ [right] := by
  have hkeyword := (h.braced.between hctx h.keyword_mem).2
  have hin := Context.Shaped.mem_lexemes_of_mem_tokensOf h.keyword_mem
  have hk := keyword.span.start_le_stop
  have hr := right.span.start_le_stop
  simp only [Token.Precedes] at hkeyword
  have hfront := hctx.source.lexemesIn_before harrow hfree₁ (Nat.le_refl _)
    (Nat.le_of_eq h.braced.start.symm)
  rw [← h.braced.start] at hfront
  rw [← h.braced.stop, hctx.source.lexemesIn_split h.braced.left_mem hle₁ (by omega), hfront,
    hctx.source.lexemesIn_split hin hle₂ (by omega),
    h.lexemesIn_before_keyword hctx hspan hle₂ hfree₂,
    h.lexemesIn_from_keyword hctx hspan hle₃ hfree₃]
  rfl

/-- A token of the value stands before the end, or is the semicolon that is left out. -/
theorem stop_le_end (h : ctx.Returning block stmt blockSpan valueSpan left keyword last right)
    (hctx : ctx.Shaped) {t : Token} (ht : t ∈ ctx.source.tokensIn valueSpan) :
    t.span.stop ≤ (if last.isSign ";" then last else right).span.start ∨
      t = last ∧ last.isSign ";" = true := by
  split
  · rename_i hsemicolon
    rcases (hctx.tokensOf_inOrder stmt).precedes_getLast? h.getLast? (h.value_mem t ht) with
      rfl | hbefore
    · exact .inr ⟨rfl, hsemicolon⟩
    · exact .inl hbefore
  · exact .inl (h.braced.between hctx (h.value_mem t ht)).2

/-- The last lexeme of the value is no line comment, unless the value ends with a semicolon directly
after one. -/
theorem kind_getLast?_ne_lineComment
    (h : ctx.Returning block stmt blockSpan valueSpan left keyword last right)
    (hctx : ctx.Shaped) {final t : Token}
    (hfinal : (ctx.source.tokensIn valueSpan).getLast? = some final)
    (hstop : final.span.stop = valueSpan.stop) (hle : valueSpan.stop ≤ right.span.start)
    (hfree : ctx.source.hasCommentsIn ⟨valueSpan.stop, right.span.start, hle⟩ = false)
    (hclear : final.isSign ";" = true → ∀ c ∈ ctx.source.lexemes, c.kind = .lineComment →
      c.Precedes final → ctx.source.lexemesIn c.span.stop final.span.start ≠ [])
    (ht : (ctx.source.lexemesIn keyword.span.stop
      (if last.isSign ";" then last else right).span.start).getLast? = some t) :
    t.kind ≠ .lineComment := by
  intro hkind
  have hend := h.end_start_le hctx
  have hfinalMem := List.mem_of_mem_getLast? hfinal
  obtain ⟨htoken, hstart, -⟩ := Source.mem_tokensIn.1 hfinalMem
  have hlexeme := Source.mem_lexemes_of_token htoken
  obtain ⟨hmem, -, hearly⟩ := Source.mem_lexemesIn.1 (List.mem_of_mem_getLast? ht)
  -- the comment stands before, at or after the last token of the value
  rcases hctx.source.lexemes_inOrder.trichotomy hmem hlexeme with hbefore | rfl | hbehind
  · rcases h.stop_le_end hctx hfinalMem with hin | ⟨rfl, hsemicolon⟩
    · have hnone := hctx.source.lexemesIn_after_getLast? ht
      have hmore := Source.mem_lexemesIn.2 ⟨hlexeme, hbefore, hin⟩
      simp [hnone] at hmore
    · simp only [hsemicolon, if_true] at ht
      exact hclear hsemicolon t hmem hkind hbefore (hctx.source.lexemesIn_after_getLast? ht)
  · exact hctx.source.kind_ne_of_token htoken hkind
  · rcases Source.mem_lexemes.1 hmem with hcode | hcomment
    · exact hctx.source.kind_ne_of_token hcode hkind
    · simp only [Token.Precedes] at hbehind
      exact (Source.hasCommentsIn_eq_false hctx.source.comments).1 hfree t hcomment
        ⟨by simp only; omega, by simp only; omega⟩

/-- The braces and the keyword weigh eight. -/
theorem ink_le (h : ctx.Returning block stmt blockSpan valueSpan left keyword last right)
    (hctx : ctx.Shaped) {arrow : Token} (harrow : arrow ∈ ctx.source.lexemes)
    (hle : arrow.span.stop ≤ left.span.start) :
    ink (Text.slice ctx.source.text.toList keyword.span.stop
      (if last.isSign ";" then last else right).span.start) + 8 ≤
      ink (Text.slice ctx.source.text.toList arrow.span.stop blockSpan.stop) := by
  have hweight : ink keyword.value.toList = 6 := by
    rw [Token.value_of_isWord h.isReturn]
    decide +kernel
  have hin := Context.Shaped.mem_lexemes_of_mem_tokensOf h.keyword_mem
  obtain ⟨hbefore, -⟩ := h.braced.between hctx h.keyword_mem
  have hkeyword := h.keyword_precedes hctx
  have hstopMem := h.end_mem
  have hstopLe := h.end_start_le hctx
  generalize (if last.isSign ";" then last else right) = stop at hkeyword hstopMem hstopLe ⊢
  simp only [Token.Precedes] at hbefore hkeyword
  have hbraces := h.braced.ink_eq hctx
  rw [← h.braced.start, ← h.braced.stop] at hbraces
  rw [← h.braced.stop]
  have hb : ∀ {t : Token}, t ∈ ctx.source.lexemes →
      Text.IsBoundary ctx.source.text.toList t.span.start ∧
        Text.IsBoundary ctx.source.text.toList t.span.stop := fun ht =>
    ⟨(hctx.source.joint_start ht).boundary, (hctx.source.joint_stop ht).boundary⟩
  have hk := keyword.span.start_le_stop
  have hl := left.span.start_le_stop
  have hr := right.span.start_le_stop
  -- the old text, from the arrow on: gap, brace, gap, keyword, value and whatever follows it
  have hwhole := Text.ink_slice_add (hb harrow).2 (hb h.braced.left_mem).1 (hb h.braced.right_mem).2
    hle (by omega)
  have hfront := Text.ink_slice_add (hb h.braced.left_mem).2 (hb hin).1 (hb h.braced.right_mem).1
    hbefore (by omega)
  have hword := Text.ink_slice_add (hb hin).1 (hb hin).2 (hb h.braced.right_mem).1 hk (by omega)
  have hback := Text.ink_slice_add (hb hin).2 (hb hstopMem).1 (hb h.braced.right_mem).1 hkeyword
    hstopLe
  rw [hctx.source.ink_lexeme hin, hweight] at hword
  omega

end Context.Returning

/-! ### The patch -/

/-- The value is written after a space, in parentheses where it needs them. -/
theorem laid_wrapped {s : Source} {words : List String} {text : String}
    (h : Laid s.Gap words text.toList) (wrap : Bool) :
    Laid s.Gap (if wrap then "(" :: words ++ [")"] else words)
      (if wrap then " (" ++ text ++ ")" else " " ++ text).toList := by
  have hspace : ∀ c ∈ " ".toList, s.Gap c := fun c hc => .inl (by simpa using hc)
  cases wrap with
  | true =>
      have hall := (((Laid.word "(").append h).append (Laid.word ")")).gap_append hspace
      simpa using hall
  | false =>
      simpa using h.gap_append hspace

theorem lined_wrapped {s : Source} {words : List Word} {text : String}
    (h : Lined s.Gap false words text.toList false) (wrap : Bool) :
    Lined s.Gap false
      (if wrap then ⟨.punctuator, "("⟩ :: words ++ [⟨.punctuator, ")"⟩] else words)
      (if wrap then " (" ++ text ++ ")" else " " ++ text).toList false := by
  have hspace : Lined s.Gap false [] " ".toList false :=
    .gap fun c hc => .inl (by simpa using hc)
  cases wrap with
  | true =>
      have hleft : Lined s.Gap false [⟨.punctuator, "("⟩] "(".toList false := .word _
      have hright : Lined s.Gap false [⟨.punctuator, ")"⟩] ")".toList false := .word _
      have hall := hspace.append ((hleft.append h).append hright)
      simpa using hall
  | false =>
      simpa using hspace.append h

theorem ink_wrapped (text : String) (wrap : Bool) :
    ink (if wrap then " (" ++ text ++ ")" else " " ++ text).toList ≤ ink text.toList + 2 := by
  have hspace : ink " ".toList = 0 := by decide +kernel
  have hleft : ink " (".toList = 1 := by decide +kernel
  have hright : ink ")".toList = 1 := by decide +kernel
  cases wrap with
  | true =>
      simp only [if_true, String.toList_append, Text.ink_append]
      omega
  | false =>
      simp only [Bool.false_eq_true, if_false, String.toList_append, Text.ink_append]
      omega

/-- A value with its lexemes, put in the place of the block, keeps the contract. -/
theorem Context.Returning.repairs {d : Detection} {arrow stmt argument : NodeId}
    {params : List NodeId} {isAsync : Bool} {kind : Kind NodeId} {blockNode stmtNode : Node}
    {valueSpan : Span} {left keyword last right sign first : Token} {rest : List Token}
    {text : String}
    (hreturning : ctx.Returning d.node stmt blockNode.span valueSpan left keyword last right)
    (h : ctx.Shaped) (harrow : ctx.kind arrow = .ok (.arrow params d.node false isAsync))
    (hblock : ctx.tree.nodes[d.node]? = some blockNode)
    (hblockKind : blockNode.kind = .block [stmt])
    (hstmt : ctx.tree.nodes[stmt]? = some stmtNode)
    (hstmtKind : stmtNode.kind = .returnStatement (some argument))
    (hargument : ctx.kind argument = .ok kind) (hissue : d.issue = .braces)
    (hsign : sign ∈ ctx.source.tokens.toList) (hle : sign.span.stop ≤ blockNode.span.stop)
    (hlexemes : ctx.source.lexemesIn sign.span.stop blockNode.span.stop =
      left :: keyword :: (first :: rest) ++ (if last.isSign ";" then [last] else []) ++ [right])
    (hlaid : Laid ctx.source.Gap ((first :: rest).map Token.value) text.toList)
    (hink : ink text.toList + 8 ≤
      ink (Text.slice ctx.source.text.toList sign.span.stop blockNode.span.stop))
    (hlined : ctx.source.LinesEnd → d.Clear ctx →
      Lined ctx.source.Gap false ((first :: rest).map Token.word) text.toList false)
    (hend : ¬ ctx.EndsInLineComment d.node) :
    Repairs ctx d (.single ⟨⟨sign.span.stop, blockNode.span.stop, hle⟩,
      if needsParens kind first then " (" ++ text ++ ")" else " " ++ text⟩) := by
  have hstop : ctx.source.Joint blockNode.span.stop :=
    hreturning.braced.stop ▸ h.source.joint_stop hreturning.braced.right_mem
  have hrespells : Edit.Respells ctx.source
      ⟨⟨sign.span.stop, blockNode.span.stop, hle⟩,
        if needsParens kind first then " (" ++ text ++ ")" else " " ++ text⟩ _ _ :=
    ⟨h.source.joint_stop (Source.mem_lexemes_of_token hsign), hstop, hlexemes, laid_wrapped hlaid _⟩
  refine ⟨hrespells.placed_single, ?_, fun _ => ?_, fun hlines hclear => ?_, fun _ => hend⟩
  · -- eight characters go with the braces and the keyword, at most two come with parentheses
    have hnew := ink_wrapped text (needsParens kind first)
    show ink (if needsParens kind first then " (" ++ text ++ ")" else " " ++ text).toList + 0 +
      2 ≤ ink (Text.slice ctx.source.text.toList sign.span.stop blockNode.span.stop) + 0
    omega
  · obtain ⟨front, back, hall, hout⟩ := hrespells.single h.source
    refine ⟨_, .body hissue harrow (by rw [Context.kind_eq_ok hblock, hblockKind])
      (by rw [Context.kind_eq_ok hstmt, hstmtKind]) hargument
      (by rw [h.firstToken_eq_ok hblock, hreturning.braced.head?]) hreturning.braced.opening
      hreturning.isReturn (by rw [h.lastToken_eq_ok hstmt, hreturning.getLast?]) rfl
      (by rw [h.lastToken_eq_ok hblock, hreturning.braced.getLast?]) hreturning.braced.closing
      (by simpa using hall), hout⟩
  · exact (hrespells.rewords (h.source.settled hlines ⟨sign, hsign, .inr rfl⟩)
      (.body _ hreturning.braced.opening hreturning.isReturn (by simp) hreturning.braced.closing)
      (lined_wrapped (hlined hlines hclear) _)).single

/-- A patch of the block of an arrow function to the value that it returns: it comes after the
arrow, there are no comments beside the value, and the lexemes of the value are joined anew. -/
structure Context.Unblocked (ctx : Context) (blockSpan valueSpan : Span) (kind : Kind NodeId)
    (sign left keyword last right first : Token) (rest : List Token) (p : Patch) : Prop where
  before : ctx.source.tokenBefore blockSpan = some sign
  isArrow : sign.isSign "=>" = true
  sign_le : sign.span.stop ≤ left.span.start
  noComment : ∀ c ∈ ctx.source.comments.toList,
    ¬ (keyword.span.stop ≤ c.span.start ∧ c.span.stop ≤ valueSpan.start) ∧
      ¬ (valueSpan.stop ≤ c.span.start ∧ c.span.stop ≤ right.span.start)
  lexemes : ctx.source.lexemesIn sign.span.stop blockSpan.stop =
    left :: keyword :: (first :: rest) ++ (if last.isSign ";" then [last] else []) ++ [right]
  value : ctx.source.lexemesIn keyword.span.stop
    (if last.isSign ";" then last else right).span.start = first :: rest
  joined : ∃ text, ∃ hle : sign.span.stop ≤ blockSpan.stop,
    p = .single ⟨⟨sign.span.stop, blockSpan.stop, hle⟩,
      if needsParens kind first then " (" ++ text ++ ")" else " " ++ text⟩ ∧
    Laid ctx.source.Gap ((first :: rest).map Token.value) text.toList ∧
    ink text.toList ≤ ink (Text.slice ctx.source.text.toList keyword.span.stop
      (if last.isSign ";" then last else right).span.start) ∧
    (ctx.source.LinesEnd → (∀ t, (first :: rest).getLast? = some t → t.kind ≠ .lineComment) →
      Lined ctx.source.Gap false ((first :: rest).map Token.word) text.toList false)

/-- What the patch of the block of an arrow function is made of. -/
theorem bodyPatch_unblocks (h : ctx.Shaped) {block stmt argument : NodeId}
    {blockNode stmtNode node : Node} (hblock : ctx.tree.nodes[block]? = some blockNode)
    (hroot : block ≠ Tree.root) (hblockKind : blockNode.kind = .block [stmt])
    (hstmt : ctx.tree.nodes[stmt]? = some stmtNode)
    (hstmtKind : stmtNode.kind = .returnStatement (some argument))
    (hnode : ctx.tree.nodes[argument]? = some node) (hargument : argument ≠ Tree.root) :
    Yields (bodyPatch ctx block stmt argument) fun p => ∃ sign left keyword last right first rest,
      ctx.Returning block stmt blockNode.span node.span left keyword last right ∧
      ctx.Unblocked blockNode.span node.span node.kind sign left keyword last right first rest
        p := by
  obtain ⟨left, keyword, last, right, hreturning⟩ :=
    h.exists_returning hblock hroot hblockKind hstmt hstmtKind hnode hargument
  rw [bodyPatch, Context.span_eq_ok hblock, ok_bind]
  rcases hbefore : ctx.source.tokenBefore blockNode.span with _ | sign
  · exact yields_none
  obtain ⟨-, hsignLe, -⟩ := Source.tokenBefore_eq_some h.source.tokens hbefore
  have hle₁ : sign.span.stop ≤ left.span.start := by
    rw [hreturning.braced.start]
    exact hsignLe
  have hle₂ : left.span.stop ≤ keyword.span.start :=
    (hreturning.braced.between h hreturning.keyword_mem).1
  have hle₃ : node.span.stop ≤ right.span.start :=
    Nat.le_trans hreturning.le_last (hreturning.braced.between h hreturning.last_mem).2
  simp only [h.firstToken_eq_ok hblock, h.lastToken_eq_ok hblock, h.firstToken_eq_ok hstmt,
    h.lastToken_eq_ok hstmt, hreturning.braced.head?, hreturning.braced.getLast?, hreturning.head?,
    hreturning.getLast?, ok_bind, Context.span_eq_ok hnode, List.mapM_cons, List.mapM_nil,
    Span.ofBounds_of_le hle₁, Span.ofBounds_of_le hle₂, Span.ofBounds_of_le hle₃,
    Span.ofBounds_of_le hreturning.keyword_le, pure_bind]
  refine yields_unless fun hsigns => ?_
  refine yields_unless fun hfree => ?_
  refine yields_unless fun _ => ?_
  simp only [Bool.or_eq_true, not_or, Bool.not_eq_true, Bool.not_eq_false'] at hsigns
  simp only [List.any_cons, List.any_nil, Bool.or_false, Bool.or_eq_true, not_or,
    Bool.not_eq_true] at hfree
  obtain ⟨hfree₁, hfree₂, hfree, hfree₃⟩ := hfree
  -- the replaced text has no comments but those of the value
  have hlexemes := hreturning.lexemesIn_eq h (Context.tokensOf_eq hblock) hbefore hle₁ hfree₁ hle₂
    hfree₂ hle₃ hfree₃
  have hkeyword := Context.Shaped.mem_lexemes_of_mem_tokensOf hreturning.keyword_mem
  rw [h.source.tokensBetween_eq (hreturning.keyword_precedes h)]
  generalize hitems : ctx.source.lexemesIn keyword.span.stop
    (if last.isSign ";" then last else right).span.start = items at hlexemes
  rcases items with _ | ⟨first, rest⟩
  · exact yields_none
  obtain ⟨keepBreaks, hkeepBreaks, -⟩ := hasStatements_answers h hnode (first :: rest)
  simp only [List.head?_cons, hkeepBreaks, ok_bind]
  refine (joinItems_joins h.source Iff.rfl hitems).bind fun text hjoined => ?_
  have hle : sign.span.stop ≤ blockNode.span.stop :=
    Nat.le_trans hsignLe blockNode.span.start_le_stop
  rw [Context.kind_eq_ok hnode, ok_bind, Span.ofBounds_of_le hle, ok_bind]
  refine yields_some ⟨sign, left, keyword, last, right, first, rest, hreturning, hbefore,
    hsigns.1.1.1, hle₁, fun c hc => ⟨?_, ?_⟩, hlexemes, hitems, text, hle, rfl,
    hjoined.laid h.source hitems, hjoined.ink_le h.source (h.source.joint_stop hkeyword)
      (h.source.joint_start hreturning.end_mem) hitems, hjoined.lined h.source hitems⟩
  · exact (Source.hasCommentsIn_eq_false h.source.comments).1 hfree c hc
  · exact (Source.hasCommentsIn_eq_false h.source.comments).1 hfree₃ c hc

/-- The patch of the block of an arrow function to the value it returns keeps the contract. -/
theorem bodyPatch_repairs (h : ctx.Shaped) {arrow block stmt argument : NodeId}
    {params : List NodeId} {isAsync : Bool} {blockNode stmtNode node : Node}
    (harrowKind : ctx.kind arrow = .ok (.arrow params block false isAsync))
    (hblock : ctx.tree.nodes[block]? = some blockNode) (hroot : block ≠ Tree.root)
    (hblockKind : blockNode.kind = .block [stmt])
    (hstmt : ctx.tree.nodes[stmt]? = some stmtNode)
    (hstmtKind : stmtNode.kind = .returnStatement (some argument))
    (hnode : ctx.tree.nodes[argument]? = some node) (hargument : argument ≠ Tree.root) :
    Yields (bodyPatch ctx block stmt argument) fun p =>
      ∀ d : Detection, d.node = block → d.issue = .braces → Repairs ctx d p := by
  refine (bodyPatch_unblocks h hblock hroot hblockKind hstmt hstmtKind hnode hargument).imp
    fun patch hpatch p hp => ?_
  obtain ⟨sign, left, keyword, last, right, first, rest, hreturning, hunblocked⟩ := hpatch p hp
  obtain ⟨hsign, -, -⟩ := Source.tokenBefore_eq_some h.source.tokens hunblocked.before
  obtain ⟨text, hle, rfl, hlaid, hinkText, hlined⟩ := hunblocked.joined
  have hink := hreturning.ink_le h (Source.mem_lexemes_of_token hsign) hunblocked.sign_le
  have hle₃ : node.span.stop ≤ right.span.start :=
    Nat.le_trans hreturning.le_last (hreturning.braced.between h hreturning.last_mem).2
  have hlastLe : last.span.stop ≤ right.span.start :=
    (hreturning.braced.between h hreturning.last_mem).2
  have hnone : ∀ c ∈ ctx.source.commentsIn ⟨last.span.stop, right.span.start, hlastLe⟩,
      c.kind ≠ .lineComment := by
    intro c hc
    obtain ⟨hmem, hlate, hearly⟩ := (Source.mem_commentsIn h.source.comments).1 hc
    exact absurd ⟨Nat.le_trans hreturning.le_last hlate, hearly⟩ (hunblocked.noComment c hmem).2
  rintro d rfl hissue
  refine hreturning.repairs h harrowKind hblock hblockKind hstmt hstmtKind
    (Context.kind_eq_ok hnode) hissue hsign hle hunblocked.lexemes hlaid (by omega)
    (fun hlines hclear => ?_)
    (hreturning.braced.not_endsInLineComment h hblock hreturning.getLast? hlastLe hnone)
  -- the value does not end with a line comment
  obtain ⟨final, hfinal, hend⟩ := h.exists_last hnode hargument
  refine hlined hlines fun t ht => ?_
  rw [← hunblocked.value] at ht
  refine hreturning.kind_getLast?_ne_lineComment h (Context.tokensOf_eq hnode ▸ hfinal) hend
    hle₃ ((Source.hasCommentsIn_eq_false h.source.comments).2 fun c hc =>
      (hunblocked.noComment c hc).2) (fun hsemicolon => ?_) ht
  exact hclear.value arrow stmt argument params isAsync harrowKind
    (by rw [Context.kind_eq_ok hblock, hblockKind])
    (by rw [Context.kind_eq_ok hstmt, hstmtKind]) final hfinal hsemicolon

/-- **A report on an arrow function has a result, and its patch keeps the contract.** -/
theorem checkArrowBody_repairs (h : ctx.Shaped) {arrow : NodeId} {node : Node}
    (hnode : ctx.tree.nodes[arrow]? = some node) :
    Yields (checkArrowBody ctx arrow) (Detection.Sound ctx) := by
  rw [checkArrowBody, Context.kind_eq_ok hnode, ok_bind]
  split
  · rename_i params body isAsync hkind
    obtain ⟨blockNode, hblock, hroot⟩ := h.exists_part hnode (show body ∈ node.kind.children by
      simp [hkind, Kind.children])
    rw [Context.kind_eq_ok hblock, ok_bind]
    split
    · rename_i stmt hblockKind
      obtain ⟨stmtNode, hstmt, -⟩ := h.exists_part hblock (show stmt ∈ blockNode.kind.children by
        simp [hblockKind, Kind.children])
      rw [Context.kind_eq_ok hstmt, ok_bind]
      split
      · rename_i argument hstmtKind
        obtain ⟨value, hvalue, hargument⟩ :=
          h.exists_part hstmt (show argument ∈ stmtNode.kind.children by
            simp [hstmtKind, Kind.children])
        rw [Context.span_eq_ok hblock, ok_bind]
        have harrow := Context.kind_eq_ok hnode
        rw [hkind] at harrow
        refine (bodyPatch_repairs h harrow hblock hroot hblockKind hstmt hstmtKind hvalue
          hargument).bind fun patch hpatch => yields_some ?_
        exact fun p hp => hpatch p hp _ rfl rfl
      · exact yields_none
    · exact yields_none
  · exact yields_none

/-! ### What was found -/

/-- A report on an arrow function: the body is a block that only returns a value, and the patch is
the one of this block. -/
theorem checkArrowBody_found {arrow : NodeId} {d : Detection}
    (hcheck : checkArrowBody ctx arrow = .ok (some d)) :
    d.issue = .braces ∧ ∃ params isAsync stmt argument,
      ctx.kind arrow = .ok (.arrow params d.node false isAsync) ∧
      ctx.kind d.node = .ok (.block [stmt]) ∧
      ctx.kind stmt = .ok (.returnStatement (some argument)) ∧
      bodyPatch ctx d.node stmt argument = .ok d.patch := by
  obtain ⟨arrowKind, harrow, hcheck⟩ := bind_eq_ok.1 hcheck
  split at hcheck
  · rename_i params body isAsync
    obtain ⟨bodyKind, hbody, hcheck⟩ := bind_eq_ok.1 hcheck
    split at hcheck
    · rename_i stmt
      obtain ⟨stmtKind, hstmt, hcheck⟩ := bind_eq_ok.1 hcheck
      split at hcheck
      · rename_i argument
        obtain ⟨span, -, hcheck⟩ := bind_eq_ok.1 hcheck
        obtain ⟨patch, hpatch, hcheck⟩ := bind_eq_ok.1 hcheck
        obtain rfl := Option.some.inj (Except.ok.inj hcheck)
        exact ⟨rfl, params, isAsync, stmt, argument, harrow, hbody, hstmt, hpatch⟩
      · cases hcheck
    · cases hcheck
  · cases hcheck

/-- The patch of a block that only returns a value: what stands behind the keyword, up to the
semicolon or the closing brace, is joined anew, and perhaps put in parentheses. -/
theorem bodyPatch_found {block stmt argument : NodeId} {p : Patch}
    (hpatch : bodyPatch ctx block stmt argument = .ok (some p)) :
    ∃ right keyword last first rest keepBreaks text e,
      ctx.lastToken block = .ok (some right) ∧ right.isSign "\x7d" = true ∧
      ctx.firstToken stmt = .ok (some keyword) ∧ keyword.isWord "return" = true ∧
      ctx.lastToken stmt = .ok (some last) ∧
      ctx.source.tokensBetween keyword (if last.isSign ";" then last else right) true =
        first :: rest ∧
      hasStatements ctx argument (first :: rest) = .ok keepBreaks ∧
      joinItems ctx keepBreaks (first :: rest) = .ok text ∧ p = .single e ∧
      (e.text = " " ++ text ∨ e.text = " (" ++ text ++ ")") := by
  -- step by step, as the patch is made; each early return would have found nothing
  obtain ⟨blockSpan, -, hpatch⟩ := bind_eq_ok.1 hpatch
  rcases hsign : ctx.source.tokenBefore blockSpan with _ | sign
  · rw [hsign] at hpatch
    cases hpatch
  rw [hsign] at hpatch
  obtain ⟨_ | left, -, hpatch⟩ := bind_eq_ok.1 hpatch
  · cases hpatch
  obtain ⟨_ | right, hright, hpatch⟩ := bind_eq_ok.1 hpatch
  · cases hpatch
  obtain ⟨_ | keyword, hkeyword, hpatch⟩ := bind_eq_ok.1 hpatch
  · cases hpatch
  obtain ⟨hsigns, hpatch⟩ := unless_eq_some hpatch
  obtain ⟨valueSpan, -, hpatch⟩ := bind_eq_ok.1 hpatch
  obtain ⟨gaps, -, hpatch⟩ := bind_eq_ok.1 hpatch
  obtain ⟨-, hpatch⟩ := unless_eq_some hpatch
  obtain ⟨-, hpatch⟩ := unless_eq_some hpatch
  obtain ⟨_ | last, hlast, hpatch⟩ := bind_eq_ok.1 hpatch
  · cases hpatch
  dsimp only at hpatch
  generalize hitems : ctx.source.tokensBetween keyword (if last.isSign ";" then last else right)
    true = items at hpatch
  obtain _ | ⟨first, rest⟩ := items
  · cases hpatch
  obtain ⟨keepBreaks, hkeepBreaks, hpatch⟩ := bind_eq_ok.1 hpatch
  obtain ⟨text, htext, hpatch⟩ := bind_eq_ok.1 hpatch
  obtain ⟨kind, -, hpatch⟩ := bind_eq_ok.1 hpatch
  obtain ⟨replaced, -, hpatch⟩ := bind_eq_ok.1 hpatch
  obtain rfl := Option.some.inj (Except.ok.inj hpatch)
  simp only [Bool.or_eq_false_iff, Bool.not_eq_false'] at hsigns
  refine ⟨right, keyword, last, first, rest, keepBreaks, text, _, hright, hsigns.1.2, hkeyword,
    hsigns.2, hlast, hitems, hkeepBreaks, htext, rfl, ?_⟩
  dsimp only
  split
  · exact .inr rfl
  · exact .inl rfl

/-! ### What is left of the gaps -/

/-- The tokens and comments that the only statement of a block returns: those behind its keyword, up
to its semicolon or, if it has none, to the closing brace. -/
def Context.Returns (ctx : Context) (block stmt : NodeId) (items : List Token) : Prop :=
  ∃ keyword last right, ctx.firstToken stmt = .ok (some keyword) ∧
    keyword.isWord "return" = true ∧ ctx.lastToken stmt = .ok (some last) ∧
    ctx.lastToken block = .ok (some right) ∧ right.isSign "\x7d" = true ∧
    items = ctx.source.lexemesIn keyword.span.stop
      (if last.isSign ";" then last else right).span.start

/-- **A value in the place of a block keeps what matters.**  Where a block is replaced by the value
that it returns, the tokens and comments of the value are written as they are and in their order.  A
gap between two of them is closed only if it was, a line comment keeps the break after it, and where
the value has nested functions or classes all breaks are kept. -/
theorem checkArrowBody_narrows_gaps (h : ctx.Shaped) {arrow : NodeId} {node : Node}
    (hnode : ctx.tree.nodes[arrow]? = some node) :
    Yields (checkArrowBody ctx arrow) fun d => ∀ p, d.patch = some p →
      ∃ stmt argument items e text, ctx.kind d.node = .ok (.block [stmt]) ∧
        ctx.kind stmt = .ok (.returnStatement (some argument)) ∧
        ctx.Returns d.node stmt items ∧ p = .single e ∧
        (e.text = " " ++ text ∨ e.text = " (" ++ text ++ ")") ∧
        Joined (Narrowed ctx.source (ctx.HoldsStatements argument items)) items text.toList := by
  refine (checkArrowBody_repairs h hnode).of_eq_some fun d hcheck p hp => ?_
  obtain ⟨-, params, isAsync, stmt, argument, harrow, hbody, hstmt, hpatch⟩ :=
    checkArrowBody_found hcheck
  rw [hp] at hpatch
  obtain ⟨right, keyword, last, first, rest, keepBreaks, text, e, hright, hclosing, hkeyword,
    hreturn, hlast, hitems, hkeepBreaks, htext, rfl, hwritten⟩ := bodyPatch_found hpatch
  -- the nodes of the block, the statement and the value, and the outermost tokens of the first two
  obtain ⟨blockNode, hblock, hblockKind, hroot⟩ :=
    h.exists_part_of_kind harrow (by simp [Kind.children]) hbody
  obtain ⟨stmtNode, hstmtNode, hstmtKind, -⟩ :=
    h.exists_part_of_kind hbody (by simp [Kind.children]) hstmt
  obtain ⟨value, hvalue, hargument⟩ := h.exists_part hstmtNode
    (show argument ∈ stmtNode.kind.children by simp [hstmtKind, Kind.children])
  obtain ⟨left, keyword', last', right', hreturning⟩ :=
    h.exists_returning hblock hroot hblockKind hstmtNode hstmtKind hvalue hargument
  obtain rfl : keyword' = keyword := by
    rw [h.firstToken_eq_ok hstmtNode, hreturning.head?] at hkeyword
    exact Option.some.inj (Except.ok.inj hkeyword)
  obtain rfl : last' = last := by
    rw [h.lastToken_eq_ok hstmtNode, hreturning.getLast?] at hlast
    exact Option.some.inj (Except.ok.inj hlast)
  obtain rfl : right' = right := by
    rw [h.lastToken_eq_ok hblock, hreturning.braced.getLast?] at hright
    exact Option.some.inj (Except.ok.inj hright)
  rw [h.source.tokensBetween_eq (hreturning.keyword_precedes h)] at hitems
  have hkeeps := (hasStatements_answers h hvalue (first :: rest)).of_eq_ok hkeepBreaks
  exact ⟨stmt, argument, first :: rest, e, text, hbody, hstmt,
    ⟨keyword', last', right', hkeyword, hreturn, hlast, hright, hclosing, hitems.symm⟩, rfl,
    hwritten, (joinItems_joins h.source hkeeps hitems).of_eq_ok htext⟩

/-- A function with two statements is returned in `()=>{return()=>{a⏎b}}`. -/
def nestedFunction : Context where
  tree := ⟨#[
    ⟨.program [1], .upTo 0 21, none⟩,
    ⟨.expressionStatement 2, .upTo 0 21, some 0⟩,
    ⟨.arrow [] 3 false false, .upTo 0 21, some 1⟩,
    ⟨.block [4], .upTo 4 21, some 2⟩,
    ⟨.returnStatement (some 5), .upTo 5 20, some 3⟩,
    ⟨.arrow [] 6 false false, .upTo 11 20, some 4⟩,
    ⟨.block [7, 9], .upTo 15 20, some 5⟩,
    ⟨.expressionStatement 8, .upTo 16 17, some 6⟩,
    ⟨.identifier "a", .upTo 16 17, some 7⟩,
    ⟨.expressionStatement 10, .upTo 18 19, some 6⟩,
    ⟨.identifier "b", .upTo 18 19, some 9⟩]⟩
  source := ⟨"()=>\x7breturn()=>\x7ba\nb\x7d\x7d", #[
    ⟨.punctuator, "(", .upTo 0 1⟩, ⟨.punctuator, ")", .upTo 1 2⟩, ⟨.punctuator, "=>", .upTo 2 4⟩,
    ⟨.punctuator, "\x7b", .upTo 4 5⟩, ⟨.word, "return", .upTo 5 11⟩,
    ⟨.punctuator, "(", .upTo 11 12⟩, ⟨.punctuator, ")", .upTo 12 13⟩,
    ⟨.punctuator, "=>", .upTo 13 15⟩, ⟨.punctuator, "\x7b", .upTo 15 16⟩,
    ⟨.word, "a", .upTo 16 17⟩, ⟨.word, "b", .upTo 18 19⟩, ⟨.punctuator, "\x7d", .upTo 19 20⟩,
    ⟨.punctuator, "\x7d", .upTo 20 21⟩], #[]⟩

set_option maxRecDepth 20000 in
theorem wellFormed_nestedFunction : nestedFunction.WellFormed := by decide

set_option maxRecDepth 20000 in
theorem checkArrowBody_nestedFunction : checkArrowBody nestedFunction 2 =
    .ok (some ⟨3, .braces, .upTo 4 21, some (.single ⟨.upTo 4 21, " ()=>\x7ba\nb\x7d"⟩)⟩) := by
  -- evaluated by equations of the library that no smaller import has together
  cbv

/-- The break between the statements of the nested function is kept. -/
theorem checkArrowBody_narrows_gaps_nested : nestedFunction.Shaped ∧ ∃ d e items text,
    checkArrowBody nestedFunction 2 = .ok (some d) ∧ d.patch = some (.single e) ∧
      e.text = " ()=>\x7ba\nb\x7d" ∧ nestedFunction.Returns d.node 4 items ∧
      nestedFunction.HoldsStatements 5 items ∧
      (e.text = " " ++ text ∨ e.text = " (" ++ text ++ ")") ∧
      Joined (Narrowed nestedFunction.source (nestedFunction.HoldsStatements 5 items)) items
        text.toList := by
  have hshaped := wellFormed_nestedFunction.shaped
  have hblock : nestedFunction.tree.IsBelow 5 6 := .single (by decide)
  obtain ⟨stmt, argument, items, e, text, hbody, hstmt, hreturns, hp, hwritten, hjoined⟩ :=
    (checkArrowBody_narrows_gaps hshaped rfl).of_found checkArrowBody_nestedFunction _ rfl
  obtain rfl : 4 = stmt := (List.cons.inj (Kind.block.inj (Except.ok.inj hbody))).1
  obtain rfl : 5 = argument :=
    Option.some.inj (Kind.returnStatement.inj (Except.ok.inj hstmt))
  obtain ⟨rfl, -⟩ : (⟨.upTo 4 21, " ()=>\x7ba\nb\x7d"⟩ : Edit) = e ∧ _ := Patch.mk.inj hp
  exact ⟨hshaped, _, _, items, text, checkArrowBody_nestedFunction, rfl, rfl, hreturns,
    .inr ⟨6, [7, 9], hblock, rfl⟩, hwritten, hjoined⟩

end Pare
