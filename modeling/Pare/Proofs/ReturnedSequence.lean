import Mathlib.Combinatorics.Enumerative.DyckWord
import Pare.Proofs.ArrowBody

/-!
**Sequences that an arrow function returns.**

A comma ends the body of an arrow function, so a sequence can only be the body if it stands in
parentheses.  The patch puts parentheses around a sequence unless its first lexeme is one.  That is
right where this parenthesis is one of those around the whole sequence; but a sequence may also
start with an operand in parentheses, and then its commas end up outside.  Which parenthesis closes
which is a matter of the steps up and down that the parentheses of a text make: those between two
matching ones are a Dyck word.

Main definitions:

* `Pare.steps`, `Pare.Balanced`, `Pare.Enclosed` — the steps of the parentheses among some words,
  and words whose parentheses match, or whose first and last word do;
* `Pare.ReturnTokens` — the tokens of a statement that returns a value;
* `Pare.Edit.LeavesValue` — an edit that leaves the lexemes of the value.

Main results:

* `Pare.Balanced.enclosed`, `Pare.Enclosed.count_lt` — what is put in parentheses is enclosed, and
  what is enclosed stands in parentheses;
* `Pare.Context.Returning.filter_value` — the lexemes of the value as tokens of the statement;
* `Pare.Context.Returning.balanced_value`, `Pare.Context.Returning.enclosed_value` — the lexemes of
  a value whose parentheses match;
* `Pare.checkArrowBody_encloses_sequence` — **a returned sequence stays one group, unless it starts
  with a parenthesis of its own**.
-/

set_option relaxedAutoImplicit false
set_option autoImplicit false

namespace Pare

variable {ctx : Context}

/-! ### Words in parentheses -/

namespace Word

/-- The word that opens a pair of parentheses. -/
def opening : Word := ⟨.punctuator, "("⟩

/-- The word that closes a pair of parentheses. -/
def closing : Word := ⟨.punctuator, ")"⟩

/-- The step of a parenthesis: up where one opens, down where one closes. -/
def step? (w : Word) : Option DyckStep :=
  if w = opening then some .U else if w = closing then some .D else none

end Word

/-- The steps of the parentheses among some words. -/
def steps (ws : List Word) : List DyckStep := ws.filterMap Word.step?

/-- The parentheses among some words match one another. -/
def Balanced (ws : List Word) : Prop := ∃ w : DyckWord, w.toList = steps ws

/-- The first word is a parenthesis that opens, and the one that closes it is the last word. -/
structure Enclosed (ws : List Word) : Prop where
  first : ws.head? = some .opening
  last : ws.getLast? = some .closing
  nested : ∃ w : DyckWord, w.toList = steps ws ∧ w.IsNested

variable {ws vs : List Word}

@[simp] theorem steps_nil : steps [] = [] := rfl

@[simp] theorem steps_append (ws vs : List Word) : steps (ws ++ vs) = steps ws ++ steps vs :=
  List.filterMap_append

@[simp] theorem steps_opening (ws : List Word) : steps (.opening :: ws) = .U :: steps ws := rfl

@[simp] theorem steps_closing (ws : List Word) : steps (.closing :: ws) = .D :: steps ws := rfl

theorem steps_cons (w : Word) (ws : List Word) : steps (w :: ws) = w.step?.toList ++ steps ws := by
  rw [steps, List.filterMap_cons]
  cases w.step? <;> rfl

/-- Balanced words are enclosed by a pair of parentheses around them. -/
theorem Balanced.enclosed (h : Balanced ws) : Enclosed (.opening :: ws ++ [.closing]) := by
  obtain ⟨w, hw⟩ := h
  refine ⟨rfl, List.getLast?_concat, w.nest, ?_, .nest⟩
  simp [DyckWord.nest, hw]

theorem Enclosed.balanced (h : Enclosed ws) : Balanced ws := by
  obtain ⟨w, hw, -⟩ := h.nested
  exact ⟨w, hw⟩

/-- Parentheses around balanced words, as many on the left as on the right. -/
theorem Balanced.surround (h : Balanced ws) (n : Nat) :
    Balanced (List.replicate n .opening ++ ws ++ List.replicate n .closing) := by
  induction n with
  | zero => simpa using h
  | succ n ih =>
      rw [List.replicate_succ, List.replicate_succ', ← List.append_assoc]
      exact ih.enclosed.balanced

/-- Behind its first word, what is enclosed is in parentheses. -/
theorem Enclosed.count_lt {front back : List Word} {w : Word} (h : Enclosed (front ++ w :: back))
    (hfront : front ≠ []) : (steps front).count .D < (steps front).count .U := by
  obtain ⟨hfirst, hlast, word, hword, hnested⟩ := h
  rw [steps_append] at hword
  have htake : word.toList.take (steps front).length = steps front := by
    rw [hword, List.take_left]
  have hstart : steps front ≠ [] := by
    cases front with
    | nil => exact absurd rfl hfront
    | cons v front =>
        obtain rfl : v = .opening := by simpa using hfirst
        simp
  have hrest : steps (w :: back) ≠ [] := by
    rw [List.getLast?_append_of_ne_nil _ (List.cons_ne_nil w back)] at hlast
    obtain ⟨middle, hmiddle⟩ := List.getLast?_eq_some_iff.1 hlast
    simp [hmiddle]
  have hlt := hnested.2 (List.length_pos_iff.2 hstart) (by
    rw [hword, List.length_append]
    have := List.length_pos_iff.2 hrest
    omega)
  rwa [htake] at hlt

/-! ### Tokens in parentheses -/

theorem map_text_word (ts : List Token) :
    (ts.map Token.word).map Word.text = ts.map Token.value := by
  rw [List.map_map]
  rfl

theorem Token.word_of_isSign {t : Token} {text : String} (h : t.isSign text = true) :
    t.word = ⟨.punctuator, text⟩ := by
  simp only [isSign, Bool.and_eq_true, beq_iff_eq] at h
  rw [word, h.1, h.2]

theorem Token.isComment_of_isSign {t : Token} {text : String} (h : t.isSign text = true) :
    t.isComment = false := by
  simp only [isSign, Bool.and_eq_true, beq_iff_eq] at h
  rw [isComment, h.1]
  rfl

theorem Token.isSign_eq_false {t : Token} {text other : String} (h : t.isSign text = true)
    (hne : text ≠ other) : t.isSign other = false := by
  rw [isSign, Token.value_of_isSign h]
  simp [hne]

/-- Tokens that are all one sign are the word of it, over and over. -/
theorem map_word_eq_replicate {ts : List Token} {text : String}
    (h : ∀ t ∈ ts, t.isSign text = true) :
    ts.map Token.word = List.replicate ts.length ⟨.punctuator, text⟩ := by
  rw [List.eq_replicate_iff]
  refine ⟨List.length_map _, fun w hw => ?_⟩
  obtain ⟨t, ht, rfl⟩ := List.mem_map.1 hw
  exact Token.word_of_isSign (h t ht)

/-- Parenthesis tokens around tokens whose parentheses match, as many on the left as on the
right. -/
theorem balanced_surround {left ts right : List Token} (hleft : ∀ t ∈ left, t.isSign "(" = true)
    (hright : ∀ t ∈ right, t.isSign ")" = true) (hlength : left.length = right.length)
    (h : Balanced (ts.map Token.word)) : Balanced ((left ++ ts ++ right).map Token.word) := by
  rw [List.map_append, List.map_append, map_word_eq_replicate hleft, map_word_eq_replicate hright,
    ← hlength]
  exact h.surround left.length

/-- Comments are no parentheses. -/
theorem steps_filter (ts : List Token) :
    steps ((ts.filter fun t => !t.isComment).map Token.word) = steps (ts.map Token.word) := by
  induction ts with
  | nil => rfl
  | cons t ts ih =>
      cases hcomment : t.isComment with
      | false => simpa [hcomment, steps_cons] using ih
      | true =>
          have hnone : t.word.step? = none := by
            have hkind : t.kind ≠ .punctuator := by
              intro hkind
              simp [Token.isComment, hkind, Token.Kind.isComment] at hcomment
            simp [Word.step?, Word.opening, Word.closing, Token.word, hkind]
          simpa [hcomment, steps_cons, hnone] using ih

/-! ### The tokens of the value -/

namespace Context.Returning

variable {block stmt : NodeId} {blockSpan valueSpan : Span} {left keyword last right : Token}

/-- What stands between the keyword and the closing brace belongs to the statement. -/
theorem mem_tokensOf (h : ctx.Returning block stmt blockSpan valueSpan left keyword last right)
    (hctx : ctx.Shaped) (hspan : ctx.tokensOf block = ctx.source.tokensIn blockSpan) {t : Token}
    (ht : t ∈ ctx.source.tokens.toList) (hafter : keyword.Precedes t)
    (hbefore : t.Precedes right) : t ∈ ctx.tokensOf stmt := by
  have hne := hctx.source.tokens.nonempty t ht
  have hle := (h.braced.between hctx h.keyword_mem).1
  have hk := keyword.span.start_le_stop
  refine h.braced.mem_of_between hspan ht hne ?_ hbefore
  simp only [Token.Precedes] at hle hafter ⊢
  omega

/-- A code token stands between the keyword and a later offset if it is one of the statement that
comes after the keyword and ends by there. -/
theorem mem_filter_lexemesIn
    (h : ctx.Returning block stmt blockSpan valueSpan left keyword last right)
    (hctx : ctx.Shaped) (hspan : ctx.tokensOf block = ctx.source.tokensIn blockSpan)
    {rest : List Token} (hrest : ctx.tokensOf stmt = keyword :: rest) {stop : Nat}
    (hstop : stop ≤ right.span.start) (t : Token) :
    t ∈ ((ctx.source.lexemesIn keyword.span.stop stop).filter fun t => !t.isComment) ↔
      t ∈ rest ∧ t.span.stop ≤ stop := by
  have horder := hctx.tokensOf_inOrder stmt
  rw [hrest] at horder
  simp only [List.mem_filter, Source.mem_lexemesIn, Source.mem_lexemes, Bool.not_eq_true']
  constructor
  · rintro ⟨⟨hlexeme, hafter, hbefore⟩, hcode⟩
    have ht : t ∈ ctx.source.tokens.toList := by
      refine hlexeme.resolve_right fun hcomment => ?_
      simp [hctx.source.isComment t hcomment] at hcode
    have hin := h.mem_tokensOf hctx hspan ht hafter (Nat.le_trans hbefore hstop)
    rw [hrest, List.mem_cons] at hin
    refine ⟨hin.resolve_left ?_, hbefore⟩
    rintro rfl
    exact Nat.not_le.2 (hctx.source.tokens.nonempty t ht) hafter
  · rintro ⟨hin, hbefore⟩
    have ht : t ∈ ctx.source.tokens.toList :=
      Context.Shaped.mem_tokens_of_mem_tokensOf (hrest ▸ List.mem_cons_of_mem keyword hin)
    exact ⟨⟨.inl ht, (List.pairwise_cons.1 horder.apart).1 t hin, hbefore⟩,
      hctx.source.isCode t ht⟩

/-- The code tokens between the keyword and the end of the value, and the semicolon if there is one,
are the tokens of the statement behind the keyword. -/
theorem filter_value (h : ctx.Returning block stmt blockSpan valueSpan left keyword last right)
    (hctx : ctx.Shaped) (hspan : ctx.tokensOf block = ctx.source.tokensIn blockSpan)
    {rest : List Token} (hrest : ctx.tokensOf stmt = keyword :: rest) :
    ((ctx.source.lexemesIn keyword.span.stop
      (if last.isSign ";" then last else right).span.start).filter fun t => !t.isComment) ++
        (if last.isSign ";" then [last] else []) = rest := by
  have horder := hctx.tokensOf_inOrder stmt
  have hlast := h.getLast?
  have hafter := h.keyword_precedes hctx
  have hmem := h.mem_filter_lexemesIn hctx hspan hrest (h.end_start_le hctx)
  have hcode := (hctx.source.lexemesIn_inOrder keyword.span.stop
    (if last.isSign ";" then last else right).span.start).filter fun t => !t.isComment
  rw [hrest] at horder hlast
  have hrestOrder : InOrder rest :=
    ⟨(List.pairwise_cons.1 horder.apart).2,
      fun t ht => horder.nonempty t (List.mem_cons_of_mem keyword ht)⟩
  cases hsemicolon : last.isSign ";" with
  | false =>
      simp only [hsemicolon, Bool.false_eq_true, if_false, List.append_nil] at hmem hcode ⊢
      refine hcode.eq_of_mem_iff hrestOrder fun t => ?_
      rw [hmem]
      refine and_iff_left_of_imp fun ht => ?_
      exact (h.braced.between hctx (hrest ▸ List.mem_cons_of_mem keyword ht)).2
  | true =>
      simp only [hsemicolon, if_true] at hmem hcode hafter ⊢
      -- the semicolon is the last token of the statement, and not the keyword
      have hne := horder.nonempty last (List.mem_of_mem_getLast? hlast)
      have hin : last ∈ rest := by
        refine (List.mem_cons.1 (List.mem_of_mem_getLast? hlast)).resolve_left ?_
        rintro rfl
        exact Nat.not_le.2 hne hafter
      refine (hcode.concat hne fun t ht => ((hmem t).1 ht).2).eq_of_mem_iff hrestOrder fun t => ?_
      rw [List.mem_append, hmem, List.mem_singleton]
      constructor
      · rintro (⟨ht, -⟩ | rfl)
        · exact ht
        · exact hin
      · intro ht
        rcases horder.precedes_getLast? hlast (List.mem_cons_of_mem keyword ht) with rfl | hbefore
        · exact .inr rfl
        · exact .inl ⟨ht, hbefore⟩

end Context.Returning

/-- The tokens of a statement that returns a value: the keyword, the value, perhaps in parentheses,
and perhaps a semicolon. -/
structure ReturnTokens (ts : List Token) (keyword : Token)
    (opening value closing tail : List Token) : Prop where
  opens : ∀ t ∈ opening, t.isSign "(" = true
  closes : ∀ t ∈ closing, t.isSign ")" = true
  length_eq : opening.length = closing.length
  ends : tail = [] ∨ ∃ t, tail = [t] ∧ t.isSign ";" = true
  tokens : ts = keyword :: (opening ++ value ++ closing ++ tail)

theorem Context.Shaped.exists_returnTokens (h : ctx.Shaped) {stmt argument : NodeId} {node : Node}
    {keyword : Token} (hnode : ctx.tree.nodes[stmt]? = some node)
    (hkind : node.kind = .returnStatement (some argument))
    (hkeyword : (ctx.tokensOf stmt).head? = some keyword) :
    ∃ opening closing tail,
      ReturnTokens (ctx.tokensOf stmt) keyword opening (ctx.tokensOf argument) closing tail := by
  obtain ⟨first, opening, closing, tail, -, hopening, hclosing, hlength, htail, htokens⟩ :=
    h.returned stmt node (some argument) hnode hkind
  rw [Option.toList_some, List.flatMap_singleton] at htokens
  obtain rfl : first = keyword := by simpa [htokens] using hkeyword
  exact ⟨opening, closing, tail, hopening, hclosing, hlength, htail, htokens⟩

namespace Context.Returning

variable {block stmt : NodeId} {blockSpan valueSpan : Span} {left keyword last right : Token}
  {opening value closing tail : List Token}

/-- The code tokens of the value and of the parentheses around it; a semicolon that ends a value
without parentheses is left out. -/
theorem exists_cut (h : ctx.Returning block stmt blockSpan valueSpan left keyword last right)
    (hctx : ctx.Shaped) (hspan : ctx.tokensOf block = ctx.source.tokensIn blockSpan)
    (hreturn : ReturnTokens (ctx.tokensOf stmt) keyword opening value closing tail) :
    ∃ cut, (cut = [] ∨ opening = [] ∧ ∃ t, cut = [t] ∧ t.isSign ";" = true) ∧
      ((ctx.source.lexemesIn keyword.span.stop
        (if last.isSign ";" then last else right).span.start).filter fun t => !t.isComment) ++ cut =
          opening ++ value ++ closing := by
  have hall := h.filter_value hctx hspan hreturn.tokens
  have hlast := h.getLast?
  rw [hreturn.tokens] at hlast
  rcases hreturn.ends with rfl | ⟨t, rfl, ht⟩
  · rw [List.append_nil] at hall hlast
    refine ⟨_, ?_, hall⟩
    cases hsemicolon : last.isSign ";" with
    | false => exact .inl rfl
    | true =>
        refine .inr ⟨?_, last, rfl, hsemicolon⟩
        -- what ends with a closing parenthesis does not end with a semicolon
        rcases List.eq_nil_or_concat' closing with hnil | ⟨front, z, hclosing⟩
        · rw [← List.length_eq_zero_iff, hreturn.length_eq, hnil, List.length_nil]
        · have hz := hreturn.closes z (by simp [hclosing])
          rw [hclosing, ← List.append_assoc, ← List.cons_append, List.getLast?_concat] at hlast
          obtain rfl := Option.some.inj hlast
          simp [Token.isSign_eq_false hz (show ")" ≠ ";" by decide)] at hsemicolon
  · rw [← List.cons_append, List.getLast?_concat] at hlast
    obtain rfl := Option.some.inj hlast
    rw [ht] at hall ⊢
    simp only [if_true] at hall ⊢
    exact ⟨[], .inl rfl, by rw [List.append_nil]; exact (List.append_inj' hall rfl).1⟩

/-- Where the parentheses of the value match, so do those of its lexemes with the parentheses around
it. -/
theorem balanced_value (h : ctx.Returning block stmt blockSpan valueSpan left keyword last right)
    (hctx : ctx.Shaped) (hspan : ctx.tokensOf block = ctx.source.tokensIn blockSpan)
    (hreturn : ReturnTokens (ctx.tokensOf stmt) keyword opening value closing tail)
    (hbalanced : Balanced (value.map Token.word)) :
    Balanced ((ctx.source.lexemesIn keyword.span.stop
      (if last.isSign ";" then last else right).span.start).map Token.word) := by
  obtain ⟨cut, hcut, hall⟩ := h.exists_cut hctx hspan hreturn
  have hnone : steps (cut.map Token.word) = [] := by
    rcases hcut with rfl | ⟨-, t, rfl, ht⟩
    · rfl
    · rw [List.map_singleton, Token.word_of_isSign ht]
      rfl
  obtain ⟨w, hw⟩ := balanced_surround hreturn.opens hreturn.closes hreturn.length_eq hbalanced
  refine ⟨w, ?_⟩
  rw [hw, ← hall, List.map_append, steps_append, hnone, List.append_nil, steps_filter]

/-- The lexemes of a value in parentheses end with a parenthesis. -/
theorem getLast?_value (h : ctx.Returning block stmt blockSpan valueSpan left keyword last right)
    (hctx : ctx.Shaped) {front : List Token} {z final : Token}
    (hreturn : ReturnTokens (ctx.tokensOf stmt) keyword opening value (front ++ [z]) tail)
    (hfinal : final ∈ value) (hstop : final.span.stop = valueSpan.stop)
    (hfree : ∀ c ∈ ctx.source.comments.toList,
      ¬ (valueSpan.stop ≤ c.span.start ∧ c.span.stop ≤ right.span.start))
    (hcode : ((ctx.source.lexemesIn keyword.span.stop
      (if last.isSign ";" then last else right).span.start).filter fun t => !t.isComment) =
        opening ++ value ++ (front ++ [z])) :
    (ctx.source.lexemesIn keyword.span.stop
      (if last.isSign ";" then last else right).span.start).getLast? = some z := by
  have hend := h.end_start_le hctx
  have horder := hctx.source.lexemesIn_inOrder keyword.span.stop
    (if last.isSign ";" then last else right).span.start
  have hcodeOrder := horder.filter fun t => !t.isComment
  generalize hitems : ctx.source.lexemesIn keyword.span.stop
    (if last.isSign ";" then last else right).span.start = items at hcode horder hcodeOrder ⊢
  rw [hcode, ← List.append_assoc] at hcodeOrder
  have hz : z ∈ items := by
    have hin : z ∈ items.filter fun t => !t.isComment := by simp [hcode]
    exact (List.mem_filter.1 hin).1
  obtain ⟨u, hu⟩ : ∃ u, items.getLast? = some u :=
    ⟨_, List.getLast?_eq_some_getLast (List.ne_nil_of_mem hz)⟩
  rw [hu]
  rcases horder.precedes_getLast? hu hz with rfl | hbehind
  · rfl
  exfalso
  have humem := List.mem_of_mem_getLast? hu
  have hne := horder.nonempty u humem
  simp only [Token.Precedes] at hbehind
  rw [← hitems] at humem
  obtain ⟨hlexeme, -, hearly⟩ := Source.mem_lexemesIn.1 humem
  rcases Source.mem_lexemes.1 hlexeme with htoken | hcomment
  · -- a token is one of the code tokens, of which the parenthesis is the last
    have hin : u ∈ opening ++ value ++ front ++ [z] := by
      rw [List.append_assoc, ← hcode, List.mem_filter]
      exact ⟨hitems ▸ humem, by simp [hctx.source.isCode u htoken]⟩
    rcases hcodeOrder.precedes_getLast? List.getLast?_concat hin with rfl | hbefore
    · omega
    · simp only [Token.Precedes] at hbefore
      have hle := z.span.start_le_stop
      omega
  · -- a comment would stand behind the value
    have hlate : final.Precedes z := by
      refine (List.pairwise_append.1 hcodeOrder.apart).2.2 final ?_ z (List.mem_singleton.2 rfl)
      simp [hfinal]
    have hle := z.span.start_le_stop
    simp only [Token.Precedes] at hlate
    exact hfree u hcomment ⟨by omega, by omega⟩

/-- The lexemes of a value in parentheses, if they start with a parenthesis, are enclosed. -/
theorem enclosed_value (h : ctx.Returning block stmt blockSpan valueSpan left keyword last right)
    (hctx : ctx.Shaped) (hspan : ctx.tokensOf block = ctx.source.tokensIn blockSpan)
    {final first : Token} {rest : List Token}
    (hreturn : ReturnTokens (ctx.tokensOf stmt) keyword opening value closing tail)
    (hfinal : final ∈ value) (hstop : final.span.stop = valueSpan.stop)
    (hfree : ∀ c ∈ ctx.source.comments.toList,
      ¬ (valueSpan.stop ≤ c.span.start ∧ c.span.stop ≤ right.span.start))
    (hbalanced : Balanced (value.map Token.word)) (hopening : opening ≠ [])
    (hfirst : first.isSign "(" = true)
    (hvalue : ctx.source.lexemesIn keyword.span.stop
      (if last.isSign ";" then last else right).span.start = first :: rest) :
    Enclosed ((first :: rest).map Token.word) := by
  obtain ⟨cut, hcut, hcode⟩ := h.exists_cut hctx hspan hreturn
  obtain rfl : cut = [] := hcut.resolve_right fun hnone => hopening hnone.1
  rw [List.append_nil] at hcode
  obtain ⟨o, os, rfl⟩ := List.exists_cons_of_ne_nil hopening
  obtain ⟨front, z, rfl⟩ : ∃ front z, closing = front ++ [z] := by
    refine (List.eq_nil_or_concat' closing).resolve_left ?_
    rintro rfl
    exact absurd hreturn.length_eq (by simp)
  have hlast := h.getLast?_value hctx hreturn hfinal hstop hfree hcode
  have hz : z.isSign ")" = true := hreturn.closes z (by simp)
  rw [hvalue] at hlast hcode
  -- the first and the last lexeme are two parentheses
  obtain ⟨inner, rfl⟩ : ∃ inner, rest = inner ++ [z] := by
    rcases List.eq_nil_or_concat' rest with rfl | ⟨inner, u, rfl⟩
    · obtain rfl : first = z := by simpa using hlast
      simp [Token.isSign_eq_false hz (show ")" ≠ "(" by decide)] at hfirst
    · rw [← List.cons_append, List.getLast?_concat] at hlast
      exact ⟨inner, by rw [Option.some.inj hlast]⟩
  have hinner : (inner.filter fun t => !t.isComment) = os ++ value ++ front := by
    simp only [List.filter_cons, List.filter_append, List.filter_nil,
      Token.isComment_of_isSign hfirst, Token.isComment_of_isSign hz, Bool.not_false, if_true,
      List.cons_append, List.cons.injEq, ← List.append_assoc] at hcode
    exact (List.append_inj' hcode.2 rfl).1
  have hopens : ∀ t ∈ os, t.isSign "(" = true := fun t ht =>
    hreturn.opens t (List.mem_cons_of_mem o ht)
  have hcloses : ∀ t ∈ front, t.isSign ")" = true := fun t ht =>
    hreturn.closes t (List.mem_append_left [z] ht)
  have hlength : os.length = front.length := by simpa using hreturn.length_eq
  obtain ⟨w, hw⟩ := balanced_surround hopens hcloses hlength hbalanced
  have hbetween : Balanced (inner.map Token.word) := ⟨w, by rw [hw, ← hinner, steps_filter]⟩
  rw [List.map_cons, List.map_append, List.map_singleton, Token.word_of_isSign hfirst,
    Token.word_of_isSign hz]
  exact hbetween.enclosed

/-- A value with parentheses directly around it is in parentheses after the keyword. -/
theorem opening_ne_nil (h : ctx.Returning block stmt blockSpan valueSpan left keyword last right)
    (hctx : ctx.Shaped) (hspan : ctx.tokensOf block = ctx.source.tokensIn blockSpan)
    (hreturn : ReturnTokens (ctx.tokensOf stmt) keyword opening (ctx.source.tokensIn valueSpan)
      closing tail)
    {final : Token} (hfinal : final ∈ ctx.source.tokensIn valueSpan)
    (hstop : final.span.stop = valueSpan.stop) {pair : Token × Token}
    (hgrouping : ctx.groupingAt valueSpan = some pair) : opening ≠ [] := by
  rintro rfl
  obtain ⟨l, r⟩ := pair
  obtain ⟨hbefore, -, hl, -⟩ := Context.groupingAt_eq_some hgrouping
  obtain ⟨hmem, hle, hnearest⟩ := Source.tokenBefore_eq_some hctx.source.tokens hbefore
  have hne := hctx.source.tokens.nonempty l hmem
  have hspanLe := valueSpan.start_le_stop
  have hkeywordMem := Context.Shaped.mem_tokens_of_mem_tokensOf h.keyword_mem
  rcases hnearest keyword hkeywordMem h.keyword_le with rfl | hlate
  · have hword := h.isReturn
    simp only [Token.isSign, Token.isWord, Bool.and_eq_true, beq_iff_eq] at hl hword
    rw [hl.1] at hword
    cases hword.1
  -- a parenthesis after the keyword would be a token of the statement
  have hright : l.Precedes right := by
    have hlast := (h.braced.between hctx h.last_mem).2
    have hle' := h.le_last
    simp only [Token.Precedes] at hlast ⊢
    omega
  have hin := h.mem_tokensOf hctx hspan hmem hlate hright
  have horder := hctx.tokensOf_inOrder stmt
  rw [hreturn.tokens, List.nil_append, List.append_assoc] at hin horder
  rcases List.mem_cons.1 hin with rfl | hin
  · simp only [Token.Precedes] at hlate
    omega
  rcases List.mem_append.1 hin with hin | hin
  · have hstart := (Source.mem_tokensIn.1 hin).2.1
    omega
  · have hafter := (List.pairwise_append.1 (List.pairwise_cons.1 horder.apart).2).2.2 final hfinal
      l hin
    simp only [Token.Precedes] at hafter
    omega

end Context.Returning

/-! ### The report -/

/-- The patch for the body of an arrow function is the one that puts the returned value in the place
of the body. -/
theorem checkArrowBody_eq_some {arrow body stmt argument : NodeId} {params : List NodeId}
    {isAsync : Bool} {d : Detection} {p : Patch}
    (harrow : ctx.kind arrow = .ok (.arrow params body false isAsync))
    (hbody : ctx.kind body = .ok (.block [stmt]))
    (hstmt : ctx.kind stmt = .ok (.returnStatement (some argument)))
    (hcheck : checkArrowBody ctx arrow = .ok (some d)) (hp : d.patch = some p) :
    bodyPatch ctx body stmt argument = .ok (some p) := by
  obtain ⟨-, _, _, _, _, harrow', hbody', hstmt', hpatch⟩ := checkArrowBody_found hcheck
  rw [harrow, Except.ok.injEq, Kind.arrow.injEq] at harrow'
  obtain ⟨-, rfl, -, -⟩ := harrow'
  rw [hbody, Except.ok.injEq, Kind.block.injEq, List.cons.injEq] at hbody'
  obtain ⟨rfl, -⟩ := hbody'
  rw [hstmt, Except.ok.injEq, Kind.returnStatement.injEq, Option.some.injEq] at hstmt'
  obtain rfl := hstmt'
  rw [hpatch, hp]

/-- An edit that puts words in the place of a block that only returns a value: the lexemes of the
value, perhaps in one more pair of parentheses. -/
structure Edit.LeavesValue (s : Source) (e : Edit) (words : List Word) : Prop where
  old : ∃ left keyword value tail right, left.isSign "\x7b" = true ∧
    keyword.isWord "return" = true ∧ (tail = [] ∨ ∃ t, tail = [t] ∧ t.isSign ";" = true) ∧
    right.isSign "\x7d" = true ∧
    s.lexemesIn e.span.start e.span.stop = left :: keyword :: value ++ tail ++ [right] ∧
    (words = value.map Token.word ∨ words = .opening :: value.map Token.word ++ [.closing])
  new : Laid s.Gap (words.map Word.text) e.text.toList

namespace Context.Unblocked

variable {block stmt : NodeId} {blockSpan valueSpan : Span} {kind : Kind NodeId}
  {sign left keyword last right first : Token} {rest : List Token} {p : Patch}
  {opening closing tail : List Token}

/-- The patch leaves the lexemes of the value, in parentheses if they are needed. -/
theorem exists_leavesValue
    (h : ctx.Unblocked blockSpan valueSpan kind sign left keyword last right first rest p)
    (hreturning : ctx.Returning block stmt blockSpan valueSpan left keyword last right) :
    ∃ e, p = .single e ∧ e.span.start = sign.span.stop ∧ e.span.stop = blockSpan.stop ∧
      e.LeavesValue ctx.source (if needsParens kind first then
        .opening :: (first :: rest).map Token.word ++ [.closing]
        else (first :: rest).map Token.word) := by
  obtain ⟨text, hle, rfl, hlaid, -, -⟩ := h.joined
  have htail : (if last.isSign ";" then [last] else []) = [] ∨
      ∃ t, (if last.isSign ";" then [last] else []) = [t] ∧ t.isSign ";" = true := by
    split
    · exact .inr ⟨last, rfl, ‹_›⟩
    · exact .inl rfl
  refine ⟨_, rfl, rfl, rfl, ⟨left, keyword, first :: rest, _, right, hreturning.braced.opening,
    hreturning.isReturn, htail, hreturning.braced.closing, h.lexemes, ?_⟩, ?_⟩
  · split
    · exact .inr rfl
    · exact .inl rfl
  · have hwrapped := laid_wrapped hlaid (needsParens kind first)
    rw [← map_text_word] at hwrapped
    cases hneeds : needsParens kind first with
    | false => simpa [hneeds] using hwrapped
    | true => simpa [hneeds, Word.opening, Word.closing] using hwrapped

/-- Where the value starts with a parenthesis although it is not one of its own tokens, the value is
in parentheses. -/
theorem opening_ne_nil
    (h : ctx.Unblocked blockSpan valueSpan kind sign left keyword last right first rest p)
    (hreturning : ctx.Returning block stmt blockSpan valueSpan left keyword last right)
    (hctx : ctx.Shaped) (hspan : ctx.tokensOf block = ctx.source.tokensIn blockSpan)
    {value : List Token}
    (hreturn : ReturnTokens (ctx.tokensOf stmt) keyword opening value closing tail)
    (hfirst : first.isSign "(" = true) (hplain : ∀ t ∈ value.head?, t.isSign "(" = false) :
    opening ≠ [] := by
  rintro rfl
  obtain ⟨cut, -, hcode⟩ := hreturning.exists_cut hctx hspan hreturn
  obtain rfl : closing = [] := List.length_eq_zero_iff.1 hreturn.length_eq.symm
  simp only [h.value, List.filter_cons, Token.isComment_of_isSign hfirst, Bool.not_false, if_true,
    List.nil_append, List.append_nil, List.cons_append] at hcode
  have hhead : value.head? = some first := by rw [← hcode, List.head?_cons]
  exact absurd (hplain first hhead) (by simp [hfirst])

/-- The patch for a returned sequence encloses it, if the sequence is in parentheses or does not
start with one. -/
theorem exists_enclosed
    (h : ctx.Unblocked blockSpan valueSpan kind sign left keyword last right first rest p)
    (hreturning : ctx.Returning block stmt blockSpan valueSpan left keyword last right)
    (hctx : ctx.Shaped) (hspan : ctx.tokensOf block = ctx.source.tokensIn blockSpan)
    (hsequence : isSequence kind = true)
    (hreturn : ReturnTokens (ctx.tokensOf stmt) keyword opening (ctx.source.tokensIn valueSpan)
      closing tail)
    {final : Token} (hfinal : final ∈ ctx.source.tokensIn valueSpan)
    (hstop : final.span.stop = valueSpan.stop)
    (hbalanced : Balanced ((ctx.source.tokensIn valueSpan).map Token.word))
    (hgrouped : opening ≠ [] ∨
      ∀ t ∈ (ctx.source.tokensIn valueSpan).head?, t.isSign "(" = false) :
    ∃ e words, p = .single e ∧ e.span.start = sign.span.stop ∧ e.span.stop = blockSpan.stop ∧
      e.LeavesValue ctx.source words ∧ Enclosed words := by
  obtain ⟨e, hp, hstart, hend, hleaves⟩ := h.exists_leavesValue hreturning
  refine ⟨e, _, hp, hstart, hend, hleaves, ?_⟩
  cases hfirst : first.isSign "(" with
  | false =>
      have hneeds : needsParens kind first = true := by simp [needsParens, hsequence, hfirst]
      rw [if_pos hneeds, ← h.value]
      exact (hreturning.balanced_value hctx hspan hreturn hbalanced).enclosed
  | true =>
      have hneeds : needsParens kind first = false := by
        simp [needsParens, hfirst, Token.isSign_eq_false hfirst (show "(" ≠ "\x7b" by decide)]
      have hopening : opening ≠ [] :=
        hgrouped.elim id (h.opening_ne_nil hreturning hctx hspan hreturn hfirst)
      rw [hneeds, if_neg Bool.false_ne_true]
      exact hreturning.enclosed_value hctx hspan hreturn hfinal hstop
        (fun c hc => (h.noComment c hc).2) hbalanced hopening hfirst h.value

end Context.Unblocked

/-- **A returned sequence stays one group, unless it starts with a parenthesis of its own.**  In the
place of the block stand the lexemes of the sequence; the first is a parenthesis, and the one that
closes it is the last, so every comma stands in parentheses.  The parentheses of the sequence match,
and it is in parentheses already or does not start with one. -/
theorem checkArrowBody_encloses_sequence (h : ctx.Shaped)
    {arrow body stmt argument : NodeId} {params parts : List NodeId} {isAsync : Bool}
    {d : Detection} {p : Patch}
    (harrow : ctx.kind arrow = .ok (.arrow params body false isAsync))
    (hbody : ctx.kind body = .ok (.block [stmt]))
    (hstmt : ctx.kind stmt = .ok (.returnStatement (some argument)))
    (hargument : ctx.kind argument = .ok (.sequence parts))
    (hcheck : checkArrowBody ctx arrow = .ok (some d)) (hp : d.patch = some p)
    (hbalanced : Balanced ((ctx.tokensOf argument).map Token.word))
    (hgrouped : (∃ pair, ctx.grouping argument = .ok (some pair)) ∨
      ∀ first ∈ (ctx.tokensOf argument).head?, first.isSign "(" = false) :
    ∃ span sign e words, ctx.span body = .ok span ∧ ctx.source.tokenBefore span = some sign ∧
      sign.isSign "=>" = true ∧ p = .single e ∧ e.span.start = sign.span.stop ∧
      e.span.stop = span.stop ∧ e.LeavesValue ctx.source words ∧ Enclosed words ∧
      ∀ front comma back, words = front ++ comma :: back → comma.text = "," →
        (steps front).count .D < (steps front).count .U := by
  -- the nodes that the report is about
  obtain ⟨blockNode, hblock, hblockKind, hroot⟩ :=
    h.exists_part_of_kind harrow (by simp [Kind.children]) hbody
  obtain ⟨stmtNode, hstmtNode, hstmtKind, -⟩ :=
    h.exists_part_of_kind hbody (by simp [Kind.children]) hstmt
  obtain ⟨node, hnode, hkind, hargumentRoot⟩ :=
    h.exists_part_of_kind hstmt (by simp [Kind.children]) hargument
  have hpatch := checkArrowBody_eq_some harrow hbody hstmt hcheck hp
  obtain ⟨found, hfound, hall⟩ :=
    bodyPatch_unblocks h hblock hroot hblockKind hstmtNode hstmtKind hnode hargumentRoot
  obtain rfl := Except.ok.inj (hfound.symm.trans hpatch)
  obtain ⟨sign, left, keyword, last, right, first, rest, hreturning, hunblocked⟩ := hall p rfl
  -- the tokens of the value
  have hspan := Context.tokensOf_eq hblock
  have hvalue := Context.tokensOf_eq hnode
  obtain ⟨opening, closing, tail, hreturn⟩ :=
    h.exists_returnTokens hstmtNode hstmtKind hreturning.head?
  obtain ⟨final, hfinal, hstop⟩ := h.exists_last hnode hargumentRoot
  rw [hvalue] at hreturn hfinal hbalanced hgrouped
  have hfinalMem := List.mem_of_mem_getLast? hfinal
  have hopening : opening ≠ [] ∨
      ∀ t ∈ (ctx.source.tokensIn node.span).head?, t.isSign "(" = false := by
    rcases hgrouped with ⟨pair, hpair⟩ | hplain
    · rw [Context.grouping_eq_ok hnode] at hpair
      exact .inl (hreturning.opening_ne_nil h hspan hreturn hfinalMem hstop (Except.ok.inj hpair))
    · exact .inr hplain
  obtain ⟨e, words, hp, hstart, hend, hleaves, henclosed⟩ :=
    hunblocked.exists_enclosed hreturning h hspan (by rw [hkind]; rfl) hreturn hfinalMem hstop
      hbalanced hopening
  refine ⟨blockNode.span, sign, e, words, Context.span_eq_ok hblock, hunblocked.before,
    hunblocked.isArrow, hp, hstart, hend, hleaves, henclosed, ?_⟩
  rintro front comma back rfl hcomma
  refine henclosed.count_lt ?_
  rintro rfl
  have hfirst := henclosed.first
  rw [List.nil_append, List.head?_cons] at hfirst
  rw [Option.some.inj hfirst] at hcomma
  exact absurd hcomma (by decide)

/-- A sequence without parentheses is returned in `()=>{return a,b}`. -/
def plainSequence : Context where
  tree := ⟨#[
    ⟨.program [1], .upTo 0 16, none⟩,
    ⟨.expressionStatement 2, .upTo 0 16, some 0⟩,
    ⟨.arrow [] 3 false false, .upTo 0 16, some 1⟩,
    ⟨.block [4], .upTo 4 16, some 2⟩,
    ⟨.returnStatement (some 5), .upTo 5 15, some 3⟩,
    ⟨.sequence [6, 7], .upTo 12 15, some 4⟩,
    ⟨.identifier "a", .upTo 12 13, some 5⟩,
    ⟨.identifier "b", .upTo 14 15, some 5⟩]⟩
  source := ⟨"()=>\x7breturn a,b\x7d", #[
    ⟨.punctuator, "(", .upTo 0 1⟩, ⟨.punctuator, ")", .upTo 1 2⟩, ⟨.punctuator, "=>", .upTo 2 4⟩,
    ⟨.punctuator, "\x7b", .upTo 4 5⟩, ⟨.word, "return", .upTo 5 11⟩, ⟨.word, "a", .upTo 12 13⟩,
    ⟨.punctuator, ",", .upTo 13 14⟩, ⟨.word, "b", .upTo 14 15⟩,
    ⟨.punctuator, "\x7d", .upTo 15 16⟩], #[]⟩

set_option maxRecDepth 20000 in
theorem wellFormed_plainSequence : plainSequence.WellFormed := by decide

set_option maxRecDepth 20000 in
theorem checkArrowBody_plainSequence : checkArrowBody plainSequence 2 =
    .ok (some ⟨3, .braces, .upTo 4 16, some (.single ⟨.upTo 4 16, " (a,b)"⟩)⟩) := by
  cbv

/-- The sequence is put in parentheses. -/
theorem checkArrowBody_encloses_plain : plainSequence.Shaped ∧ ∃ (e : Edit) (words : List Word),
    e.span = .upTo 4 16 ∧ e.text = " (a,b)" ∧ e.LeavesValue plainSequence.source words ∧
      Enclosed words := by
  have hshaped := wellFormed_plainSequence.shaped
  have htokens : plainSequence.tokensOf 5 = [⟨.word, "a", .upTo 12 13⟩,
      ⟨.punctuator, ",", .upTo 13 14⟩, ⟨.word, "b", .upTo 14 15⟩] := by decide +kernel
  have hbalanced : Balanced ((plainSequence.tokensOf 5).map Token.word) := by
    rw [htokens]
    exact ⟨0, rfl⟩
  have hfirst : ∀ first ∈ (plainSequence.tokensOf 5).head?, first.isSign "(" = false := by
    rw [htokens]
    decide
  obtain ⟨-, -, e, words, -, -, -, hp, -, -, hleaves, henclosed, -⟩ :=
    checkArrowBody_encloses_sequence hshaped rfl rfl rfl rfl checkArrowBody_plainSequence rfl
      hbalanced (.inr hfirst)
  obtain ⟨he, -⟩ : (⟨.upTo 4 16, " (a,b)"⟩ : Edit) = e ∧ _ := Patch.mk.inj hp
  subst he
  exact ⟨hshaped, _, words, rfl, rfl, hleaves, henclosed⟩

/-- The first operand of the sequence is in parentheses in `()=>{return(a),b}`. -/
def groupedOperand : Context where
  tree := ⟨#[
    ⟨.program [1], .upTo 0 17, none⟩,
    ⟨.expressionStatement 2, .upTo 0 17, some 0⟩,
    ⟨.arrow [] 3 false false, .upTo 0 17, some 1⟩,
    ⟨.block [4], .upTo 4 17, some 2⟩,
    ⟨.returnStatement (some 5), .upTo 5 16, some 3⟩,
    ⟨.sequence [6, 7], .upTo 11 16, some 4⟩,
    ⟨.identifier "a", .upTo 12 13, some 5⟩,
    ⟨.identifier "b", .upTo 15 16, some 5⟩]⟩
  source := ⟨"()=>\x7breturn(a),b\x7d", #[
    ⟨.punctuator, "(", .upTo 0 1⟩, ⟨.punctuator, ")", .upTo 1 2⟩, ⟨.punctuator, "=>", .upTo 2 4⟩,
    ⟨.punctuator, "\x7b", .upTo 4 5⟩, ⟨.word, "return", .upTo 5 11⟩,
    ⟨.punctuator, "(", .upTo 11 12⟩, ⟨.word, "a", .upTo 12 13⟩, ⟨.punctuator, ")", .upTo 13 14⟩,
    ⟨.punctuator, ",", .upTo 14 15⟩, ⟨.word, "b", .upTo 15 16⟩,
    ⟨.punctuator, "\x7d", .upTo 16 17⟩], #[]⟩

set_option maxRecDepth 20000 in
theorem wellFormed_groupedOperand : groupedOperand.WellFormed := by decide

set_option maxRecDepth 20000 in
theorem checkArrowBody_groupedOperand : checkArrowBody groupedOperand 2 =
    .ok (some ⟨3, .braces, .upTo 4 17, some (.single ⟨.upTo 4 17, " (a),b"⟩)⟩) := by
  cbv

/-- The edit leaves the lexemes of the sequence as they are. -/
theorem leavesValue_groupedOperand : (⟨.upTo 4 17, " (a),b"⟩ : Edit).LeavesValue
    groupedOperand.source
    [.opening, ⟨.word, "a"⟩, .closing, ⟨.punctuator, ","⟩, ⟨.word, "b"⟩] := by
  refine ⟨⟨⟨.punctuator, "\x7b", .upTo 4 5⟩, ⟨.word, "return", .upTo 5 11⟩,
    [⟨.punctuator, "(", .upTo 11 12⟩, ⟨.word, "a", .upTo 12 13⟩, ⟨.punctuator, ")", .upTo 13 14⟩,
      ⟨.punctuator, ",", .upTo 14 15⟩, ⟨.word, "b", .upTo 15 16⟩], [],
    ⟨.punctuator, "\x7d", .upTo 16 17⟩, by decide, by decide, .inl rfl, by decide, ?_,
    .inl rfl⟩, ?_⟩
  · rw [Source.lexemesIn, wellFormed_groupedOperand.source.lexemes_eq_tokens rfl]
    decide
  · have hspace : ∀ c ∈ [' '], groupedOperand.source.Gap c := fun c hc => .inl (by simpa using hc)
    have hall := (((((Laid.word "(").append (.word "a")).append (.word ")")).append
      (.word ",")).append (.word "b")).gap_append hspace
    simpa [Word.opening, Word.closing] using hall

/-- **The parentheses of the first operand are taken for those of the sequence.**  The comma ends up
outside of all parentheses, and the arrow function ends before it. -/
theorem checkArrowBody_splits_sequence : groupedOperand.WellFormed ∧
    ∃ (d : Detection) (e : Edit) (words : List Word),
      checkArrowBody groupedOperand 2 = .ok (some d) ∧ d.patch = some (.single e) ∧
      groupedOperand.kind 4 = .ok (.returnStatement (some 5)) ∧
      groupedOperand.kind 5 = .ok (.sequence [6, 7]) ∧
      (Patch.single e).apply groupedOperand.source.text = .ok "()=> (a),b" ∧
      e.LeavesValue groupedOperand.source words ∧ ¬ Enclosed words ∧
      ∃ front comma back, words = front ++ comma :: back ∧ comma.text = "," ∧
        (steps front).count .U = (steps front).count .D := by
  refine ⟨wellFormed_groupedOperand, _, _, _, checkArrowBody_groupedOperand, rfl, rfl, rfl,
    by decide +kernel, leavesValue_groupedOperand, fun henclosed => ?_,
    [.opening, ⟨.word, "a"⟩, .closing], ⟨.punctuator, ","⟩, [⟨.word, "b"⟩], rfl, rfl, by decide⟩
  exact absurd henclosed.last (by decide)

end Pare
