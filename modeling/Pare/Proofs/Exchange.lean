import Mathlib.Data.List.Basic
import Pare.Proofs.Brackets
import Pare.Proofs.Endings
import Pare.Proofs.Reports
import Pare.Proofs.ReturnedSequence

/-!
**Reports as exchanges of brackets.**

Every patch takes a pair of brackets away, or puts another pair in its place, and changes a few
words beside it: a keyword, a semicolon, a key.  This module says so of all reports at once, in
terms of what becomes of each lexeme, and follows a place among the lexemes through the change.  If
there are brackets around the place before, there are brackets around it afterwards, unless the pair
that goes is the only one.

Main definitions:

* `Pare.Exchange` — a pair of brackets that becomes other words, with some words beside it;
* `Pare.Exchange.Suits` — an exchange among the lexemes of a text whose brackets match;
* `Pare.Exchange.Bares` — a place with no brackets around it but the pair that goes;
* `Pare.Exchanges` — what a report does to the lexemes.

Main results:

* `Pare.Exchange.Suits.keepsPairs` — an exchange tears no pair apart;
* `Pare.Exchange.Suits.inBrackets_iff` — **a place in brackets stays so unless it is bared**;
* `Pare.Rule.run_atPart` — the reports of the rule that have a patch are at parts;
* `Pare.Respelled.exists_leaves` — **the words that a report promises, as an exchange**.
-/

set_option relaxedAutoImplicit false
set_option autoImplicit false

namespace Pare

variable {ctx : Context}

/-! ### Exchanges -/

/-- A list without repetitions is split at a member in one way only. -/
theorem append_cons_inj_of_nodup {α : Type} {a : α} {xs ys vs ws : List α}
    (h : (xs ++ a :: ys).Nodup) (heq : xs ++ a :: ys = vs ++ a :: ws) : xs = vs ∧ ys = ws := by
  obtain ⟨-, hys, hxs⟩ := List.nodup_append.1 h
  have hbefore : a ∉ xs := fun hmem => hxs a hmem a (List.mem_cons_self ..) rfl
  have hafter : a ∉ ys := (List.nodup_cons.1 hys).1
  obtain ⟨hfront, -, hback⟩ := (List.append_cons_inj_of_notMem hbefore hafter).1 heq
  exact ⟨hfront, hback⟩

/-- What is done to lexemes where a pair of brackets becomes other words, if any, and so do some
lexemes that are no brackets. -/
structure Exchange where
  /-- The opening bracket. -/
  left : Token
  /-- The closing bracket. -/
  right : Token
  /-- What the opening bracket becomes. -/
  opening : List Word
  /-- What the closing bracket becomes. -/
  closing : List Word
  /-- What other lexemes become. -/
  others : List (Token × List Word)

namespace Exchange

/-- What a lexeme becomes; most stay as they are. -/
def becomes (x : Exchange) (t : Token) : List Word :=
  if t = x.left then x.opening
  else if t = x.right then x.closing
  else (x.others.lookup t).getD [t.word]

theorem mem_of_lookup {entries : List (Token × List Word)} {t : Token} {ws : List Word}
    (h : entries.lookup t = some ws) : (t, ws) ∈ entries := by
  obtain ⟨before, after, rfl, -⟩ := List.lookup_eq_some_iff.1 h
  simp

/-- No brackets take the place of the pair, and between the lexemes in front and behind is a place
with no other pair around it. -/
def Bares (x : Exchange) (front back : List Token) : Prop :=
  Matched x.opening ∧ Matched x.closing ∧ ∃ outer before after more,
    front = outer ++ x.left :: before ∧ back = after ++ x.right :: more ∧
    Matched (outer.map Token.word) ∧ Matched (before.map Token.word) ∧
    Matched (after.map Token.word) ∧ Matched (more.map Token.word)

/-- An exchange among some lexemes: the pair is one of them, and is replaced by a pair or by words
that match; what else is replaced is no bracket, and is replaced by words that match. -/
structure Suits (x : Exchange) (all : List Token) : Prop where
  nodup : all.Nodup
  split : ∃ front inner back, all = front ++ x.left :: inner ++ x.right :: back ∧
    Matched (inner.map Token.word)
  pair : x.left.word.closer? = some x.right.word
  plain : ∀ entry ∈ x.others, entry.1.word.IsPlain ∧ Matched entry.2
  new : (Matched x.opening ∧ Matched x.closing) ∨
    ∃ o c, x.opening = [o] ∧ x.closing = [c] ∧ o.closer? = some c

namespace Suits

variable {x : Exchange} {all outer front back more : List Token} {t o c : Token}

/-- A bracket that is not one of the pair stays. -/
theorem becomes_of_ne (hx : x.Suits all) (ht : ¬ t.word.IsPlain) (hleft : t ≠ x.left)
    (hright : t ≠ x.right) : x.becomes t = [t.word] := by
  rw [becomes, if_neg hleft, if_neg hright]
  cases hlookup : x.others.lookup t with
  | none => rfl
  | some ws => exact absurd (hx.plain _ (mem_of_lookup hlookup)).1 ht

/-- What is no bracket is not one of the pair. -/
theorem becomes_of_isPlain (hx : x.Suits all) (ht : t.word.IsPlain) :
    x.becomes t = (x.others.lookup t).getD [t.word] := by
  have hleft : t ≠ x.left := by
    rintro rfl
    exact nomatch ht.1.symm.trans hx.pair
  have hright : t ≠ x.right := by
    rintro rfl
    exact ht.2 (Word.isCloser_of_closer? hx.pair)
  rw [becomes, if_neg hleft, if_neg hright]

/-- An opening bracket is not the closing one of the pair. -/
theorem ne_right (hx : x.Suits all) (hpair : o.word.closer? = some c.word) : o ≠ x.right := by
  rintro rfl
  rw [(Word.isCloser_of_closer? hx.pair).closer?] at hpair
  cases hpair

/-- A closing bracket is not the opening one of the pair. -/
theorem ne_left (hx : x.Suits all) (hpair : o.word.closer? = some c.word) : c ≠ x.left := by
  rintro rfl
  have hpair' := hx.pair
  rw [(Word.isCloser_of_closer? hpair).closer?] at hpair'
  cases hpair'

/-- What the opening bracket of the pair is paired with is the closing bracket of the pair. -/
theorem eq_right (hx : x.Suits all) {inner : List Token}
    (hall : all = outer ++ x.left :: inner ++ c :: more)
    (hpair : x.left.word.closer? = some c.word) (hinner : Matched (inner.map Token.word)) :
    c = x.right := by
  obtain ⟨front, inner', back, hall', hinner'⟩ := hx.split
  have hsplit : front ++ x.left :: (inner' ++ x.right :: back) =
      outer ++ x.left :: (inner ++ c :: more) := by
    simpa [hall'] using hall
  have hnodup : (front ++ x.left :: (inner' ++ x.right :: back)).Nodup := by
    simpa [hall'] using hx.nodup
  obtain ⟨-, hrest⟩ := append_cons_inj_of_nodup hnodup hsplit
  have hwords := congrArg (List.map Token.word) hrest
  simp only [List.map_append, List.map_cons] at hwords
  have hsame := hinner'.eq_of_append_closer hinner (Word.isCloser_of_closer? hx.pair)
    (Word.isCloser_of_closer? hpair) hwords
  have hlength : inner'.length = inner.length := by
    simpa using congrArg List.length hsame
  exact (List.cons.inj (List.append_inj hrest hlength).2).1.symm

/-- What the closing bracket of the pair is paired with is the opening bracket of the pair. -/
theorem eq_left (hx : x.Suits all) {inner : List Token}
    (hall : all = outer ++ o :: inner ++ x.right :: more)
    (hpair : o.word.closer? = some x.right.word) (hinner : Matched (inner.map Token.word)) :
    o = x.left := by
  obtain ⟨front, inner', back, hall', hinner'⟩ := hx.split
  have hsplit : (front ++ x.left :: inner') ++ x.right :: back =
      (outer ++ o :: inner) ++ x.right :: more := hall'.symm.trans hall
  have hnodup : ((front ++ x.left :: inner') ++ x.right :: back).Nodup := hall' ▸ hx.nodup
  obtain ⟨hrest, -⟩ := append_cons_inj_of_nodup hnodup hsplit
  have hwords := congrArg (List.map Token.word) hrest
  simp only [List.map_append, List.map_cons] at hwords
  have hsame := hinner'.eq_of_append_opener hinner hx.pair hpair hwords
  have hlength : inner'.length = inner.length := by
    simpa using congrArg List.length hsame
  exact (List.cons.inj (List.append_inj' hrest (by simp [hlength])).2).1.symm

/-- **An exchange tears no pair apart.** -/
theorem keepsPairs (hx : x.Suits all) : KeepsPairs all x.becomes where
  plain := by
    intro t _ ht
    rw [hx.becomes_of_isPlain ht]
    cases hlookup : x.others.lookup t with
    | none => exact Matched.plain ht
    | some ws => exact (hx.plain _ (mem_of_lookup hlookup)).2
  pair := by
    intro outer inner more o c hall hpair hinner
    have hopen : ¬ o.word.IsPlain := fun hplain => nomatch hplain.1.symm.trans hpair
    have hclose : ¬ c.word.IsPlain := fun hplain => hplain.2 (Word.isCloser_of_closer? hpair)
    by_cases hleft : o = x.left
    · subst hleft
      obtain rfl := hx.eq_right hall hpair hinner
      have hne : x.right ≠ x.left := hx.ne_left hpair
      simp only [becomes, if_neg hne, if_true]
      exact hx.new
    · have hright : c ≠ x.right := by
        rintro rfl
        exact hleft (hx.eq_left hall hpair hinner)
      exact .inr ⟨o.word, c.word, hx.becomes_of_ne hopen hleft (hx.ne_right hpair),
        hx.becomes_of_ne hclose (hx.ne_left hpair) hright, hpair⟩

/-- A pair that is not the one that goes is still around what it was around. -/
theorem inBrackets_of_ne (hx : x.Suits all) {start left right rest : List Token}
    (hall : all = outer ++ (start ++ o :: left) ++ t :: (right ++ c :: rest) ++ more)
    (ht : t.word.IsPlain) (hpair : o.word.closer? = some c.word)
    (hinner : Matched ((left ++ right).map Token.word)) (hne : o ≠ x.left) :
    InBrackets ((start ++ o :: left).flatMap x.becomes)
      ((right ++ c :: rest).flatMap x.becomes) := by
  obtain ⟨hgone, -⟩ | hin := hx.keepsPairs.inBrackets_or hall ht hpair hinner
  · have hopen : ¬ o.word.IsPlain := fun hplain => nomatch hplain.1.symm.trans hpair
    rw [hx.becomes_of_ne hopen hne (hx.ne_right hpair), Matched,
      pending_cons_of_closer? hpair] at hgone
    cases hgone
  · exact hin

/-- A place between the brackets that go stays in brackets if there are others inside them. -/
theorem inBrackets_of_inside (hx : x.Suits all) {before after : List Token}
    (hall : all = outer ++ (front ++ x.left :: before) ++ t :: (after ++ x.right :: back) ++ more)
    (ht : t.word.IsPlain)
    (hin : InBrackets (before.map Token.word) (after.map Token.word)) :
    InBrackets ((front ++ x.left :: before).flatMap x.becomes)
      ((after ++ x.right :: back).flatMap x.becomes) := by
  obtain ⟨start, o, inner, inner', c, rest, rfl, rfl, hpair, hinner⟩ := hin.exists_tokens
  have hsplit : all = outer ++ front ++ [x.left] ++ (start ++ o :: inner) ++
      t :: (inner' ++ c :: rest) ++ (x.right :: back ++ more) := by
    simp [hall]
  have hne : o ≠ x.left := by
    rintro rfl
    have hnodup := hx.nodup
    simp [hall, List.nodup_append] at hnodup
  have hinside := (hx.inBrackets_of_ne hsplit ht hpair hinner hne).surround
    ((front ++ [x.left]).flatMap x.becomes) ((x.right :: back).flatMap x.becomes)
  simpa using hinside

/-- A place between the brackets that go stays in brackets if there are others outside them. -/
theorem inBrackets_of_outside (hx : x.Suits all) {before after : List Token}
    (hall : all = outer ++ (front ++ x.left :: before) ++ t :: (after ++ x.right :: back) ++ more)
    (ht : t.word.IsPlain) (hinner : Matched ((before ++ after).map Token.word))
    (hin : InBrackets (front.map Token.word) (back.map Token.word)) :
    InBrackets ((front ++ x.left :: before).flatMap x.becomes)
      ((after ++ x.right :: back).flatMap x.becomes) := by
  obtain ⟨start, o, lead, tail, c, rest, rfl, rfl, hpair, hbetween⟩ := hin.exists_tokens
  have hsplit : all = outer ++ (start ++ o :: (lead ++ x.left :: before)) ++
      t :: ((after ++ x.right :: tail) ++ c :: rest) ++ more := by
    simp [hall]
  have hne : o ≠ x.left := by
    rintro rfl
    have hnodup := hx.nodup
    simp [hall, List.nodup_append] at hnodup
  have hwhole :
      Matched ((lead ++ x.left :: before ++ (after ++ x.right :: tail)).map Token.word) := by
    have hremove : Matched (lead.map Token.word ++
        (x.left.word :: (before ++ after).map Token.word ++ [x.right.word]) ++
        tail.map Token.word) := by
      rw [matched_remove (Matched.pair hx.pair hinner), ← List.map_append]
      exact hbetween
    simpa using hremove
  simpa using hx.inBrackets_of_ne hsplit ht hpair hwhole hne

/-- **A place in brackets stays so unless it is bared.** -/
theorem inBrackets_iff (hx : x.Suits all) (hall : all = outer ++ (front ++ t :: back) ++ more)
    (hmatched : Matched ((front ++ t :: back).map Token.word)) (ht : t.word.IsPlain)
    (hin : InBrackets (front.map Token.word) (back.map Token.word)) :
    InBrackets (front.flatMap x.becomes) (back.flatMap x.becomes) ↔ ¬ x.Bares front back := by
  have hkeeps := hx.keepsPairs
  constructor
  · -- without the pair the words in front match by themselves
    rintro hstays ⟨hopening, -, start, before, after, rest, rfl, rfl, hstart, hbefore, -, -⟩
    have hfirst : all = outer ++ start ++
        (x.left :: before ++ t :: (after ++ x.right :: rest) ++ more) := by simp [hall]
    have hsecond : all = outer ++ start ++ [x.left] ++ before ++
        (t :: (after ++ x.right :: rest) ++ more) := by simp [hall]
    have hboth := (hkeeps.matched_flatMap hfirst hstart).append
      (hopening.append (hkeeps.matched_flatMap hsecond hbefore))
    refine Matched.not_inBrackets ?_ hstays
    simpa [becomes] using hboth
  · intro hbare
    obtain ⟨start, o, before, after, c, rest, rfl, rfl, hpair, hinner⟩ := hin.exists_tokens
    have hall' : all = outer ++ (start ++ o :: before) ++ t :: (after ++ c :: rest) ++ more := by
      simp [hall]
    by_cases hleft : o = x.left
    · subst hleft
      have hsplit : all =
          outer ++ start ++ x.left :: (before ++ t :: after) ++ c :: (rest ++ more) := by
        simp [hall]
      have hinner' : Matched ((before ++ t :: after).map Token.word) := by
        rw [List.map_append, List.map_cons, matched_append_cons ht, ← List.map_append]
        exact hinner
      obtain rfl := hx.eq_right hsplit hpair hinner'
      obtain ⟨hopening, hclosing⟩ | hstays := hkeeps.inBrackets_or hall' ht hpair hinner
      · rw [becomes, if_pos rfl] at hopening
        rw [becomes, if_neg (hx.ne_left hpair), if_pos rfl] at hclosing
        -- another pair is inside the one that goes, or outside it, or there is none
        have houter : Matched (start.map Token.word ++ rest.map Token.word) := by
          rw [← matched_remove (Matched.pair hpair hinner')]
          simpa using hmatched
        rw [List.map_append] at hinner
        obtain ⟨hbefore, hafter⟩ | hinside := hinner.inBrackets_or
        · obtain ⟨hstart, hrest⟩ | houtside := houter.inBrackets_or
          · exact absurd ⟨hopening, hclosing, start, before, after, rest, rfl, rfl, hstart, hbefore,
              hafter, hrest⟩ hbare
          · exact hx.inBrackets_of_outside hall' ht (by rwa [List.map_append]) houtside
        · exact hx.inBrackets_of_inside hall' ht hinside
      · exact hstays
    · exact hx.inBrackets_of_ne hall' ht hpair hinner hleft

end Suits

end Exchange

/-! ### Reports as exchanges -/

/-- What a report does to the lexemes. -/
inductive Exchanges (ctx : Context) (d : Detection) : Exchange → Prop
  /-- The parentheses directly around the node go. -/
  | parens {left right : Token} (hissue : d.issue = .parens)
      (hgrouping : ctx.grouping d.node = .ok (some (left, right))) :
      Exchanges ctx d ⟨left, right, [], [], []⟩
  /-- The braces of a branch or body go. -/
  | braces {left right : Token} (hissue : d.issue = .braces) (hcontrolled : ctx.IsControlled d.node)
      (hfirst : ctx.firstToken d.node = .ok (some left))
      (hlast : ctx.lastToken d.node = .ok (some right)) : Exchanges ctx d ⟨left, right, [], [], []⟩
  /-- The braces of an arrow function go with the keyword and the semicolon between them, or become
  parentheses where the value needs them. -/
  | body {arrow stmt argument : NodeId} {params : List NodeId} {isAsync : Bool}
      {kind : Kind NodeId} {left keyword first last right : Token} {tail : List Token}
      (hissue : d.issue = .braces)
      (harrow : ctx.kind arrow = .ok (.arrow params d.node false isAsync))
      (hblock : ctx.kind d.node = .ok (.block [stmt]))
      (hstmt : ctx.kind stmt = .ok (.returnStatement (some argument)))
      (hkind : ctx.kind argument = .ok kind)
      (hfirst : ctx.firstToken d.node = .ok (some left)) (hkeyword : keyword.isWord "return" = true)
      (hlast : ctx.lastToken stmt = .ok (some last))
      (htail : tail = if last.isSign ";" then [last] else [])
      (hclose : ctx.lastToken d.node = .ok (some right)) :
      Exchanges ctx d ⟨left, right, if needsParens kind first then [.opening] else [],
        if needsParens kind first then [.closing] else [], (keyword :: tail).map fun t => (t, [])⟩
  /-- The brackets around a constant key go, with a dot and the name for the key. -/
  | brackets {name : String} {left key right : Token} (hissue : d.issue = .brackets)
      (hkind : ctx.kind d.node = .ok (.literal (.string (some name))))
      (hspan : ctx.span d.node = .ok key.span) (hleft : left.isSign "[" = true)
      (hright : right.isSign "]" = true) :
      Exchanges ctx d ⟨left, right, [⟨.punctuator, "."⟩], [], [(key, [⟨.word, name⟩])]⟩

/-- A report on parentheses drops the pair around its node. -/
theorem Exchanges.eq_of_parens {d : Detection} {x : Exchange} (hx : Exchanges ctx d x)
    (hissue : d.issue = .parens) {left right : Token}
    (hgrouping : ctx.grouping d.node = .ok (some (left, right))) :
    x = ⟨left, right, [], [], []⟩ := by
  cases hx with
  | parens _ hgrouping' =>
      obtain ⟨rfl, rfl⟩ := Prod.mk.inj
        (Option.some.inj (Except.ok.inj (hgrouping'.symm.trans hgrouping)))
      rfl
  | braces hbraces => simp [hissue] at hbraces
  | body hbraces => simp [hissue] at hbraces
  | brackets hbrackets => simp [hissue] at hbrackets

/-- What is known of the node of a report: it is not the program, and if its braces go, it is a
block of one statement. -/
structure Detection.AtPart (ctx : Context) (d : Detection) : Prop where
  ne_root : d.issue ≠ .brackets → d.node ≠ Tree.root
  block : d.issue = .braces → ∃ stmt, ctx.kind d.node = .ok (.block [stmt])

/-- A report on an arrow function names its body, which is a block of one statement. -/
theorem checkArrowBody_node {arrow : NodeId} {node : Node} {d : Detection}
    (hnode : ctx.tree.nodes[arrow]? = some node)
    (hcheck : checkArrowBody ctx arrow = .ok (some d)) :
    d.node ∈ node.kind.children ∧ ∃ stmt, ctx.kind d.node = .ok (.block [stmt]) := by
  obtain ⟨-, params, isAsync, stmt, -, harrow, hbody, -⟩ := checkArrowBody_found hcheck
  have hkind := Except.ok.inj ((Context.kind_eq_ok hnode).symm.trans harrow)
  exact ⟨by simp [hkind, Kind.children], stmt, hbody⟩

/-- The reports of every detector that have a patch are at parts. -/
theorem Detector.check_atPart (h : ctx.WellFormed) (detector : Detector) {id : NodeId} {node : Node}
    (hnode : ctx.tree.nodes[id]? = some node) :
    Succeeds (detector.check ctx id) fun found => ∀ d ∈ found, ∀ p, d.patch = some p →
      d.AtPart ctx := by
  have hpart : ∀ {part : NodeId}, part ∈ node.kind.children → part ≠ Tree.root := by
    intro part hpart
    obtain ⟨-, -, hroot⟩ := h.shaped.exists_part hnode hpart
    exact hroot
  cases detector with
  | indexing =>
      have hyields : Yields (checkIndexing ctx id) fun d => ∀ p, d.patch = some p →
          d.AtPart ctx := by
        refine (checkIndexing_dots h.shaped hnode).imp fun r hr d hd p _ => ?_
        obtain ⟨hissue, -⟩ := hr d hd
        exact ⟨fun hne => absurd hissue hne, fun hbraces => by simp [hissue] at hbraces⟩
      exact hyields.succeeds_toList
  | grouping =>
      rw [check, Context.kind_eq_ok hnode, ok_bind]
      refine succeeds_mapM_filterMap fun place hplace => ?_
      have hroot := hpart (mem_children_of_mem_groupingPlaces hplace)
      obtain ⟨part, hpart, -⟩ :=
        h.shaped.exists_part hnode (mem_children_of_mem_groupingPlaces hplace)
      refine (checkGrouping_repairs h.shaped hpart hroot).of_eq_some fun d hcheck p _ => ?_
      obtain ⟨rfl, hissue, -⟩ := checkGrouping_found hcheck
      exact ⟨fun _ => hroot, fun hbraces => by simp [hissue] at hbraces⟩
  | braces =>
      rw [check, Context.kind_eq_ok hnode, ok_bind]
      refine succeeds_mapM_filterMap fun block hblock => ?_
      have hroot := hpart (mem_children_of_mem_controlledBlocks hblock)
      refine (checkBlock_repairs h.shaped hnode hblock).of_eq_some fun d hcheck p _ => ?_
      obtain ⟨rfl, -, stmt, hkind, -⟩ := checkBlock_found hcheck
      exact ⟨fun _ => hroot, fun _ => ⟨stmt, hkind⟩⟩
  | arrowBody =>
      refine ((checkArrowBody_repairs h.shaped hnode).of_eq_some
        fun d hcheck p _ => ?_).succeeds_toList
      obtain ⟨hchild, hkind⟩ := checkArrowBody_node hnode hcheck
      exact ⟨fun _ => hpart hchild, fun _ => hkind⟩

/-- The reports of the rule that have a patch are at parts. -/
theorem Rule.run_atPart (h : ctx.WellFormed) (rule : Rule) :
    Succeeds (rule.run ctx) fun found => ∀ d ∈ found, ∀ p, d.patch = some p → d.AtPart ctx :=
  Rule.run_of_check h.shaped (fun detector _ _ hnode => detector.check_atPart h hnode) rule

/-- What lies between two lexemes. -/
theorem Source.WellFormed.eq_lexemesIn {s : Source} (h : s.WellFormed) {left right : Token}
    {front inner back : List Token}
    (hall : s.lexemes = front ++ left :: inner ++ right :: back) :
    inner = s.lexemesIn left.span.stop right.span.start := by
  have hleft : left ∈ s.lexemes := by simp [hall]
  have hright : right ∈ s.lexemes := by simp [hall]
  have horder := h.lexemes_inOrder
  have hnodup := horder.nodup
  have hapart : left.span.stop ≤ right.span.start := by
    have hpair := horder.apart
    rw [hall, List.pairwise_append] at hpair
    exact hpair.2.2 left (by simp) right (by simp)
  have hwhole := h.lexemesIn_whole
  rw [h.lexemesIn_split hleft (Nat.zero_le _) (h.joint_stop hleft).boundary.le_byteSize,
    h.lexemesIn_split hright hapart (h.joint_stop hright).boundary.le_byteSize] at hwhole
  rw [hall, List.append_assoc, List.cons_append] at hnodup hwhole
  obtain ⟨-, hrest⟩ := append_cons_inj_of_nodup hnodup hwhole.symm
  have hnodup' := (List.nodup_cons.1 (List.nodup_append.1 hnodup).2.1).2
  exact (append_cons_inj_of_nodup hnodup' hrest).1

/-- The lexemes of a span, with those in front and behind. -/
theorem Source.WellFormed.exists_append_lexemesIn {s : Source} (h : s.WellFormed) {a b : Nat}
    (ha : s.Joint a) (hb : s.Joint b) (hab : a ≤ b) :
    ∃ outer more, s.lexemes = outer ++ s.lexemesIn a b ++ more := by
  refine ⟨s.lexemesIn 0 a, s.lexemesIn b (Text.byteSize s.text.toList), ?_⟩
  rw [← h.lexemesIn_append ha (Nat.zero_le _) hab,
    ← h.lexemesIn_append hb (Nat.zero_le _) hb.boundary.le_byteSize, h.lexemesIn_whole]

namespace Exchange

variable {x : Exchange} {ts : List Token}

theorem becomes_left (x : Exchange) : x.becomes x.left = x.opening := if_pos rfl

/-- Lexemes that nothing is done to stay. -/
theorem flatMap_becomes (h : ∀ t ∈ ts, t ≠ x.left ∧ t ≠ x.right ∧ x.others.lookup t = none) :
    ts.flatMap x.becomes = ts.map Token.word := by
  induction ts with
  | nil => rfl
  | cons t ts ih =>
      obtain ⟨hleft, hright, hlookup⟩ := h t (List.mem_cons_self ..)
      rw [List.flatMap_cons, ih fun u hu => h u (List.mem_cons_of_mem t hu), becomes, if_neg hleft,
        if_neg hright, hlookup]
      rfl

/-- Where everything else that changes lies between the brackets of the pair, the rest stays. -/
theorem Suits.flatMap_eq {all front inner back : List Token} (hx : x.Suits all)
    (hall : all = front ++ x.left :: inner ++ x.right :: back)
    (hothers : ∀ entry ∈ x.others, entry.1 ∈ inner) :
    all.flatMap x.becomes = front.map Token.word ++ x.opening ++ inner.flatMap x.becomes ++
      x.closing ++ back.map Token.word := by
  have hnodup := hx.nodup
  rw [hall] at hnodup
  have hne : x.right ≠ x.left := hx.ne_left hx.pair
  have hnone : ∀ t, t ∉ inner → x.others.lookup t = none := by
    intro t ht
    cases hlookup : x.others.lookup t with
    | none => rfl
    | some ws => exact absurd (hothers _ (mem_of_lookup hlookup)) ht
  have hfront : front.flatMap x.becomes = front.map Token.word := by
    refine flatMap_becomes fun t ht => ⟨?_, ?_, hnone t ?_⟩
    all_goals grind
  have hback : back.flatMap x.becomes = back.map Token.word := by
    refine flatMap_becomes fun t ht => ⟨?_, ?_, hnone t ?_⟩
    all_goals grind
  have hright : x.becomes x.right = x.closing := by
    rw [becomes, if_neg hne, if_pos rfl]
  rw [hall]
  simp only [List.flatMap_append, List.flatMap_cons, becomes_left, hright, hfront, hback,
    List.append_assoc]

/-- Lexemes that are listed to go do so, and others stay. -/
theorem getD_lookup_gone (t : Token) :
    ((ts.map fun u => (u, ([] : List Word))).lookup t).getD [t.word] =
      if t ∈ ts then [] else [t.word] := by
  induction ts with
  | nil => rfl
  | cons u ts ih =>
      by_cases heq : t = u
      · subst heq
        simp
      · have hbeq : (t == u) = false := by simpa using heq
        simp [List.lookup_cons, hbeq, ih, heq]

/-- Where some lexemes between the brackets go, in front and behind, those in the middle stay. -/
theorem Suits.flatMap_gone {all front back mid tail : List Token} {keyword : Token}
    (hx : x.Suits all) (hothers : x.others = (keyword :: tail).map fun t => (t, []))
    (hall : all = front ++ x.left :: (keyword :: mid ++ tail) ++ x.right :: back) :
    (keyword :: mid ++ tail).flatMap x.becomes = mid.map Token.word := by
  have hnodup := hx.nodup
  rw [hall] at hnodup
  have hgone : ∀ t ∈ keyword :: tail, x.becomes t = [] := by
    intro t ht
    have hleft : t ≠ x.left := by grind
    have hright : t ≠ x.right := by grind
    rw [becomes, if_neg hleft, if_neg hright, hothers, getD_lookup_gone, if_pos ht]
  have hmid : mid.flatMap x.becomes = mid.map Token.word := by
    refine flatMap_becomes fun t ht => ⟨?_, ?_, ?_⟩
    · grind
    · grind
    · rw [hothers, List.lookup_eq_none_iff]
      grind
  have htail : tail.flatMap x.becomes = [] :=
    List.flatMap_eq_nil_iff.2 fun t ht => hgone t (List.mem_cons_of_mem keyword ht)
  rw [List.cons_append, List.flatMap_cons, List.flatMap_append, hmid, htail,
    hgone keyword (List.mem_cons_self ..), List.nil_append, List.append_nil]

/-- An exchange that only drops a pair. -/
theorem suits_drop {s : Source} (h : s.WellFormed) {left right : Token}
    {front inner back : List Token} (hall : s.lexemes = front ++ left :: inner ++ right :: back)
    (hpair : left.word.closer? = some right.word) (hinner : Matched (inner.map Token.word)) :
    Suits ⟨left, right, [], [], []⟩ s.lexemes where
  nodup := h.lexemes_inOrder.nodup
  split := ⟨front, inner, back, hall, hinner⟩
  pair := hpair
  plain := by simp
  new := .inl ⟨Matched.nil, Matched.nil⟩

/-- Where a pair is dropped, all other lexemes are left. -/
theorem flatMap_drop {s : Source} {left right : Token} {front inner back : List Token}
    (hx : Suits ⟨left, right, [], [], []⟩ s.lexemes)
    (hall : s.lexemes = front ++ left :: inner ++ right :: back) :
    (s.lexemes.flatMap (becomes ⟨left, right, [], [], []⟩)).map Word.text =
      (front ++ inner ++ back).map Token.value := by
  have hnodup := hx.nodup
  rw [hall] at hnodup
  have hinside : inner.flatMap (becomes ⟨left, right, [], [], []⟩) = inner.map Token.word := by
    refine flatMap_becomes fun t ht => ⟨?_, ?_, rfl⟩
    all_goals grind
  rw [hx.flatMap_eq hall (by simp), hinside]
  simp only [List.append_nil, List.map_append, map_text_word]

end Exchange

theorem Token.closer?_of_isSign {left right : Token} {text other : String}
    (hleft : left.isSign text = true) (hright : right.isSign other = true)
    (h : Word.closer? ⟨.punctuator, text⟩ = some ⟨.punctuator, other⟩) :
    left.word.closer? = some right.word := by
  rw [word_of_isSign hleft, word_of_isSign hright, h]

theorem Token.isPlain_of_isWord {t : Token} {text : String} (h : t.isWord text = true) :
    t.word.IsPlain := by
  refine Word.isPlain_of_kind fun hkind => ?_
  have hsign : t.kind = .punctuator := hkind
  simp [isWord, hsign] at h

/-- What takes the place of braces that become parentheses where they are needed. -/
theorem matched_or_closer? (wrap : Bool) :
    (Matched (if wrap then [Word.opening] else []) ∧
        Matched (if wrap then [Word.closing] else [])) ∨
      ∃ o c, (if wrap then [Word.opening] else []) = [o] ∧
        (if wrap then [Word.closing] else []) = [c] ∧ o.closer? = some c := by
  cases wrap with
  | true => exact .inr ⟨.opening, .closing, if_pos rfl, if_pos rfl, by decide +kernel⟩
  | false => exact .inl ⟨Matched.nil, Matched.nil⟩

/-- A string token is no bracket. -/
theorem Word.isPlain_of_quoted {w : Word} {quote : Char} {name : List Char}
    (hquote : quote = '"' ∨ quote = '\'') (h : w.text.toList = quote :: name) : w.IsPlain := by
  have hsigns : ∀ text ∈ ["(", ")", "[", "]", "\x7b", "\x7d"],
      text.toList.head? ≠ some quote := by
    rcases hquote with rfl | rfl <;> decide +kernel
  have hne : w.text ∉ ["(", ")", "[", "]", "\x7b", "\x7d"] :=
    fun hmem => hsigns w.text hmem (by rw [h]; rfl)
  refine ⟨?_, ?_⟩
  · rcases hc : w.closer? with _ | c
    · rfl
    · obtain ⟨rfl, -⟩ | ⟨rfl, -⟩ | ⟨rfl, -⟩ := closer?_eq_some hc <;> simp at hne
  · rintro (rfl | rfl | rfl) <;> simp at hne

/-- The braces of a block of one statement, as its first and last token. -/
theorem Context.Shaped.braced_of_tokens (h : ctx.Shaped) {id stmt : NodeId} {left right : Token}
    (hkind : ctx.kind id = .ok (.block [stmt])) (hroot : id ≠ Tree.root)
    (hfirst : ctx.firstToken id = .ok (some left)) (hlast : ctx.lastToken id = .ok (some right)) :
    ∃ node, ctx.tree.nodes[id]? = some node ∧ ctx.Braced id stmt node.span left right := by
  obtain ⟨node, hnode, hblock⟩ := Context.exists_node hkind
  obtain ⟨left', right', hbraced⟩ := h.exists_braces hnode hroot hblock
  rw [h.firstToken_eq_ok hnode, hbraced.head?] at hfirst
  rw [h.lastToken_eq_ok hnode, hbraced.getLast?] at hlast
  obtain rfl := Option.some.inj (Except.ok.inj hfirst)
  obtain rfl := Option.some.inj (Except.ok.inj hlast)
  exact ⟨node, hnode, hbraced⟩

/-- An exchange that a report makes, and that leaves some words and every `in`. -/
structure Exchange.Leaves (x : Exchange) (ctx : Context) (d : Detection) (words : List String) :
    Prop where
  made : Exchanges ctx d x
  suits : x.Suits ctx.source.lexemes
  keeps : ∀ entry ∈ x.others, entry.1.isWord "in" = false
  words : words = (ctx.source.lexemes.flatMap x.becomes).map Word.text

/-- The words that are left when the block of an arrow function becomes its value. -/
theorem exists_leaves_body (h : ctx.Shaped) (hbracketed : ctx.Bracketed) {d : Detection}
    (hroot : d.node ≠ Tree.root) {arrow stmt argument : NodeId} {params : List NodeId}
    {isAsync : Bool} {kind : Kind NodeId} {left keyword first last right : Token}
    {front value tail back : List Token} (hissue : d.issue = .braces)
    (harrow : ctx.kind arrow = .ok (.arrow params d.node false isAsync))
    (hblock : ctx.kind d.node = .ok (.block [stmt]))
    (hstmt : ctx.kind stmt = .ok (.returnStatement (some argument)))
    (hkind : ctx.kind argument = .ok kind) (hfirst : ctx.firstToken d.node = .ok (some left))
    (hkeyword : keyword.isWord "return" = true) (hlast : ctx.lastToken stmt = .ok (some last))
    (htail : tail = if last.isSign ";" then [last] else [])
    (hclose : ctx.lastToken d.node = .ok (some right))
    (hall : ctx.source.lexemes =
      front ++ left :: (keyword :: (first :: value) ++ tail) ++ right :: back) :
    ∃ x : Exchange, x.Leaves ctx d (front.map Token.value ++
      (if needsParens kind first then "(" :: (first :: value).map Token.value ++ [")"]
        else (first :: value).map Token.value) ++ back.map Token.value) := by
  obtain ⟨node, hnode, hbraced⟩ := h.braced_of_tokens hblock hroot hfirst hclose
  have hinner := hbracketed.matched_braced h hnode hbraced
  rw [← h.source.eq_lexemesIn hall] at hinner
  have hsemicolon : ∀ t ∈ tail, t.isSign ";" = true := by
    rw [htail]
    split
    · simpa
    · simp
  have hpair := Token.closer?_of_isSign hbraced.opening hbraced.closing (by decide)
  have hgone : ∀ entry ∈ (keyword :: tail).map fun t => (t, ([] : List Word)),
      (entry.1 = keyword ∨ entry.1 ∈ tail) ∧ entry.2 = [] := by
    intro entry hentry
    obtain ⟨t, ht, rfl⟩ := List.mem_map.1 hentry
    exact ⟨List.mem_cons.1 ht, rfl⟩
  -- the keyword and the semicolon go, and neither is a bracket
  have hsuits : Exchange.Suits ⟨left, right, if needsParens kind first then [.opening] else [],
      if needsParens kind first then [.closing] else [],
      (keyword :: tail).map fun t => (t, [])⟩ ctx.source.lexemes := by
    refine ⟨h.source.lexemes_inOrder.nodup, ⟨front, _, back, hall, hinner⟩, hpair,
      fun entry hentry => ?_, matched_or_closer? _⟩
    obtain ⟨ht | ht, hnil⟩ := hgone entry hentry
    · rw [ht, hnil]
      exact ⟨Token.isPlain_of_isWord hkeyword, Matched.nil⟩
    · rw [hnil, Token.word_of_isSign (hsemicolon _ ht)]
      exact ⟨by decide, Matched.nil⟩
  refine ⟨_, .body hissue harrow hblock hstmt hkind hfirst hkeyword hlast htail hclose, hsuits,
    fun entry hentry => ?_, ?_⟩
  · obtain ⟨ht | ht, -⟩ := hgone entry hentry
    · rw [ht, Token.isWord, Token.value_of_isWord hkeyword]
      simp
    · exact Token.isWord_of_isSign (hsemicolon _ ht) "in"
  · have hnodup := hsuits.nodup
    rw [hall] at hnodup
    have hinside := hsuits.flatMap_gone rfl hall
    have hothers : ∀ entry ∈ (keyword :: tail).map fun t => (t, ([] : List Word)),
        entry.1 ∈ keyword :: (first :: value) ++ tail := by
      intro entry hentry
      obtain ⟨ht | ht, -⟩ := hgone entry hentry <;> simp [ht]
    rw [hsuits.flatMap_eq hall hothers, hinside]
    cases needsParens kind first with
    | true => simp [Word.opening, Word.closing, Function.comp_def, Token.word]
    | false => simp [Function.comp_def, Token.word]

/-- **The words that a report promises, as an exchange.** -/
theorem Respelled.exists_leaves (h : ctx.WellFormed) (hbracketed : ctx.Bracketed) {d : Detection}
    (hpart : d.AtPart ctx) {words : List String} (hwords : Respelled ctx d words) :
    ∃ x : Exchange, x.Leaves ctx d words := by
  cases hwords with
  | @parens left right front inner back hissue hgrouping hall =>
      obtain ⟨span, hspan, hgroup⟩ := bind_eq_ok.1 hgrouping
      obtain ⟨node, hnode, rfl⟩ := Context.exists_node_of_span hspan
      have hgroup := Except.ok.inj hgroup
      obtain ⟨-, -, hleft, hright⟩ := Context.groupingAt_eq_some hgroup
      have hroot := hpart.ne_root (by simp [hissue])
      have hinner := hbracketed.matched_grouped h.shaped hnode hroot hgroup
      rw [← h.source.eq_lexemesIn hall] at hinner
      have hsuits := Exchange.suits_drop h.source hall
        (Token.closer?_of_isSign hleft hright (by decide)) hinner
      exact ⟨_, .parens hissue hgrouping, hsuits, by simp, (Exchange.flatMap_drop hsuits hall).symm⟩
  | @braces left right front inner back hissue hcontrolled hfirst hleft hlast hright hall =>
      obtain ⟨stmt, hkind⟩ := hpart.block hissue
      have hroot := hpart.ne_root (by simp [hissue])
      obtain ⟨node, hnode, hbraced⟩ := h.shaped.braced_of_tokens hkind hroot hfirst hlast
      have hinner := hbracketed.matched_braced h.shaped hnode hbraced
      rw [← h.source.eq_lexemesIn hall] at hinner
      have hsuits := Exchange.suits_drop h.source hall
        (Token.closer?_of_isSign hleft hright (by decide)) hinner
      exact ⟨_, .braces hissue hcontrolled hfirst hlast, hsuits, by simp,
        (Exchange.flatMap_drop hsuits hall).symm⟩
  | @body arrow stmt argument params isAsync kind left keyword first last right front value tail
      back hissue harrow hblock hstmt hkind hfirst hleft hkeyword hlast htail hclose hright hall =>
      exact exists_leaves_body h.shaped hbracketed (hpart.ne_root (by simp [hissue])) hissue harrow
        hblock hstmt hkind hfirst hkeyword hlast htail hclose (by simpa using hall)
  | @brackets name left key right front back hissue hkind hspan hleft hright hall =>
      obtain ⟨node, hnode, hliteral⟩ := Context.exists_node hkind
      rw [Context.span_eq_ok hnode] at hspan
      have hspan := Except.ok.inj hspan
      obtain ⟨token, htoken, hplace, quote, hquote, hvalue⟩ :=
        h.quoted d.node node name hnode hliteral
      have hall' : ctx.source.lexemes = front ++ left :: [key] ++ right :: back := by
        simpa using hall
      have hkey : key ∈ ctx.source.lexemes := by simp [hall]
      -- the key is the string token
      obtain rfl : token = key := h.source.lexemes_inOrder.eq_of_span
        (Source.mem_lexemes_of_token htoken) hkey (hplace.trans hspan)
      have hplain : token.word.IsPlain := Word.isPlain_of_quoted hquote hvalue
      have hsuits : Exchange.Suits ⟨left, right, [⟨.punctuator, "."⟩], [],
          [(token, [⟨.word, name⟩])]⟩ ctx.source.lexemes := by
        have hname : Matched [⟨.word, name⟩] := Matched.plain (Word.isPlain_of_kind (by simp))
        have hdot : Matched [⟨.punctuator, "."⟩] := by decide
        exact ⟨h.source.lexemes_inOrder.nodup, ⟨front, _, back, hall', Matched.plain hplain⟩,
          Token.closer?_of_isSign hleft hright (by decide), by simpa using ⟨hplain, hname⟩,
          .inl ⟨hdot, Matched.nil⟩⟩
      refine ⟨_, .brackets hissue hkind (Context.span_eq_ok hnode ▸ hspan ▸ rfl) hleft hright,
        hsuits, ?_, ?_⟩
      · have hstart : token.value ≠ "in" := by
          intro hin
          rw [hin] at hvalue
          have hhead := congrArg List.head? hvalue
          revert hhead
          rcases hquote with rfl | rfl <;> simp
        simpa [Token.isWord] using fun _ => hstart
      · have hnodup := hsuits.nodup
        rw [hall'] at hnodup
        have hleftNe : token ≠ left := by grind
        have hrightNe : token ≠ right := by grind
        rw [hsuits.flatMap_eq hall' (by simp)]
        simp [Exchange.becomes, hleftNe, hrightNe, Function.comp_def, Token.word]

end Pare
