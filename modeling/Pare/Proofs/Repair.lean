import Pare.Rule.ArrowBody
import Pare.Rule.Braces
import Pare.Proofs.Planning
import Pare.Proofs.Rewording
import Pare.Proofs.WellFormed

/-!
**What a patch must do.**

Each detector offers patches of its own making, but all of them answer to one contract.  A patch
fits the text it was made for, takes away more than it brings in, leaves the lexemes that the report
promises, with nothing but blanks and old gaps between them, and lets no line comment swallow what
follows.  The modules on the single detectors show that they keep the contract; what fixing does to
a text follows from the contract alone.

Main definitions:

* `Pare.Edit.Respells` — an edit that replaces some lexemes by some words;
* `Pare.Context.IsControlled` — a node that is a branch or a body;
* `Pare.Context.TightBlock` — what stands inside the braces of a block neither starts nor ends with
  a blank;
* `Pare.Context.ClearBlock`, `Pare.Context.ClearValue` — no line comment stands where it could be
  lost, or the break after it;
* `Pare.Context.EndsInLineComment` — a line comment stands right before the closing brace;
* `Pare.Respelled` — the words that a report promises to leave;
* `Pare.Repairs`, `Pare.Detection.Sound` — the contract.

Main results:

* `Pare.Edit.Respells.single`, `Pare.Edit.Respells.pair` — the words of a text after one and after
  two edits;
* `Pare.Source.WellFormed.ink_lexemes_le` — a piece of text holds what its lexemes hold.
-/

set_option relaxedAutoImplicit false
set_option autoImplicit false

namespace Pare

open Text (ink)

/-! ### Edits as replacements of lexemes -/

/-- An edit that replaces the lexemes `old` by the words `new`. -/
structure Edit.Respells (s : Source) (e : Edit) (old : List Token) (new : List String) : Prop where
  start : s.Joint e.span.start
  stop : s.Joint e.span.stop
  old : s.lexemesIn e.span.start e.span.stop = old
  new : Laid s.Gap new e.text.toList

namespace Edit.Respells

variable {s : Source} {e f : Edit} {old old' : List Token} {new new' : List String}

theorem placed_single (h : e.Respells s old new) : Placed s.text.toList 0 [e] where
  boundary := by simpa using ⟨h.start.boundary, h.stop.boundary⟩
  after := fun _ _ => Nat.zero_le _
  apart := List.pairwise_singleton ..

theorem placed_pair (h : e.Respells s old new) (h' : f.Respells s old' new')
    (hle : e.span.stop ≤ f.span.start) : Placed s.text.toList 0 [e, f] where
  boundary := by simp [h.start.boundary, h.stop.boundary, h'.start.boundary, h'.stop.boundary]
  after := fun _ _ => Nat.zero_le _
  apart := by simpa using hle

/-- The words of a text after one edit. -/
theorem single (hs : s.WellFormed) (h : e.Respells s old new) :
    ∃ front back, s.lexemes = front ++ old ++ back ∧
      Laid s.Gap (front.map Token.value ++ new ++ back.map Token.value)
        (rewritten s.text.toList 0 [e] (Text.byteSize s.text.toList)) := by
  have hle := e.span.start_le_stop
  have hend := h.stop.boundary.le_byteSize
  refine ⟨s.lexemesIn 0 e.span.start, s.lexemesIn e.span.stop (Text.byteSize s.text.toList), ?_, ?_⟩
  · rw [← hs.lexemesIn_whole, hs.lexemesIn_append h.start (Nat.zero_le _) (by omega),
      hs.lexemesIn_append h.stop hle hend, h.old, List.append_assoc]
  · have hfront := hs.laid_slice (Nat.zero_le _) (Source.WellFormed.joint_zero s) h.start
    have hback := hs.laid_slice hend h.stop hs.joint_byteSize
    exact (hfront.append h.new).append hback

/-- The words of a text after two edits. -/
theorem pair (hs : s.WellFormed) (h : e.Respells s old new) (h' : f.Respells s old' new')
    (hle : e.span.stop ≤ f.span.start) :
    ∃ front mid back, s.lexemes = front ++ old ++ mid ++ old' ++ back ∧
      Laid s.Gap (front.map Token.value ++ new ++ mid.map Token.value ++ new' ++
          back.map Token.value)
        (rewritten s.text.toList 0 [e, f] (Text.byteSize s.text.toList)) := by
  have he := e.span.start_le_stop
  have hf := f.span.start_le_stop
  have hend := h'.stop.boundary.le_byteSize
  refine ⟨s.lexemesIn 0 e.span.start, s.lexemesIn e.span.stop f.span.start,
    s.lexemesIn f.span.stop (Text.byteSize s.text.toList), ?_, ?_⟩
  · rw [← hs.lexemesIn_whole, hs.lexemesIn_append h.start (Nat.zero_le _) (by omega),
      hs.lexemesIn_append h.stop he (by omega), hs.lexemesIn_append h'.start hle (by omega),
      hs.lexemesIn_append h'.stop hf hend, h.old, h'.old]
    simp only [List.append_assoc]
  · have hfront := hs.laid_slice (Nat.zero_le _) (Source.WellFormed.joint_zero s) h.start
    have hmid := hs.laid_slice hle h.stop h'.start
    have hback := hs.laid_slice hend h'.stop hs.joint_byteSize
    have hall := (((hfront.append h.new).append hmid).append h'.new).append hback
    simpa only [rewritten_cons, rewritten_nil, List.append_assoc] using hall

end Edit.Respells

theorem Edit.gap_of_mem_pad {s : Source} {a b : Option Char} {c : Char}
    (hc : c ∈ (Edit.pad a b).toList) : s.Gap c := by
  unfold Edit.pad at hc
  split at hc
  · exact .inl (by simpa using hc)
  · simp at hc

/-- A removal between joints takes away the lexemes there. -/
theorem Edit.respells_removal {s : Source} {span : Span} (hstart : s.Joint span.start)
    (hstop : s.Joint span.stop) :
    (Edit.removal s span).Respells s (s.lexemesIn span.start span.stop) [] :=
  ⟨hstart, hstop, rfl, .nil fun _ hc => Edit.gap_of_mem_pad hc⟩

/-- A replacement between joints puts its words in the place of the lexemes there. -/
theorem Edit.respells_substitution {s : Source} {span : Span} (hstart : s.Joint span.start)
    (hstop : s.Joint span.stop) {text : String} {words : List String}
    (h : Laid s.Gap words text.toList) :
    (Edit.substitution s span text).Respells s (s.lexemesIn span.start span.stop) words := by
  have hpad : ∀ a b : Option Char, ∀ c ∈ (Edit.pad a b).toList, s.Gap c :=
    fun _ _ _ hc => Edit.gap_of_mem_pad hc
  unfold Edit.substitution
  split
  · rename_i hempty
    obtain rfl : text = "" := by simpa using hempty
    refine ⟨hstart, hstop, rfl, ?_⟩
    simpa [Edit.removal] using h.gap_append (hpad (s.leftOf span) (s.rightOf span))
  · refine ⟨hstart, hstop, rfl, ?_⟩
    have hback : Laid s.Gap [] (Edit.pad (s.rightOf span) text.toList.getLast?).toList :=
      .nil (hpad _ _)
    simpa using (h.gap_append (hpad (s.leftOf span) text.toList.head?)).append hback

/-- An edit that trades its lexemes for words and leaves nothing owed. -/
theorem Edit.Respells.rewords {s : Source} {e : Edit} {old : List Token} {words : List String}
    {new : List Word} (h : e.Respells s old words) (hstart : s.Settled e.span.start)
    (htrade : Trade old new) (hnew : Lined s.Gap false new e.text.toList false) :
    e.Rewords s new :=
  ⟨hstart, h.stop, by rwa [h.old], hnew⟩

/-- An edit that takes away a parenthesis and leaves a gap. -/
theorem Edit.Respells.rewords_sign {s : Source} {e : Edit} {t : Token} (h : e.Respells s [t] [])
    (hstart : s.Settled e.span.start) (ht : t.isSign "(" = true ∨ t.isSign ")" = true) :
    e.Rewords s [] := by
  refine h.rewords hstart (.sign ht) ?_
  cases h.new with
  | nil hgap => exact .gap hgap

/-- A replacement that makes a trade; the blanks around it owe nothing. -/
theorem Edit.rewords_substitution {s : Source} {span : Span} (hstart : s.Settled span.start)
    (hstop : s.Joint span.stop) {text : String} {new : List Word}
    (htrade : Trade (s.lexemesIn span.start span.stop) new)
    (h : Lined s.Gap false new text.toList false) :
    (Edit.substitution s span text).Rewords s new := by
  have hpad : ∀ a b : Option Char, Lined s.Gap false [] (Edit.pad a b).toList false :=
    fun _ _ => .gap fun _ hc => Edit.gap_of_mem_pad hc
  unfold Edit.substitution
  split
  · rename_i hempty
    obtain rfl : text = "" := by simpa using hempty
    refine ⟨hstart, hstop, htrade, ?_⟩
    simpa [Edit.removal] using (hpad (s.leftOf span) (s.rightOf span)).append h
  · refine ⟨hstart, hstop, htrade, ?_⟩
    have hall := ((hpad (s.leftOf span) text.toList.head?).append h).append
      (hpad (s.rightOf span) text.toList.getLast?)
    simpa using hall

/-! ### How much a piece of text holds -/

@[simp] theorem Edit.ink_pad (a b : Option Char) : ink (Edit.pad a b).toList = 0 := by
  unfold Edit.pad
  split
  · decide +kernel
  · rfl

theorem Edit.ink_removal (s : Source) (span : Span) : ink (Edit.removal s span).text.toList = 0 :=
  Edit.ink_pad _ _

/-- A replacement brings in its text and blanks. -/
theorem Edit.ink_substitution (s : Source) (span : Span) (text : String) :
    ink (Edit.substitution s span text).text.toList = ink text.toList := by
  unfold Edit.substitution
  split
  · rename_i hempty
    obtain rfl : text = "" := by simpa using hempty
    exact Edit.ink_removal s span
  · simp

theorem Token.value_of_isSign {t : Token} {text : String} (h : t.isSign text = true) :
    t.value = text := by
  simp only [isSign, Bool.and_eq_true, beq_iff_eq] at h
  exact h.2

theorem Token.value_of_isWord {t : Token} {text : String} (h : t.isWord text = true) :
    t.value = text := by
  simp only [isWord, Bool.and_eq_true, beq_iff_eq] at h
  exact h.2

/-- A sign is no word. -/
theorem Token.isWord_of_isSign {t : Token} {text : String} (h : t.isSign text = true)
    (word : String) : t.isWord word = false := by
  simp only [isSign, Bool.and_eq_true, beq_iff_eq] at h
  simp [isWord, h.1]

theorem Token.ink_of_isSign {t : Token} {text : String} {n : Nat} (h : t.isSign text = true)
    (hn : ink text.toList = n) : ink t.value.toList = n := by
  rw [value_of_isSign h, hn]

/-- A piece of text holds what its lexemes hold. -/
theorem Source.WellFormed.ink_lexemes_le {s : Source} (h : s.WellFormed) {a b : Nat} (hab : a ≤ b)
    (ha : s.Joint a) (hb : s.Joint b) :
    ((s.lexemesIn a b).map fun t => ink t.value.toList).sum ≤
      ink (Text.slice s.text.toList a b) := by
  have hle := (h.laid_slice hab ha hb).sum_ink_le
  rwa [List.map_map] at hle

theorem Source.WellFormed.ink_lexeme {s : Source} (h : s.WellFormed) {t : Token}
    (ht : t ∈ s.lexemes) :
    ink (Text.slice s.text.toList t.span.start t.span.stop) = ink t.value.toList := by
  rw [h.slice_lexeme ht]

/-- A block holds its braces and what stands between them. -/
theorem Context.Braced.ink_eq {ctx : Context} {id stmt : NodeId} {span : Span} {left right : Token}
    (h : ctx.Braced id stmt span left right) (hctx : ctx.Shaped) :
    ink (Text.slice ctx.source.text.toList span.start span.stop) =
      ink (Text.slice ctx.source.text.toList left.span.stop right.span.start) + 2 := by
  have hone := Token.ink_of_isSign h.opening (show ink "\x7b".toList = 1 by decide +kernel)
  have hone' := Token.ink_of_isSign h.closing (show ink "\x7d".toList = 1 by decide +kernel)
  have hle : left.span.stop ≤ right.span.start := h.precedes hctx
  have hl := left.span.start_le_stop
  have hr := right.span.start_le_stop
  have hj := (hctx.source.joint_start h.left_mem).boundary
  have hj' := (hctx.source.joint_stop h.left_mem).boundary
  have hk := (hctx.source.joint_start h.right_mem).boundary
  have hk' := (hctx.source.joint_stop h.right_mem).boundary
  rw [← h.start, ← h.stop, ← Text.ink_slice_add hj hj' hk' hl (by omega),
    ← Text.ink_slice_add hj' hk hk' hle hr, hctx.source.ink_lexeme h.left_mem,
    hctx.source.ink_lexeme h.right_mem]
  omega

/-- Every node but the program starts and ends where a code token does. -/
theorem Context.Shaped.edges {ctx : Context} (h : ctx.Shaped) {id : NodeId} {node : Node}
    (hnode : ctx.tree.nodes[id]? = some node) (hroot : id ≠ Tree.root) :
    ctx.source.Edge node.span.start ∧ ctx.source.Edge node.span.stop := by
  obtain ⟨⟨t, ht, hstart⟩, ⟨u, hu, hstop⟩, -⟩ := h.aligned id node hnode hroot
  exact ⟨⟨t, ht, .inl hstart.symm⟩, ⟨u, hu, .inr hstop.symm⟩⟩

/-! ### The contract -/

/-- A branch of an `if` or the body of a loop. -/
def Context.IsControlled (ctx : Context) (id : NodeId) : Prop :=
  ∃ controlling kind, ctx.kind controlling = .ok kind ∧ id ∈ controlledBlocks kind

/-- What stands inside the braces of a block neither starts with a blank nor, unless it is a line
comment, ends with one. -/
def Context.TightBlock (ctx : Context) (id : NodeId) : Prop :=
  ∀ (node : Node) (body : List NodeId), ctx.tree.nodes[id]? = some node →
    node.kind = .block body → ∀ (left right : Token) (inner : List Token),
      ctx.source.lexemesIn node.span.start node.span.stop = left :: inner ++ [right] →
      (∀ t ∈ inner.head?, ∃ c, t.value.toList.head? = some c ∧ Text.isBlank c = false) ∧
        ∀ t ∈ inner.getLast?, t.kind = .lineComment ∨
          ∃ c, t.value.toList.getLast? = some c ∧ Text.isBlank c = false

/-- Between the braces of a block, a lexeme that holds more than blanks stands before each line
comment that starts with a blank, and after each line comment that lexemes follow there. -/
def Context.ClearBlock (ctx : Context) (id : NodeId) : Prop :=
  ∀ (node : Node) (body : List NodeId), ctx.tree.nodes[id]? = some node →
    node.kind = .block body → ∀ (left right : Token) (inner : List Token),
      ctx.source.lexemesIn node.span.start node.span.stop = left :: inner ++ [right] →
      Led (inner.map Token.word) ∧ Followed (inner.map Token.word)

/-- The value that the block of an arrow function returns does not end with a semicolon directly
after a line comment. -/
def Context.ClearValue (ctx : Context) (id : NodeId) : Prop :=
  ∀ (arrow stmt argument : NodeId) (params : List NodeId) (isAsync : Bool),
    ctx.kind arrow = .ok (.arrow params id false isAsync) → ctx.kind id = .ok (.block [stmt]) →
    ctx.kind stmt = .ok (.returnStatement (some argument)) → ∀ (last : Token),
      (ctx.tokensOf argument).getLast? = some last → last.isSign ";" = true →
      ∀ c ∈ ctx.source.lexemes, c.kind = .lineComment → c.Precedes last →
        ctx.source.lexemesIn c.span.stop last.span.start ≠ []

/-- The last lexeme but one of a node is a line comment: in a block, the last one before the closing
brace. -/
def Context.EndsInLineComment (ctx : Context) (id : NodeId) : Prop :=
  ∃ (node : Node) (left right comment : Token) (inner : List Token),
    ctx.tree.nodes[id]? = some node ∧
    ctx.source.lexemesIn node.span.start node.span.stop = left :: inner ++ [right] ∧
    inner.getLast? = some comment ∧ comment.kind = .lineComment

/-- No line comment stands where a patch of the report could lose it or the break after it. -/
structure Detection.Clear (ctx : Context) (d : Detection) : Prop where
  block : ctx.IsControlled d.node → ctx.ClearBlock d.node
  value : ctx.ClearValue d.node

/-- Does a value of this kind and with this first token need parentheses as the body of an arrow
function?  It does where it would read as a block, or is a sequence without parentheses. -/
def needsParens (kind : Kind NodeId) (first : Token) : Bool :=
  first.isSign "\x7b" || isSequence kind && !first.isSign "("

/-- The words that a report promises to leave. -/
inductive Respelled (ctx : Context) (d : Detection) : List String → Prop
  /-- The parentheses directly around the node are gone. -/
  | parens {left right : Token} {front inner back : List Token} (hissue : d.issue = .parens)
      (hgrouping : ctx.grouping d.node = .ok (some (left, right)))
      (h : ctx.source.lexemes = front ++ left :: inner ++ right :: back) :
      Respelled ctx d ((front ++ inner ++ back).map Token.value)
  /-- The braces of a branch or body are gone. -/
  | braces {left right : Token} {front inner back : List Token} (hissue : d.issue = .braces)
      (hcontrolled : ctx.IsControlled d.node)
      (hfirst : ctx.firstToken d.node = .ok (some left)) (hleft : left.isSign "\x7b" = true)
      (hlast : ctx.lastToken d.node = .ok (some right)) (hright : right.isSign "\x7d" = true)
      (h : ctx.source.lexemes = front ++ left :: inner ++ right :: back) :
      Respelled ctx d ((front ++ inner ++ back).map Token.value)
  /-- The block of an arrow function is the value that it returns, in parentheses where it needs
  them. -/
  | body {arrow stmt argument : NodeId} {params : List NodeId} {isAsync : Bool}
      {kind : Kind NodeId} {left keyword first last right : Token}
      {front value tail back : List Token} (hissue : d.issue = .braces)
      (harrow : ctx.kind arrow = .ok (.arrow params d.node false isAsync))
      (hblock : ctx.kind d.node = .ok (.block [stmt]))
      (hstmt : ctx.kind stmt = .ok (.returnStatement (some argument)))
      (hkind : ctx.kind argument = .ok kind)
      (hfirst : ctx.firstToken d.node = .ok (some left)) (hleft : left.isSign "\x7b" = true)
      (hkeyword : keyword.isWord "return" = true)
      (hlast : ctx.lastToken stmt = .ok (some last))
      (htail : tail = if last.isSign ";" then [last] else [])
      (hclose : ctx.lastToken d.node = .ok (some right)) (hright : right.isSign "\x7d" = true)
      (h : ctx.source.lexemes =
        front ++ left :: keyword :: (first :: value) ++ tail ++ right :: back) :
      Respelled ctx d (front.map Token.value ++
        (if needsParens kind first then "(" :: (first :: value).map Token.value ++ [")"]
          else (first :: value).map Token.value) ++ back.map Token.value)
  /-- The brackets around a constant key are a dot before the name. -/
  | brackets {name : String} {left key right : Token} {front back : List Token}
      (hissue : d.issue = .brackets)
      (hkind : ctx.kind d.node = .ok (.literal (.string (some name))))
      (hspan : ctx.span d.node = .ok key.span) (hleft : left.isSign "[" = true)
      (hright : right.isSign "]" = true)
      (h : ctx.source.lexemes = front ++ left :: key :: right :: back) :
      Respelled ctx d (front.map Token.value ++ "." :: name :: back.map Token.value)

/-- The contract between a report and its patch. -/
structure Repairs (ctx : Context) (d : Detection) (p : Patch) : Prop where
  /-- The patch fits the text. -/
  placed : Placed ctx.source.text.toList 0 p.edits
  /-- It takes away at least two characters more than it brings in, blanks not counted. -/
  saves : inkGained p.edits + 2 ≤ inkLost ctx.source.text.toList p.edits
  /-- It leaves the words that the report promises; where it unwraps a block, that block must be
  tight. -/
  respells : (ctx.IsControlled d.node → ctx.TightBlock d.node) → ∃ words, Respelled ctx d words ∧
    Laid ctx.source.Gap words
      (rewritten ctx.source.text.toList 0 p.edits (Text.byteSize ctx.source.text.toList))
  /-- It loses no line comment and no break that is owed. -/
  rewords : ctx.source.LinesEnd → d.Clear ctx → Reworded ctx.source p.edits
  /-- It takes away no braces with a line comment right before the closing one. -/
  unremarked : d.issue = .braces → ¬ ctx.EndsInLineComment d.node

/-- A report whose patch, if it has one, keeps the contract. -/
def Detection.Sound (ctx : Context) (d : Detection) : Prop := ∀ p ∈ d.patch, Repairs ctx d p

/-! ### What comes last in a block -/

namespace Context.Braced

variable {ctx : Context} {block stmt : NodeId} {span : Span} {node : Node} {left right : Token}

/-- What comes last between the braces is no line comment if none follows the statement. -/
theorem kind_getLast?_ne (hbraced : ctx.Braced block stmt span left right) (h : ctx.Shaped)
    {last t : Token} (hlast : (ctx.tokensOf stmt).getLast? = some last)
    (hle : last.span.stop ≤ right.span.start)
    (hfree : ∀ c ∈ ctx.source.commentsIn ⟨last.span.stop, right.span.start, hle⟩,
      c.kind ≠ .lineComment)
    (ht : (ctx.source.lexemesIn left.span.stop right.span.start).getLast? = some t) :
    t.kind ≠ .lineComment := by
  have hlastMem := List.mem_of_mem_getLast? hlast
  obtain ⟨hafter, hbefore⟩ := hbraced.between h hlastMem
  have hin : last ∈ ctx.source.lexemesIn left.span.stop right.span.start :=
    Source.mem_lexemesIn.2
      ⟨Context.Shaped.mem_lexemes_of_mem_tokensOf hlastMem, hafter, hbefore⟩
  obtain ⟨hmem, -, hend⟩ := Source.mem_lexemesIn.1 (List.mem_of_mem_getLast? ht)
  -- what comes last is the last token of the statement, or a comment after that token
  rcases (h.source.lexemesIn_inOrder _ _).precedes_getLast? ht hin with rfl | hlate
  · exact h.source.kind_ne_of_token (Context.Shaped.mem_tokens_of_mem_tokensOf hlastMem)
  · rcases Source.mem_lexemes.1 hmem with hmem | hmem
    · exact h.source.kind_ne_of_token hmem
    · exact hfree t ((Source.mem_commentsIn h.source.comments).2 ⟨hmem, hlate, hend⟩)

/-- A block has no line comment right before its closing brace if none follows its statement. -/
theorem not_endsInLineComment (hbraced : ctx.Braced block stmt node.span left right)
    (h : ctx.Shaped) (hnode : ctx.tree.nodes[block]? = some node) {last : Token}
    (hlast : (ctx.tokensOf stmt).getLast? = some last) (hle : last.span.stop ≤ right.span.start)
    (hfree : ∀ c ∈ ctx.source.commentsIn ⟨last.span.stop, right.span.start, hle⟩,
      c.kind ≠ .lineComment) : ¬ ctx.EndsInLineComment block := by
  rintro ⟨node', left', right', comment, inner, hnode', hall, hcomment, hkind⟩
  obtain rfl := Option.some.inj (hnode.symm.trans hnode')
  have hsame := List.append_inj' ((hbraced.lexemesIn_eq h).symm.trans hall) rfl
  obtain rfl := (List.cons.inj hsame.1).2
  exact hbraced.kind_getLast?_ne h hlast hle hfree hcomment hkind

end Context.Braced

end Pare
