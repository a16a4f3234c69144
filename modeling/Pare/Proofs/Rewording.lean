import Pare.Proofs.Lined
import Pare.Proofs.Splice

/-!
**The words of an edited text.**

Every edit that the rules offer trades some lexemes for some words: a parenthesis for nothing, a
block for what stands between its braces, the block of an arrow function for the value that it
returns, a key in brackets for a dot and a name.  None of these trades loses a line comment.  The
words of the text after some edits are the lexemes outside of the edits and the words of the edits,
in order, and a line still ends after each line comment, as edits start where nothing is owed and
leave nothing owed.

Main definitions:

* `Pare.Trade` — what edits trade lexemes for;
* `Pare.Edit.Rewords`, `Pare.Reworded` — edits that make such trades;
* `Pare.Source.respell` — the words of the text after edits;
* `Pare.Source.Keeps`, `Pare.Source.KeepsLines` — a text after edits with all line comments, each
  followed by a break.

Main results:

* `Pare.Trade.filter_isLine` — no trade loses a line comment;
* `Pare.Source.WellFormed.lined_rewritten` — **the text after rewording edits is lined**;
* `Pare.Source.WellFormed.keepsLines` — **it keeps all line comments**.
-/

set_option relaxedAutoImplicit false
set_option autoImplicit false

namespace Pare

/-! ### Trades -/

/-- What edits trade lexemes for. -/
inductive Trade : List Token → List Word → Prop
  /-- A parenthesis goes. -/
  | sign {t : Token} (h : t.isSign "(" = true ∨ t.isSign ")" = true) : Trade [t] []
  /-- A block leaves what stands between its braces; words there may lose blanks at their ends. -/
  | block {left right : Token} {inner : List Token} {new : List Word}
      (hleft : left.isSign "\x7b" = true) (hright : right.isSign "\x7d" = true)
      (hnew : List.Forall₂ Word.Trims (inner.map Token.word) new) :
      Trade (left :: inner ++ [right]) new
  /-- A block that returns a value leaves the value, perhaps in parentheses. -/
  | body {left keyword right : Token} {value tail : List Token} (wrap : Bool)
      (hleft : left.isSign "\x7b" = true) (hkeyword : keyword.isWord "return" = true)
      (htail : ∀ t ∈ tail, t.isSign ";" = true) (hright : right.isSign "\x7d" = true) :
      Trade (left :: keyword :: value ++ tail ++ [right])
        (if wrap then ⟨.punctuator, "("⟩ :: value.map Token.word ++ [⟨.punctuator, ")"⟩]
          else value.map Token.word)
  /-- A key in brackets leaves a dot and the name. -/
  | key {left key right : Token} {name : String} {quote : Char} (hleft : left.isSign "[" = true)
      (hkey : key.isComment = false) (hright : right.isSign "]" = true)
      (hname : key.value.toList = quote :: name.toList ++ [quote]) :
      Trade [left, key, right] [⟨.punctuator, "."⟩, ⟨.word, name⟩]

theorem Token.isLine_of_isSign {t : Token} {text : String} (h : t.isSign text = true) :
    t.word.isLine = false := by
  simp only [isSign, Bool.and_eq_true, beq_iff_eq] at h
  simp [Word.isLine, word, h.1]

theorem Token.isLine_of_isWord {t : Token} {text : String} (h : t.isWord text = true) :
    t.word.isLine = false := by
  simp only [isWord, Bool.and_eq_true, beq_iff_eq] at h
  simp [Word.isLine, word, h.1]

theorem Token.isLine_of_isComment {t : Token} (h : t.isComment = false) :
    t.word.isLine = false := by
  refine Bool.eq_false_iff.2 fun hline => ?_
  simp [isComment, Kind.isComment, kind_of_isLine hline] at h

/-- Line comments lose nothing, so the same ones are there. -/
theorem filter_isLine_of_trims {ws ws' : List Word} (h : List.Forall₂ Word.Trims ws ws') :
    ws'.filter Word.isLine = ws.filter Word.isLine := by
  induction h with
  | nil => rfl
  | @cons w w' ws ws' hw _ ih =>
      rw [List.filter_cons, List.filter_cons, hw.isLine_eq, ih]
      split
      · rename_i hline
        rw [hw.line hline]
      · rfl

/-- No trade loses a line comment. -/
theorem Trade.filter_isLine {old : List Token} {new : List Word} (h : Trade old new) :
    new.filter Word.isLine = (old.map Token.word).filter Word.isLine := by
  cases h with
  | sign h =>
      have hplain : ∀ {t : Token}, t.isSign "(" = true ∨ t.isSign ")" = true →
          t.word.isLine = false := fun h => h.elim Token.isLine_of_isSign Token.isLine_of_isSign
      simp [hplain h]
  | block hleft hright hnew =>
      simp [Token.isLine_of_isSign hleft, Token.isLine_of_isSign hright,
        filter_isLine_of_trims hnew]
  | @body left keyword right value tail wrap hleft hkeyword htail hright =>
      have hnone : (tail.map Token.word).filter Word.isLine = [] := by
        refine List.filter_eq_nil_iff.2 fun w hw => ?_
        obtain ⟨t, ht, rfl⟩ := List.mem_map.1 hw
        simp [Token.isLine_of_isSign (htail t ht)]
      cases wrap <;> simp [Token.isLine_of_isSign hleft, Token.isLine_of_isWord hkeyword,
        Token.isLine_of_isSign hright, hnone]
  | key hleft hkey hright hname =>
      simp [Token.isLine_of_isSign hleft, Token.isLine_of_isComment hkey,
        Token.isLine_of_isSign hright]

/-! ### Edits -/

/-- An edit that starts where nothing is owed, makes a trade and leaves nothing owed. -/
structure Edit.Rewords (s : Source) (e : Edit) (new : List Word) : Prop where
  start : s.Settled e.span.start
  stop : s.Joint e.span.stop
  trade : Trade (s.lexemesIn e.span.start e.span.stop) new
  new : Lined s.Gap false new e.text.toList false

/-- Edits that all make trades, each with words of its own. -/
def Reworded (s : Source) (edits : List Edit) : Prop :=
  ∃ plan : List (Edit × List Word), plan.map Prod.fst = edits ∧ ∀ q ∈ plan, q.1.Rewords s q.2

theorem Edit.Rewords.single {s : Source} {e : Edit} {new : List Word} (h : e.Rewords s new) :
    Reworded s [e] :=
  ⟨[(e, new)], rfl, by simpa using h⟩

namespace Reworded

variable {s : Source}

theorem nil : Reworded s [] := ⟨[], rfl, by simp⟩

theorem append {edits more : List Edit} (h : Reworded s edits) (h' : Reworded s more) :
    Reworded s (edits ++ more) := by
  obtain ⟨plan, rfl, hplan⟩ := h
  obtain ⟨rest, rfl, hrest⟩ := h'
  refine ⟨plan ++ rest, List.map_append, fun q hq => ?_⟩
  rcases List.mem_append.1 hq with hq | hq
  · exact hplan q hq
  · exact hrest q hq

/-- The edits of many patches make trades if those of each patch do. -/
theorem flatMap {patches : List Patch} (h : ∀ p ∈ patches, Reworded s p.edits) :
    Reworded s (patches.flatMap Patch.edits) := by
  induction patches with
  | nil => exact nil
  | cons p patches ih =>
      rw [List.flatMap_cons]
      exact (h p (List.mem_cons_self ..)).append
        (ih fun q hq => h q (List.mem_cons_of_mem p hq))

end Reworded

namespace Source

/-- The words of a text from an offset on, after edits that bring in words of their own. -/
def respell (s : Source) : Nat → List (Edit × List Word) → List Word
  | start, [] => (s.lexemesIn start (Text.byteSize s.text.toList)).map Token.word
  | start, (e, new) :: rest =>
      (s.lexemesIn start e.span.start).map Token.word ++ new ++ s.respell e.span.stop rest

/-- A text in the words of a plan has all line comments of the source, and after each of them a line
ends before the next word. -/
structure Keeps (s : Source) (plan : List (Edit × List Word)) (out : List Char) : Prop where
  comments : (s.respell 0 plan).filter Word.isLine = (s.lexemes.map Token.word).filter Word.isLine
  lined : ∃ owed, Lined s.Gap false (s.respell 0 plan) out owed

/-- The text after edits that all make trades keeps the line comments. -/
def KeepsLines (s : Source) (edits : List Edit) (out : String) : Prop :=
  ∃ plan : List (Edit × List Word), plan.map Prod.fst = edits ∧
    (∀ q ∈ plan, Trade (s.lexemesIn q.1.span.start q.1.span.stop) q.2) ∧ s.Keeps plan out.toList

namespace Keeps

variable {s : Source} {plan : List (Edit × List Word)} {out : List Char} {c : Token}

theorem mem_respell (h : s.Keeps plan out) (hc : c ∈ s.lexemes) (hkind : c.kind = .lineComment) :
    c.word ∈ s.respell 0 plan := by
  have hmem : c.word ∈ (s.respell 0 plan).filter Word.isLine := by
    rw [h.comments]
    exact List.mem_filter.2 ⟨List.mem_map_of_mem hc, by simp [Word.isLine, Token.word, hkind]⟩
  exact (List.mem_filter.1 hmem).1

/-- What is kept is in the text. -/
theorem isInfix (h : s.Keeps plan out) (hc : c ∈ s.lexemes) (hkind : c.kind = .lineComment) :
    c.value.toList <:+: out := by
  obtain ⟨owed, hlined⟩ := h.lined
  exact hlined.isInfix (h.mem_respell hc hkind)

/-- A line ends in the text if lexemes follow the edit, but no line comment. -/
theorem hasBreak {e : Edit} {new : List Word} (h : s.Keeps [(e, new)] out) (hc : c ∈ s.lexemes)
    (hkind : c.kind = .lineComment) {t : Token} {rest : List Token}
    (hafter : s.lexemesIn e.span.stop (Text.byteSize s.text.toList) = t :: rest)
    (hplain : ∀ u ∈ t :: rest, u.kind ≠ .lineComment) : Text.hasBreak out = true := by
  obtain ⟨owed, hlined⟩ := h.lined
  have hmem := h.mem_respell hc hkind
  rw [respell, respell, hafter, List.map_cons] at hlined hmem
  refine hlined.hasBreak (w := c.word) ?_ (by simp [Word.isLine, Token.word, hkind])
  rcases List.mem_append.1 hmem with hmem | hmem
  · exact hmem
  · obtain ⟨u, hu, hword⟩ := List.mem_map.1 (List.map_cons ▸ hmem)
    exact absurd ((congrArg Word.kind hword).trans hkind) (hplain u hu)

end Keeps

namespace WellFormed

variable {s : Source}

/-- **The text after rewording edits is lined.** -/
theorem lined_rewritten (h : s.WellFormed) (hlines : s.LinesEnd) {start : Nat}
    {plan : List (Edit × List Word)} (hstart : s.Joint start)
    (hplan : ∀ q ∈ plan, q.1.Rewords s q.2)
    (hplaced : Placed s.text.toList start (plan.map Prod.fst)) :
    ∃ owed, Lined s.Gap false (s.respell start plan)
      (rewritten s.text.toList start (plan.map Prod.fst) (Text.byteSize s.text.toList)) owed := by
  induction plan generalizing start with
  | nil =>
      obtain ⟨owed, hlined, -⟩ := h.lined_slice hlines hstart.boundary.le_byteSize hstart
        h.joint_byteSize (fun hfalse : false = true => by cases hfalse)
      exact ⟨owed, hlined⟩
  | cons q rest ih =>
      obtain ⟨e, new⟩ := q
      have hedit : e.Rewords s new := hplan (e, new) (List.mem_cons_self ..)
      rw [List.map_cons] at hplaced
      obtain ⟨owed, hfront, hsettled⟩ := h.lined_slice hlines hplaced.head_after hstart
        hedit.start.joint (fun hfalse : false = true => by cases hfalse)
      obtain rfl := hsettled hedit.start
      obtain ⟨owed', hback⟩ := ih hedit.stop (fun r hr => hplan r (List.mem_cons_of_mem _ hr))
        hplaced.tail
      exact ⟨owed', (hfront.append hedit.new).append hback⟩

/-- Its line comments are those of the source. -/
theorem filter_isLine_respell (h : s.WellFormed) {start : Nat} {plan : List (Edit × List Word)}
    (hplan : ∀ q ∈ plan, q.1.Rewords s q.2)
    (hplaced : Placed s.text.toList start (plan.map Prod.fst)) :
    (s.respell start plan).filter Word.isLine =
      ((s.lexemesIn start (Text.byteSize s.text.toList)).map Token.word).filter Word.isLine := by
  induction plan generalizing start with
  | nil => rfl
  | cons q rest ih =>
      obtain ⟨e, new⟩ := q
      have hedit : e.Rewords s new := hplan (e, new) (List.mem_cons_self ..)
      rw [List.map_cons] at hplaced
      have hrest := ih (fun r hr => hplan r (List.mem_cons_of_mem _ hr)) hplaced.tail
      have hin := e.span.start_le_stop
      have hend := hedit.stop.boundary.le_byteSize
      rw [h.lexemesIn_append hedit.start.joint hplaced.head_after (by omega),
        h.lexemesIn_append hedit.stop hin hend, respell]
      simp only [List.filter_append, List.map_append, hrest, hedit.trade.filter_isLine,
        List.append_assoc]

/-- **The text after rewording edits keeps all line comments.** -/
theorem keepsLines (h : s.WellFormed) (hlines : s.LinesEnd) {edits : List Edit}
    (hedits : Reworded s edits) (hplaced : Placed s.text.toList 0 edits) :
    s.KeepsLines edits
      (String.ofList (rewritten s.text.toList 0 edits (Text.byteSize s.text.toList))) := by
  obtain ⟨plan, rfl, hplan⟩ := hedits
  refine ⟨plan, rfl, fun q hq => (hplan q hq).trade, ⟨?_, ?_⟩⟩
  · rw [h.filter_isLine_respell hplan hplaced, h.lexemesIn_whole]
  · rw [String.toList_ofList]
    exact h.lined_rewritten hlines (joint_zero s) hplan hplaced

end WellFormed

end Source

end Pare
