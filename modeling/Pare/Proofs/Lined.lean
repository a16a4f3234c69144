import Mathlib.Data.List.Forall2
import Pare.Proofs.Lexemes

/-!
**Line comments and the breaks after them.**

A line comment runs up to the end of its line, so a line has to end between it and the next lexeme,
or the next lexeme is swallowed.  A text is read from left to right with one bit of memory: whether
a break is owed, because the last word was a line comment and no line has ended since.

Main definitions:

* `Pare.Lined` — a text that is a sequence of words with gaps, in which a line ends after every line
  comment;
* `Pare.Word.Trims` — a word that has lost blanks at its ends, but is no line comment;
* `Pare.Led` — every line comment that starts with a blank is behind a word that holds more;
* `Pare.Followed` — every line comment that words follow is followed by one that holds more than
  blanks;
* `Pare.Shielded` — every line comment is followed by a word that holds more than blanks;
* `Pare.Source.LinesEnd` — in the source, a line ends after every line comment;
* `Pare.Source.Settled` — a joint at which no break is owed.

Main results:

* `Pare.Lined.append` — lined texts can be joined, if the second takes over what the first owes;
* `Pare.Lined.trim` — trimming leaves a text lined, if it meets no line comment;
* `Pare.Source.WellFormed.settled` — nothing is owed where a code token starts or ends;
* `Pare.Source.WellFormed.lined_slice` — **a piece between joints is lined**.
-/

set_option relaxedAutoImplicit false
set_option autoImplicit false

namespace Pare

open Text (ink isBlank)

/-! ### Trimming a text -/

namespace Text

/-- A text without the blanks at its end. -/
def trimEnd (cs : List Char) : List Char := (cs.reverse.dropWhile isBlank).reverse

theorem trim_eq (cs : List Char) : trim cs = trimEnd (cs.dropWhile isBlank) := rfl

theorem isEmpty_dropWhile {cs : List Char} :
    (cs.dropWhile isBlank).isEmpty = true ↔ ink cs = 0 := by
  rw [← ink_dropWhile cs]
  constructor
  · intro h
    rw [List.isEmpty_iff.1 h, ink_nil]
  · intro h
    cases hdrop : cs.dropWhile isBlank with
    | nil => rfl
    | cons c rest =>
        have hc := List.head?_dropWhile_not isBlank cs
        simp [hdrop] at hc
        simp [hdrop, ink_cons, hc] at h

/-- Blanks are dropped from the second of two pieces only if the first holds nothing else. -/
theorem dropWhile_append (cs ds : List Char) :
    (cs ++ ds).dropWhile isBlank =
      if ink cs = 0 then ds.dropWhile isBlank else cs.dropWhile isBlank ++ ds := by
  rw [List.dropWhile_append]
  simp only [isEmpty_dropWhile]

theorem trimEnd_append (cs ds : List Char) :
    trimEnd (cs ++ ds) = if ink ds = 0 then trimEnd cs else cs ++ trimEnd ds := by
  rw [trimEnd, List.reverse_append, dropWhile_append, ink_reverse]
  split
  · rfl
  · simp [trimEnd]

theorem mem_of_mem_trimEnd {cs : List Char} {c : Char} (h : c ∈ trimEnd cs) : c ∈ cs := by
  rw [trimEnd, List.mem_reverse] at h
  simpa using (List.dropWhile_suffix isBlank).subset h

/-- What is trimmed away is blank. -/
theorem exists_append_trimEnd (cs : List Char) :
    ∃ back, ink back = 0 ∧ cs = trimEnd cs ++ back := by
  refine ⟨(cs.reverse.takeWhile isBlank).reverse, ?_, ?_⟩
  · rw [ink_reverse]
    exact ink_eq_zero fun c hc => List.all_eq_true.1 List.all_takeWhile c hc
  · rw [trimEnd, ← List.reverse_append, List.takeWhile_append_dropWhile, List.reverse_reverse]

/-- Does a line end in the text? -/
def hasBreak (cs : List Char) : Bool := cs.any Source.isLineBreak

@[simp] theorem hasBreak_nil : hasBreak [] = false := rfl

@[simp] theorem hasBreak_append (cs ds : List Char) :
    hasBreak (cs ++ ds) = (hasBreak cs || hasBreak ds) := List.any_append

end Text

open Text (trimEnd hasBreak)

/-! ### Words -/

namespace Word

def isLine (w : Word) : Bool := w.kind == .lineComment

@[simp] theorem isLine_mk (kind : Token.Kind) (text : String) :
    (Word.mk kind text).isLine = (kind == .lineComment) := rfl

/-- The second word is the first without some blanks at its ends; a line comment keeps all. -/
structure Trims (w w' : Word) : Prop where
  kind : w'.kind = w.kind
  text : ∃ front back, ink front = 0 ∧ ink back = 0 ∧
    w.text.toList = front ++ w'.text.toList ++ back
  line : w.isLine = true → w' = w

theorem Trims.refl (w : Word) : w.Trims w := ⟨rfl, ⟨[], [], rfl, rfl, by simp⟩, fun _ => rfl⟩

theorem Trims.trans {u v w : Word} (huv : u.Trims v) (hvw : v.Trims w) : u.Trims w := by
  obtain ⟨front, back, hfront, hback, htext⟩ := huv.text
  obtain ⟨front', back', hfront', hback', htext'⟩ := hvw.text
  refine ⟨hvw.kind.trans huv.kind, ⟨front ++ front', back' ++ back, ?_, ?_, ?_⟩, fun hline => ?_⟩
  · rw [Text.ink_append, hfront, hfront']
  · rw [Text.ink_append, hback, hback']
  · rw [htext, htext']
    simp only [List.append_assoc]
  · obtain rfl := huv.line hline
    exact hvw.line hline

theorem Trims.isLine_eq {w w' : Word} (h : w.Trims w') : w'.isLine = w.isLine := by
  rw [isLine, isLine, h.kind]

theorem Trims.ink_eq {w w' : Word} (h : w.Trims w') : ink w'.text.toList = ink w.text.toList := by
  obtain ⟨front, back, hfront, hback, htext⟩ := h.text
  rw [htext, Text.ink_append, Text.ink_append]
  omega

/-- What is left of a word that vanishes. -/
def emptied (w : Word) : Word := ⟨w.kind, ""⟩

theorem trims_emptied {w : Word} (hblank : ink w.text.toList = 0) (hplain : w.isLine = false) :
    w.Trims w.emptied :=
  ⟨rfl, ⟨w.text.toList, [], hblank, rfl, by simp [emptied]⟩, by simp [hplain]⟩

theorem forall₂_trims_refl (ws : List Word) : List.Forall₂ Trims ws ws :=
  List.forall₂_same.2 fun w _ => Trims.refl w

theorem forall₂_trims_trans {us vs ws : List Word} (huv : List.Forall₂ Trims us vs)
    (hvw : List.Forall₂ Trims vs ws) : List.Forall₂ Trims us ws := by
  induction huv generalizing ws with
  | nil => exact hvw
  | cons hu _ ih =>
      cases hvw with
      | cons hv hrest => exact .cons (hu.trans hv) (ih hrest)

end Word

theorem Token.kind_of_isLine {t : Token} (h : t.word.isLine = true) : t.kind = .lineComment := by
  simpa [Word.isLine, word] using h

/-- Every line comment that starts with a blank is behind a word that holds more than blanks. -/
def Led : List Word → Prop
  | [] => True
  | w :: ws => (w.isLine = true → ∃ c, w.text.toList.head? = some c ∧ isBlank c = false) ∧
      (ink w.text.toList = 0 → Led ws)

/-- Every line comment that words follow is followed by one that holds more than blanks. -/
def Followed : List Word → Prop
  | [] => True
  | w :: ws => (w.isLine = true → ws ≠ [] → ∃ v ∈ ws, ink v.text.toList ≠ 0) ∧ Followed ws

/-- Every line comment is followed by a word that holds more than blanks. -/
def Shielded : List Word → Prop
  | [] => True
  | w :: ws => (w.isLine = true → ∃ v ∈ ws, ink v.text.toList ≠ 0) ∧ Shielded ws

/-- Among words of blanks only there is no line comment. -/
theorem Shielded.isLine_eq_false {ws : List Word} (h : Shielded ws)
    (hblank : ∀ w ∈ ws, ink w.text.toList = 0) : ∀ w ∈ ws, w.isLine = false := by
  induction ws with
  | nil => simp
  | cons w ws ih =>
      have hrest : ∀ v ∈ ws, ink v.text.toList = 0 := fun v hv =>
        hblank v (List.mem_cons_of_mem w hv)
      intro u hu
      rcases List.mem_cons.1 hu with rfl | hu
      · refine Bool.eq_false_iff.2 fun hline => ?_
        obtain ⟨v, hv, hink⟩ := h.1 hline
        exact hink (hrest v hv)
      · exact ih h.2 hrest u hu

/-- What follows a line comment is still there when words lose blanks. -/
theorem Shielded.of_trims {ws ws' : List Word} (h : Shielded ws)
    (htrims : List.Forall₂ Word.Trims ws ws') : Shielded ws' := by
  induction htrims with
  | nil => trivial
  | @cons w w' ws ws' hw hws ih =>
      obtain ⟨hfirst, hrest⟩ := h
      refine ⟨fun hline => ?_, ih hrest⟩
      obtain ⟨v, hv, hink⟩ := hfirst (hw.isLine_eq ▸ hline)
      clear ih hfirst hrest
      induction hws with
      | nil => simp at hv
      | @cons u u' us us' hu _ ihu =>
          rcases List.mem_cons.1 hv with rfl | hv
          · exact ⟨u', List.mem_cons_self .., hu.ink_eq ▸ hink⟩
          · obtain ⟨v', hv', hink'⟩ := ihu hv
            exact ⟨v', List.mem_cons_of_mem u' hv', hink'⟩

/-- If the last word is no line comment, then each line comment is followed by some word. -/
theorem Followed.shielded {ws : List Word} (h : Followed ws)
    (hlast : ∀ w ∈ ws.getLast?, w.isLine = false) : Shielded ws := by
  induction ws with
  | nil => trivial
  | cons w ws ih =>
      cases ws with
      | nil =>
          refine ⟨fun hline => ?_, trivial⟩
          rw [hlast w rfl] at hline
          cases hline
      | cons v ws =>
          refine ⟨fun hline => h.1 hline (List.cons_ne_nil v ws), ih h.2 ?_⟩
          rwa [List.getLast?_cons_cons] at hlast

/-! ### Lined texts -/

/-- A text that is a sequence of words with gaps, in which a line ends between a line comment and
the next word.  The first truth value tells whether a break is owed when the text begins, the second
whether one is owed when it is over. -/
inductive Lined (G : Char → Prop) : Bool → List Word → List Char → Bool → Prop
  | nil {owed : Bool} {gap : List Char} (hgap : ∀ c ∈ gap, G c) :
      Lined G owed [] gap (owed && !hasBreak gap)
  | cons {owed owed' : Bool} {gap : List Char} {w : Word} {ws : List Word} {rest : List Char}
      (hgap : ∀ c ∈ gap, G c) (hbreak : owed = true → hasBreak gap = true)
      (hrest : Lined G w.isLine ws rest owed') :
      Lined G owed (w :: ws) (gap ++ w.text.toList ++ rest) owed'

namespace Lined

variable {G : Char → Prop} {owed owed' : Bool} {ws : List Word} {cs : List Char}

/-- A gap may grow at the front, and the break that is owed may be in what is added. -/
theorem gap_append {gap : List Char} (hgap : ∀ c ∈ gap, G c)
    (h : Lined G (owed && !hasBreak gap) ws cs owed') : Lined G owed ws (gap ++ cs) owed' := by
  generalize howed : (owed && !hasBreak gap) = now at h
  cases h with
  | nil hmore =>
      have hsame : (now && !hasBreak cs) = (owed && !hasBreak (gap ++ cs)) := by
        rw [← howed, Text.hasBreak_append, Bool.not_or, Bool.and_assoc]
      rw [hsame]
      exact .nil (List.forall_mem_append.2 ⟨hgap, hmore⟩)
  | cons hmore hbreak hrest =>
      rw [← List.append_assoc, ← List.append_assoc]
      refine .cons (List.forall_mem_append.2 ⟨hgap, hmore⟩) (fun hnow => ?_) hrest
      rw [Text.hasBreak_append, Bool.or_eq_true]
      cases hgapBreak : hasBreak gap with
      | true => exact .inl rfl
      | false => exact .inr (hbreak (by rw [← howed, hnow, hgapBreak]; rfl))

/-- Lined texts can be joined, if the second takes over what the first owes. -/
theorem append {mid : Bool} {vs : List Word} {ds : List Char} (h : Lined G owed ws cs mid)
    (h' : Lined G mid vs ds owed') : Lined G owed (ws ++ vs) (cs ++ ds) owed' := by
  induction h with
  | nil hgap => exact gap_append hgap h'
  | cons hgap hbreak _ ih =>
      rw [List.append_assoc]
      exact .cons hgap hbreak (ih h')

/-- Where nothing is owed, a word needs no gap in front of it. -/
theorem word_append {w : Word} (h : Lined G w.isLine ws cs owed') :
    Lined G false (w :: ws) (w.text.toList ++ cs) owed' := by
  rw [← List.nil_append w.text.toList]
  exact .cons (by simp) (by simp) h

/-- A word by itself. -/
theorem word (w : Word) : Lined G false [w] w.text.toList w.isLine := by
  have hnil : Lined G w.isLine [] [] (w.isLine && !hasBreak []) := .nil (by simp)
  simpa using word_append hnil

/-- A word that vanishes leaves the text behind it as it is. -/
theorem emptied_append {w : Word} (hplain : w.isLine = false) (h : Lined G false ws cs owed') :
    Lined G false (w.emptied :: ws) cs owed' := by
  rw [← hplain] at h
  exact word_append (w := w.emptied) h

/-- A gap by itself, where nothing is owed. -/
theorem gap {gap : List Char} (hgap : ∀ c ∈ gap, G c) : Lined G false [] gap false := .nil hgap

theorem ink_le_of_mem (h : Lined G owed ws cs owed') {w : Word} (hw : w ∈ ws) :
    ink w.text.toList ≤ ink cs := by
  induction h with
  | nil _ => simp at hw
  | cons _ _ _ ih =>
      simp only [Text.ink_append]
      rcases List.mem_cons.1 hw with rfl | hw
      · omega
      · have := ih hw
        omega

/-- The words are in the text. -/
theorem isInfix (h : Lined G owed ws cs owed') {w : Word} (hw : w ∈ ws) :
    w.text.toList <:+: cs := by
  induction h with
  | nil _ => simp at hw
  | @cons _ _ gap v _ rest _ _ _ ih =>
      rcases List.mem_cons.1 hw with rfl | hw
      · exact ⟨gap, rest, rfl⟩
      · exact (ih hw).trans (List.suffix_append ..).isInfix

/-- A break that is owed comes before the first word. -/
theorem hasBreak_of_owed (h : Lined G true ws cs owed') (hws : ws ≠ []) :
    Text.hasBreak cs = true := by
  cases h with
  | nil _ => exact absurd rfl hws
  | cons _ hbreak _ => simp [hbreak rfl]

/-- A line ends where a line comment is not the last word. -/
theorem hasBreak {us : List Word} {v : Word} (h : Lined G owed (us ++ v :: ws) cs owed') {w : Word}
    (hw : w ∈ us) (hline : w.isLine = true) : Text.hasBreak cs = true := by
  induction us generalizing owed cs with
  | nil => simp at hw
  | cons u us ih =>
      cases h with
      | cons _ _ hrest =>
          rw [Text.hasBreak_append, Bool.or_eq_true]
          refine .inr ?_
          rcases List.mem_cons.1 hw with rfl | hw
          · rw [hline] at hrest
            exact hrest.hasBreak_of_owed (by simp)
          · exact ih hrest hw

/-- Dropping blanks at the front may cut a word, but no line comment. -/
theorem dropWhile (h : Lined G false ws cs owed') (hled : Led ws) :
    ∃ ws', List.Forall₂ Word.Trims ws ws' ∧ Lined G false ws' (cs.dropWhile isBlank) owed' := by
  generalize howed : false = owed at h
  induction h with
  | nil hgap =>
      subst howed
      exact ⟨[], .nil, .nil fun c hc => hgap c ((List.dropWhile_suffix isBlank).subset hc)⟩
  | @cons owed owed' gap w ws rest hgap hbreak hrest ih =>
      subst howed
      obtain ⟨hline, hbehind⟩ := hled
      rw [List.append_assoc, Text.dropWhile_append, Text.dropWhile_append]
      split
      · split
        · -- the word is blank, so it is no line comment, and the dropping goes on behind it
          rename_i hblank
          have hplain : w.isLine = false := by
            refine Bool.eq_false_iff.2 fun hw => ?_
            obtain ⟨c, hc, hink⟩ := hline hw
            obtain ⟨tail, htail⟩ := List.head?_eq_some_iff.1 hc
            rw [htail, Text.ink_cons, hink] at hblank
            simp at hblank
          obtain ⟨ws', htrims, hws'⟩ := ih (hbehind hblank) hplain.symm
          rw [hplain] at hws'
          exact ⟨w.emptied :: ws', .cons (Word.trims_emptied hblank hplain) htrims,
            emptied_append hplain hws'⟩
        · refine ⟨⟨w.kind, String.ofList (w.text.toList.dropWhile isBlank)⟩ :: ws,
            .cons ⟨rfl, ?_, fun hw => ?_⟩ (Word.forall₂_trims_refl ws), ?_⟩
          · refine ⟨w.text.toList.takeWhile isBlank, [], ?_, rfl, ?_⟩
            · exact Text.ink_eq_zero fun c hc => List.all_eq_true.1 List.all_takeWhile c hc
            · simp [List.takeWhile_append_dropWhile]
          · obtain ⟨c, hc, hink⟩ := hline hw
            obtain ⟨tail, htail⟩ := List.head?_eq_some_iff.1 hc
            have hstays : w.text.toList.dropWhile isBlank = w.text.toList := by simp [htail, hink]
            rw [hstays, String.ofList_toList]
          · have h := word_append (w := ⟨w.kind, String.ofList (w.text.toList.dropWhile isBlank)⟩)
              hrest
            rwa [String.toList_ofList] at h
      · refine ⟨w :: ws, Word.forall₂_trims_refl _, ?_⟩
        rw [← List.append_assoc]
        exact .cons (fun c hc => hgap c ((List.dropWhile_suffix isBlank).subset hc)) (by simp) hrest

/-- Words of blanks only may vanish, as no line comment is among them. -/
theorem exists_emptied (hshielded : Shielded ws) (hblank : ∀ w ∈ ws, ink w.text.toList = 0) :
    ∃ ws', List.Forall₂ Word.Trims ws ws' ∧ Lined G false ws' [] false := by
  have hplain := hshielded.isLine_eq_false hblank
  clear hshielded
  induction ws with
  | nil => exact ⟨[], .nil, .gap (by simp)⟩
  | cons w ws ih =>
      obtain ⟨ws', htrims, hws'⟩ := ih (fun v hv => hblank v (List.mem_cons_of_mem w hv))
        fun v hv => hplain v (List.mem_cons_of_mem w hv)
      have hline := hplain w (List.mem_cons_self ..)
      exact ⟨w.emptied :: ws',
        .cons (Word.trims_emptied (hblank w (List.mem_cons_self ..)) hline) htrims,
        emptied_append hline hws'⟩

/-- Blanks at the end may be trimmed, if no line comment is met. -/
theorem trimEnd (h : Lined G owed ws cs owed') (hline : Shielded ws)
    (howed : owed = true → ∃ w ∈ ws, ink w.text.toList ≠ 0) :
    ∃ ws', List.Forall₂ Word.Trims ws ws' ∧ Lined G owed ws' (Text.trimEnd cs) false := by
  induction h with
  | @nil owed gap hgap =>
      obtain rfl : owed = false := Bool.eq_false_iff.2 fun h => by simpa using howed h
      exact ⟨[], .nil, .gap fun c hc => hgap c (Text.mem_of_mem_trimEnd hc)⟩
  | @cons owed owed' gap w ws rest hgap hbreak hrest ih =>
      obtain ⟨hfirst, hshielded⟩ := hline
      rw [Text.trimEnd_append, Text.trimEnd_append]
      split
      · -- all that follows is blank, so no line comment is left, and the words there vanish
        rename_i hblank
        have hwords : ∀ v ∈ ws, ink v.text.toList = 0 := fun v hv =>
          Nat.eq_zero_of_le_zero (hblank ▸ hrest.ink_le_of_mem hv)
        have hplain : w.isLine = false := by
          refine Bool.eq_false_iff.2 fun hw => ?_
          obtain ⟨v, hv, hink⟩ := hfirst hw
          exact hink (hwords v hv)
        obtain ⟨ws', htrims, hws'⟩ := exists_emptied (G := G) hshielded hwords
        split
        · rename_i hw
          obtain rfl : owed = false := by
            refine Bool.eq_false_iff.2 fun h => ?_
            obtain ⟨v, hv, hink⟩ := howed h
            rcases List.mem_cons.1 hv with rfl | hv
            · exact hink hw
            · exact hink (hwords v hv)
          have hgap' : ∀ c ∈ Text.trimEnd gap, G c := fun c hc =>
            hgap c (Text.mem_of_mem_trimEnd hc)
          refine ⟨w.emptied :: ws', .cons (Word.trims_emptied hw hplain) htrims, ?_⟩
          simpa using (Lined.gap hgap').append (emptied_append hplain hws')
        · obtain ⟨back, hback, hsplit⟩ := Text.exists_append_trimEnd w.text.toList
          refine ⟨⟨w.kind, String.ofList (Text.trimEnd w.text.toList)⟩ :: ws',
            .cons ⟨rfl, ⟨[], back, rfl, hback, ?_⟩, ?_⟩ htrims, ?_⟩
          · rwa [String.toList_ofList, List.nil_append]
          · simp [hplain]
          · rw [← hplain] at hws'
            have h := Lined.cons (w := ⟨w.kind, String.ofList (Text.trimEnd w.text.toList)⟩) hgap
              hbreak hws'
            rwa [String.toList_ofList, List.append_nil, hplain] at h
      · obtain ⟨ws', htrims, hws'⟩ := ih hshielded hfirst
        exact ⟨w :: ws', .cons (.refl w) htrims, .cons hgap hbreak hws'⟩

/-- Trimming leaves a text lined, if it meets no line comment. -/
theorem trim (h : Lined G false ws cs owed') (hfirst : Led ws) (hlast : Shielded ws) :
    ∃ ws', List.Forall₂ Word.Trims ws ws' ∧ Lined G false ws' (Text.trim cs) false := by
  obtain ⟨mid, htrims, hmid⟩ := h.dropWhile hfirst
  obtain ⟨ws', htrims', hws'⟩ := hmid.trimEnd (hlast.of_trims htrims) (by simp)
  refine ⟨ws', ?_, Text.trim_eq cs ▸ hws'⟩
  exact Word.forall₂_trims_trans htrims htrims'

end Lined

/-! ### Sources -/

namespace Source

/-- After every line comment a line ends before the next lexeme. -/
def LinesEnd (s : Source) : Prop :=
  ∀ c ∈ s.lexemes, c.kind = .lineComment → ∀ t ∈ s.lexemes, c.Precedes t →
    s.lexemesIn c.span.stop t.span.start = [] → s.breakBetween c.span.stop t.span.start = true

instance instDecidableLinesEnd (s : Source) : Decidable s.LinesEnd :=
  decidable_of_iff (∀ c ∈ s.tokens.toList ++ s.comments.toList, c.kind = .lineComment →
      ∀ t ∈ s.tokens.toList ++ s.comments.toList, c.Precedes t →
        (∀ u ∈ s.tokens.toList ++ s.comments.toList,
          ¬ (c.span.stop ≤ u.span.start ∧ u.span.stop ≤ t.span.start)) →
        s.breakBetween c.span.stop t.span.start = true)
    (by simp [LinesEnd, lexemesIn, lexemes, List.filter_eq_nil_iff])

/-- A joint at which no break is owed. -/
structure Settled (s : Source) (n : Nat) : Prop where
  joint : s.Joint n
  settled : ∀ c ∈ s.lexemes, c.kind = .lineComment → c.span.stop ≤ n →
    s.lexemesIn c.span.stop n = [] → hasBreak (Text.slice s.text.toList c.span.stop n) = true

/-- A place where a code token starts or ends. -/
def Edge (s : Source) (n : Nat) : Prop :=
  ∃ t ∈ s.tokens.toList, n = t.span.start ∨ n = t.span.stop

variable {s : Source}

theorem breakBetween_eq (s : Source) (a b : Nat) :
    s.breakBetween a b = hasBreak (Text.slice s.text.toList a b) := by
  by_cases hab : a < b
  · simp [breakBetween, gapText, hasBreak, Text.slice, hab]
  · have hnil : Text.slice s.text.toList a b = [] := by
      rcases Nat.eq_or_lt_of_le (Nat.not_lt.1 hab) with rfl | hlt
      · exact Text.slice_self _ _
      · simp [Text.slice, Text.cut?, Nat.not_le.2 hlt]
    simp [breakBetween, hab, hnil]

theorem hasBreak_of_breakBetween {a b : Nat} (h : s.breakBetween a b = true) :
    hasBreak (Text.slice s.text.toList a b) = true := by
  rwa [← breakBetween_eq]

namespace WellFormed

/-- Code tokens are no line comments. -/
theorem kind_ne_of_token (h : s.WellFormed) {t : Token} (ht : t ∈ s.tokens.toList) :
    t.kind ≠ .lineComment := by
  intro hkind
  have hcode := h.isCode t ht
  simp [Token.isComment, Token.Kind.isComment, hkind] at hcode

/-- Nothing is owed where a code token starts or ends. -/
theorem settled (h : s.WellFormed) (hlines : s.LinesEnd) {n : Nat} (hn : s.Edge n) :
    s.Settled n := by
  obtain ⟨t, ht, rfl | rfl⟩ := hn
  · refine ⟨h.joint_start (mem_lexemes_of_token ht), fun c hc hkind hle hnone => ?_⟩
    exact hasBreak_of_breakBetween (hlines c hc hkind t (mem_lexemes_of_token ht) hle hnone)
  · refine ⟨h.joint_stop (mem_lexemes_of_token ht), fun c hc hkind hle hnone => ?_⟩
    -- the token itself stands between the comment and its end
    exfalso
    rcases h.lexemes_inOrder.trichotomy hc (mem_lexemes_of_token ht) with hbefore | rfl | hafter
    · have hmem : t ∈ s.lexemesIn c.span.stop t.span.stop :=
        mem_lexemesIn.2 ⟨mem_lexemes_of_token ht, hbefore, Nat.le_refl _⟩
      simp [hnone] at hmem
    · exact h.kind_ne_of_token ht hkind
    · have hne := h.nonempty hc
      simp only [Token.Precedes] at hafter
      omega

/-- **A piece between joints is lined**, and nothing is owed at its end if the end is settled. -/
theorem lined_slice (h : s.WellFormed) (hlines : s.LinesEnd) {owed : Bool} {a b : Nat}
    (hab : a ≤ b) (ha : s.Joint a) (hb : s.Joint b)
    (howed : owed = true → ∃ c ∈ s.lexemes, c.kind = .lineComment ∧ c.span.stop = a) :
    ∃ owed', Lined s.Gap owed ((s.lexemesIn a b).map Token.word) (Text.slice s.text.toList a b)
      owed' ∧ (s.Settled b → owed' = false) := by
  -- by induction on the lexemes of the piece, which its first lexeme cuts in three
  generalize hall : s.lexemesIn a b = all
  induction all generalizing a owed with
  | nil =>
      refine ⟨_, .nil fun c hc => gap_of_mem_slice ha hb hall hc, fun hsettled => ?_⟩
      cases owed with
      | false => rfl
      | true =>
          obtain ⟨c, hc, hkind, rfl⟩ := howed rfl
          rw [hsettled.settled c hc hkind hab hall]
          rfl
  | cons t rest ih =>
      obtain ⟨ht, hstart, hstop, hbefore, hafter⟩ := h.lexemesIn_cons hall
      obtain ⟨owed', hrest, hend⟩ := ih hstop (h.joint_stop ht)
        (fun hline : t.word.isLine = true => ⟨t, ht, Token.kind_of_isLine hline, rfl⟩) hafter
      have hgap : ∀ c ∈ Text.slice s.text.toList a t.span.start, s.Gap c := fun c hc =>
        gap_of_mem_slice ha (h.joint_start ht) hbefore hc
      rw [h.slice_cons ha hb hall]
      refine ⟨owed', .cons (w := t.word) hgap ?_ hrest, hend⟩
      intro hnow
      obtain ⟨c, hc, hkind, rfl⟩ := howed hnow
      exact hasBreak_of_breakBetween (hlines c hc hkind t ht hstart hbefore)

end WellFormed

end Source

end Pare
