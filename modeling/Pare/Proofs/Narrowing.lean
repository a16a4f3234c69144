import Pare.Proofs.Repair

/-!
**Lexemes joined anew, with narrower gaps.**

The value that takes the place of a block is written anew, lexeme by lexeme, and each gap becomes
shorter: a blank, or what it was before.  This module follows the loop that does so and says what is
left of each gap.  A gap is not closed and none is opened, so no two lexemes fuse.  A line break is
kept after a line comment, which it ends, and in a value with nested functions or classes, where it
may end a statement.  All that is asked of the new text follows from what is left of the gaps: it is
the lexemes with gaps, it holds no more than the old text, and no line comment swallows what comes
after it.

Main definitions:

* `Pare.Narrowed` — what is left of the gap between two neighbours;
* `Pare.Joined` — a text that is the tokens of a list, with a gap between each two neighbours;
* `Pare.Context.HoldsStatements` — nested functions or classes are in a value.

Main results:

* `Pare.gapBetween_narrows` — what is written between two neighbours is what should be left;
* `Pare.joinItems_joins` — the loop writes every token as it is, and narrows every gap;
* `Pare.Joined.laid`, `Pare.Joined.ink_le`, `Pare.Joined.lined` — **what follows for the text**;
* `Pare.hasStatements_answers` — what the search for nested functions and classes tells.
-/

set_option relaxedAutoImplicit false
set_option autoImplicit false

namespace Pare

open Text (ink hasBreak slice)

variable {ctx : Context}

/-! ### Gaps -/

/-- What is left of the gap between two neighbours: it is closed only if it was, and a line ends in
it exactly if one did and the break is to be kept, after a line comment or everywhere. -/
structure Narrowed (s : Source) (keeps : Prop) (a b : Token) (gap : List Char) : Prop where
  nil_iff : gap = [] ↔ slice s.text.toList a.span.stop b.span.start = []
  hasBreak_iff : hasBreak gap = true ↔
    hasBreak (slice s.text.toList a.span.stop b.span.start) = true ∧
      (a.kind = .lineComment ∨ keeps)
  eq : gap = [] ∨ gap = [' '] ∨ gap = slice s.text.toList a.span.stop b.span.start

/-- A text that is the tokens of a list as they are, with a gap between each two neighbours. -/
inductive Joined (gaps : Token → Token → List Char → Prop) : List Token → List Char → Prop where
  | single (t : Token) : Joined gaps [t] t.value.toList
  | cons {t u : Token} {rest : List Token} {gap text : List Char} (hgap : gaps t u gap)
      (hrest : Joined gaps (u :: rest) text) :
      Joined gaps (t :: u :: rest) (t.value.toList ++ gap ++ text)

/-- What is written between two neighbours is what should be left of the gap. -/
theorem gapBetween_narrows (h : ctx.source.WellFormed) {keepBreaks : Bool} {keeps : Prop}
    (hkeeps : keepBreaks = true ↔ keeps) {a b : Token} (ha : a ∈ ctx.source.lexemes)
    (hb : b ∈ ctx.source.lexemes) (hab : a.Precedes b) :
    Succeeds (gapBetween ctx keepBreaks a b) fun text =>
      Narrowed ctx.source keeps a b text.toList := by
  have hstop := (h.joint_stop ha).boundary
  have hstart := (h.joint_start hb).boundary
  rw [gapBetween, Span.ofBounds_of_le hab, ok_bind]
  split
  · -- the neighbours touch
    rename_i hempty
    have hsame : a.span.stop = b.span.start := by simpa [Span.isEmpty] using hempty
    refine succeeds_pure ⟨?_, ?_, .inl rfl⟩
    · simp [hsame]
    · simp [hsame]
  rename_i hopen
  have hlt : a.span.stop < b.span.start :=
    Nat.lt_of_le_of_ne hab (by simpa [Span.isEmpty] using hopen)
  have hne := slice_ne_nil hstop hstart hlt
  have hkept : (ctx.source.breakBetween a.span.stop b.span.start &&
      (keepBreaks || a.kind == .lineComment)) = true ↔
        hasBreak (slice ctx.source.text.toList a.span.stop b.span.start) = true ∧
          (a.kind = .lineComment ∨ keeps) := by
    rw [Source.breakBetween_eq, Bool.and_eq_true, Bool.or_eq_true, hkeeps, beq_iff_eq, or_comm]
  split
  · rename_i hkeep
    refine succeeds_pure ?_
    rw [Source.slice, Text.excerpt, String.toList_ofList]
    exact ⟨Iff.rfl, iff_of_true (hkept.1 hkeep).1 (hkept.1 hkeep), .inr (.inr rfl)⟩
  · rename_i hspace
    refine succeeds_pure ⟨?_, ?_, .inr (.inl rfl)⟩
    · exact iff_of_false (by decide) hne
    · exact iff_of_false (by decide) fun hkeep => hspace (hkept.2 hkeep)

/-! ### The loop -/

/-- The tokens after one that is written already are joined to it. -/
theorem joinAfter_joins (h : ctx.source.WellFormed) {keepBreaks : Bool} {keeps : Prop}
    (hkeeps : keepBreaks = true ↔ keeps) {previous : Token} {rest : List Token} {stop : Nat}
    (hprevious : previous ∈ ctx.source.lexemes)
    (hall : ctx.source.lexemesIn previous.span.stop stop = rest) :
    Succeeds (joinAfter ctx keepBreaks previous rest) fun text =>
      Joined (Narrowed ctx.source keeps) (previous :: rest)
        (previous.value.toList ++ text.toList) := by
  -- by induction on the tokens that are left, each of which becomes the previous one
  induction rest generalizing previous with
  | nil => exact succeeds_pure (by simpa using .single previous)
  | cons item rest ih =>
      obtain ⟨hitem, hafter, -, -, hrest⟩ := h.lexemesIn_cons hall
      rw [joinAfter]
      refine (gapBetween_narrows h hkeeps hprevious hitem hafter).bind fun gap hgap => ?_
      refine (ih hitem hrest).bind fun tail htail => succeeds_pure ?_
      rw [String.toList_append, String.toList_append, List.append_assoc, ← List.append_assoc]
      exact .cons hgap htail

/-- The tokens of a piece are written as they are, and every gap between them is narrowed. -/
theorem joinItems_joins (h : ctx.source.WellFormed) {keepBreaks : Bool} {keeps : Prop}
    (hkeeps : keepBreaks = true ↔ keeps) {first : Token} {rest : List Token} {start stop : Nat}
    (hall : ctx.source.lexemesIn start stop = first :: rest) :
    Succeeds (joinItems ctx keepBreaks (first :: rest)) fun text =>
      Joined (Narrowed ctx.source keeps) (first :: rest) text.toList := by
  obtain ⟨hfirst, -, -, -, hrest⟩ := h.lexemesIn_cons hall
  rw [joinItems]
  refine (joinAfter_joins h hkeeps hfirst hrest).bind fun tail htail => succeeds_pure ?_
  rw [String.toList_append]
  exact htail

/-! ### The text -/

namespace Narrowed

variable {s : Source} {keeps : Prop} {a b : Token} {gap : List Char}

/-- What is left of a gap may stand in a gap. -/
theorem gap_of_mem (hgap : Narrowed s keeps a b gap) (h : s.WellFormed) (ha : a ∈ s.lexemes)
    (hb : b ∈ s.lexemes) (hnone : s.lexemesIn a.span.stop b.span.start = []) :
    ∀ c ∈ gap, s.Gap c := by
  intro c hc
  rcases hgap.eq with rfl | rfl | rfl
  · simp at hc
  · exact .inl (List.mem_singleton.1 hc)
  · exact Source.gap_of_mem_slice (h.joint_stop ha) (h.joint_start hb) hnone hc

theorem ink_le (hgap : Narrowed s keeps a b gap) :
    ink gap ≤ ink (slice s.text.toList a.span.stop b.span.start) := by
  have hspace : ink [' '] = 0 := by decide +kernel
  rcases hgap.eq with rfl | rfl | rfl
  · exact Nat.zero_le _
  · rw [hspace]
    exact Nat.zero_le _
  · exact Nat.le_refl _

/-- A line comment keeps the break after it. -/
theorem hasBreak_of_isLine (hgap : Narrowed s keeps a b gap) (hlines : s.LinesEnd)
    (ha : a ∈ s.lexemes) (hb : b ∈ s.lexemes) (hab : a.Precedes b)
    (hnone : s.lexemesIn a.span.stop b.span.start = []) (hline : a.word.isLine = true) :
    hasBreak gap = true := by
  have hkind := Token.kind_of_isLine hline
  have hends := Source.hasBreak_of_breakBetween (hlines a ha hkind b hb hab hnone)
  exact hgap.hasBreak_iff.2 ⟨hends, .inl hkind⟩

end Narrowed

namespace Joined

variable {s : Source} {keeps : Prop} {items : List Token} {text : List Char} {start stop : Nat}

/-- The text is the lexemes with gaps. -/
theorem laid (hjoined : Joined (Narrowed s keeps) items text) (h : s.WellFormed)
    (hall : s.lexemesIn start stop = items) : Laid s.Gap (items.map Token.value) text := by
  induction hjoined generalizing start with
  | single t => exact .word t.value
  | cons hgap _ ih =>
      obtain ⟨ht, -, -, -, hrest⟩ := h.lexemesIn_cons hall
      obtain ⟨hu, -, -, hnone, -⟩ := h.lexemesIn_cons hrest
      rw [List.append_assoc]
      exact (Laid.word _).append ((ih hrest).gap_append (hgap.gap_of_mem h ht hu hnone))

/-- The text holds no more than the old one. -/
theorem ink_le (hjoined : Joined (Narrowed s keeps) items text) (h : s.WellFormed)
    (hstart : s.Joint start) (hstop : s.Joint stop) (hall : s.lexemesIn start stop = items) :
    ink text ≤ ink (slice s.text.toList start stop) := by
  induction hjoined generalizing start with
  | single t =>
      obtain ⟨-, hafter, hend, -⟩ := h.lexemesIn_cons hall
      have hle := t.span.start_le_stop
      simpa [hall] using h.ink_lexemes_le (show start ≤ stop by omega) hstart hstop
  | @cons t u rest gap text hgap _ ih =>
      obtain ⟨ht, hafter, -, -, hrest⟩ := h.lexemesIn_cons hall
      obtain ⟨hu, hbetween, hend, hnone, -⟩ := h.lexemesIn_cons hrest
      have hagain : s.lexemesIn u.span.start stop = u :: rest := by
        have hle := u.span.start_le_stop
        rw [← hrest, h.lexemesIn_append (h.joint_start hu) hbetween (by omega), hnone,
          List.nil_append]
      -- the old text is cut where the first lexeme starts and ends and where the second starts
      have hj := (h.joint_start ht).boundary
      have hk := (h.joint_stop ht).boundary
      have hl := (h.joint_start hu).boundary
      have hle := t.span.start_le_stop
      have hle' := u.span.start_le_stop
      have hink := ih (h.joint_start hu) hagain
      have hinkGap := hgap.ink_le
      rw [← Text.ink_slice_add hstart.boundary hj hstop.boundary hafter (by omega),
        ← Text.ink_slice_add hj hk hstop.boundary hle (by omega),
        ← Text.ink_slice_add hk hl hstop.boundary hbetween (by omega), h.ink_lexeme ht,
        Text.ink_append, Text.ink_append]
      omega

/-- In the text a line ends after every line comment, if there is one to follow each. -/
theorem lined (hjoined : Joined (Narrowed s keeps) items text) (h : s.WellFormed)
    (hall : s.lexemesIn start stop = items) (hlines : s.LinesEnd)
    (hlast : ∀ t, items.getLast? = some t → t.kind ≠ .lineComment) :
    Lined s.Gap false (items.map Token.word) text false := by
  induction hjoined generalizing start with
  | single t =>
      have hplain : t.word.isLine = false :=
        Bool.eq_false_iff.2 fun hline => hlast t rfl (Token.kind_of_isLine hline)
      have hword := Lined.word (G := s.Gap) t.word
      rw [hplain] at hword
      exact hword
  | @cons t u rest gap text hgap _ ih =>
      obtain ⟨ht, -, -, -, hrest⟩ := h.lexemesIn_cons hall
      obtain ⟨hu, hbetween, -, hnone, -⟩ := h.lexemesIn_cons hrest
      rw [List.getLast?_cons_cons] at hlast
      rw [List.append_assoc]
      refine .word_append (w := t.word) (.gap_append (hgap.gap_of_mem h ht hu hnone) ?_)
      have hpaid : (t.word.isLine && !hasBreak gap) = false := by
        cases hline : t.word.isLine with
        | false => rfl
        | true => simp [hgap.hasBreak_of_isLine hlines ht hu hbetween hnone hline]
      rw [hpaid]
      exact ih hrest hlast

end Joined

/-! ### Nested statements -/

/-- The value holds nested functions or classes: the word `class` is among its lexemes, or a block
is below it. -/
def Context.HoldsStatements (ctx : Context) (argument : NodeId) (items : List Token) : Prop :=
  (∃ t ∈ items, t.isWord "class" = true) ∨
    ∃ id body, ctx.tree.IsBelow argument id ∧ ctx.kind id = .ok (.block body)

theorem hasStatements_answers (h : ctx.Shaped) {argument : NodeId} {node : Node}
    (hnode : ctx.tree.nodes[argument]? = some node) (items : List Token) :
    Answers (hasStatements ctx argument items) (ctx.HoldsStatements argument items) := by
  rw [hasStatements]
  split
  · rename_i hclass
    exact answers_pure (iff_of_true rfl (.inl (List.any_eq_true.1 hclass)))
  · rename_i hclass
    rw [h.ranked.descendants_eq_ok (Tree.lt_size hnode), ok_bind]
    refine (answers_anyM (P := fun id => ∃ body, ctx.kind id = .ok (.block body))
      fun id hid => ?_).congr ?_
    · obtain ⟨inner, hinner⟩ :=
        Tree.exists_node (h.ranked.lt_size_of_mem_preorder (Tree.lt_size hnode) hid)
      rw [Context.kind_eq_ok hinner, ok_bind]
      split
      · rename_i body hblock
        exact answers_pure (iff_of_true rfl ⟨body, congrArg Except.ok hblock⟩)
      · rename_i hother
        exact answers_false (by simpa using hother)
    · rw [List.any_eq_true] at hclass
      simp only [Context.HoldsStatements, hclass, false_or, h.ranked.mem_preorder_iff,
        ← exists_and_left]

end Pare
