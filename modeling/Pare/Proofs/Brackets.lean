import Mathlib.Data.List.Basic
import Mathlib.Tactic.SplitIfs
import Pare.Proofs.WellFormed

/-!
**Brackets that match.**

Parentheses, square brackets and braces are read with a stack: an opening bracket puts the bracket
that closes it on the stack, a closing bracket must be the one on top, and all other words leave the
stack alone.  Words match if they leave nothing on an empty stack.  What is on the stack in the
middle of matching words are the pairs around that place, so a place is in brackets exactly if the
stack is not empty there.  This module also says when the words of a text may be replaced one by one
without a pair being torn apart.

Main definitions:

* `Pare.Word.closer?`, `Pare.Word.IsPlain` — the bracket that closes a word, and words that are no
  brackets;
* `Pare.pending` — the brackets that are due after some words;
* `Pare.Matched` — words whose brackets match;
* `Pare.InBrackets` — a place with a pair of brackets around it;
* `Pare.KeepsPairs` — what becomes of lexemes when pairs stay or go as a whole;
* `Pare.Context.Bracketed` — the brackets of every node match.

Main results:

* `Pare.matched_remove` — matching words can be taken out of the middle of others;
* `Pare.exists_close`, `Pare.exists_open` — the bracket that is due is closed later, and was opened
  before;
* `Pare.Matched.cons_cases` — matching words start with a plain word or with a pair;
* `Pare.Matched.inBrackets_or` — a place in matching words is in brackets, or the words on both
  sides match by themselves;
* `Pare.KeepsPairs.matched_flatMap` — **what matched still matches when pairs stay or go as a
  whole**;
* `Pare.Context.Bracketed.matched_node`, `Pare.Context.Bracketed.matched_grouped`,
  `Pare.Context.Bracketed.matched_braced` — the lexemes of a node match, and those between the
  parentheses around it or the braces of it.
-/

set_option relaxedAutoImplicit false
set_option autoImplicit false

namespace Pare

/-! ### Brackets -/

namespace Word

/-- The bracket that closes this one; only opening brackets have one. -/
def closer? (w : Word) : Option Word :=
  if w = ⟨.punctuator, "("⟩ then some ⟨.punctuator, ")"⟩
  else if w = ⟨.punctuator, "["⟩ then some ⟨.punctuator, "]"⟩
  else if w = ⟨.punctuator, "\x7b"⟩ then some ⟨.punctuator, "\x7d"⟩
  else none

/-- The word is a closing bracket. -/
def IsCloser (w : Word) : Prop :=
  w = ⟨.punctuator, ")"⟩ ∨ w = ⟨.punctuator, "]"⟩ ∨ w = ⟨.punctuator, "\x7d"⟩

instance (w : Word) : Decidable w.IsCloser := inferInstanceAs (Decidable (_ ∨ _))

/-- The word is no bracket. -/
def IsPlain (w : Word) : Prop := w.closer? = none ∧ ¬ w.IsCloser

instance (w : Word) : Decidable w.IsPlain := inferInstanceAs (Decidable (_ ∧ _))

variable {w c : Word}

/-- There are three pairs of brackets. -/
theorem closer?_eq_some (h : w.closer? = some c) :
    w = ⟨.punctuator, "("⟩ ∧ c = ⟨.punctuator, ")"⟩ ∨
      w = ⟨.punctuator, "["⟩ ∧ c = ⟨.punctuator, "]"⟩ ∨
        w = ⟨.punctuator, "\x7b"⟩ ∧ c = ⟨.punctuator, "\x7d"⟩ := by
  unfold closer? at h
  split_ifs at h with hparen hsquare hbrace
  · exact .inl ⟨hparen, (Option.some.inj h).symm⟩
  · exact .inr (.inl ⟨hsquare, (Option.some.inj h).symm⟩)
  · exact .inr (.inr ⟨hbrace, (Option.some.inj h).symm⟩)

theorem isCloser_of_closer? (h : w.closer? = some c) : c.IsCloser := by
  obtain ⟨-, rfl⟩ | ⟨-, rfl⟩ | ⟨-, rfl⟩ := closer?_eq_some h <;> decide

theorem IsCloser.closer? (h : w.IsCloser) : w.closer? = none := by
  obtain rfl | rfl | rfl := h <;> decide

/-- Only punctuators are brackets. -/
theorem isPlain_of_kind (h : w.kind ≠ .punctuator) : w.IsPlain := by
  refine ⟨?_, ?_⟩
  · rcases hc : w.closer? with _ | c
    · rfl
    · obtain ⟨rfl, -⟩ | ⟨rfl, -⟩ | ⟨rfl, -⟩ := closer?_eq_some hc <;> exact absurd rfl h
  · rintro (rfl | rfl | rfl) <;> exact h rfl

end Word

/-! ### The stack -/

/-- The brackets that are due after one more word; none if the word closes another bracket than the
one that is due next. -/
def turn (due : List Word) (w : Word) : Option (List Word) :=
  match w.closer? with
  | some c => some (c :: due)
  | none =>
      if w.IsCloser then
        match due with
        | c :: rest => if c = w then some rest else none
        | [] => none
      else some due

/-- The brackets that are due after some words. -/
def pending (due : List Word) : List Word → Option (List Word)
  | [] => some due
  | w :: ws => (turn due w).bind fun due => pending due ws

/-- The brackets among some words match. -/
def Matched (ws : List Word) : Prop := pending [] ws = some []

instance (ws : List Word) : Decidable (Matched ws) := inferInstanceAs (Decidable (_ = _))

variable {w o c d : Word} {due rest ws vs front mid back more : List Word}

theorem turn_of_closer? (h : o.closer? = some c) : turn due o = some (c :: due) := by
  simp only [turn, h]

theorem turn_of_isPlain (h : w.IsPlain) : turn due w = some due := by
  simp only [turn, h.1, h.2, if_false]

theorem turn_of_isCloser (h : w.IsCloser) : turn (w :: due) w = some due := by
  simp only [turn, h.closer?, h, if_true]

theorem turn_nil_of_isCloser (h : w.IsCloser) : turn [] w = none := by
  simp only [turn, h.closer?, h, if_true]

/-- A word opens a bracket, or closes the one that is due, or leaves the stack alone. -/
theorem turn_eq_some (h : turn due w = some rest) :
    (∃ c, w.closer? = some c ∧ rest = c :: due) ∨ (w.IsCloser ∧ due = w :: rest) ∨
      (w.IsPlain ∧ rest = due) := by
  unfold turn at h
  rcases hc : w.closer? with _ | c
  · rw [hc] at h
    dsimp only at h
    split at h
    · rename_i hcloser
      cases due with
      | nil => cases h
      | cons c due =>
          dsimp only at h
          split at h
          · rename_i heq
            exact .inr (.inl ⟨hcloser, by rw [heq, Option.some.inj h]⟩)
          · cases h
    · rename_i hcloser
      exact .inr (.inr ⟨⟨hc, hcloser⟩, (Option.some.inj h).symm⟩)
  · rw [hc] at h
    exact .inl ⟨c, rfl, (Option.some.inj h).symm⟩

@[simp] theorem pending_nil (due : List Word) : pending due [] = some due := rfl

theorem pending_cons (due : List Word) (w : Word) (ws : List Word) :
    pending due (w :: ws) = (turn due w).bind fun due => pending due ws := rfl

theorem pending_cons_of_closer? (h : o.closer? = some c) (due ws : List Word) :
    pending due (o :: ws) = pending (c :: due) ws := by
  rw [pending_cons, turn_of_closer? h, Option.bind_some]

theorem pending_cons_of_isPlain (h : w.IsPlain) (due ws : List Word) :
    pending due (w :: ws) = pending due ws := by
  rw [pending_cons, turn_of_isPlain h, Option.bind_some]

theorem pending_cons_of_isCloser (h : w.IsCloser) (due ws : List Word) :
    pending (w :: due) (w :: ws) = pending due ws := by
  rw [pending_cons, turn_of_isCloser h, Option.bind_some]

theorem pending_append (due ws vs : List Word) :
    pending due (ws ++ vs) = (pending due ws).bind fun due => pending due vs := by
  induction ws generalizing due with
  | nil => rfl
  | cons w ws ih =>
      rw [List.cons_append, pending_cons, pending_cons]
      cases turn due w with
      | none => rfl
      | some next => exact ih next

theorem turn_frame (h : turn due w = some rest) (more : List Word) :
    turn (due ++ more) w = some (rest ++ more) := by
  obtain ⟨c, hc, rfl⟩ | ⟨hcloser, rfl⟩ | ⟨hplain, rfl⟩ := turn_eq_some h
  · exact turn_of_closer? hc
  · exact turn_of_isCloser hcloser
  · exact turn_of_isPlain hplain

/-- What lies deeper on the stack makes no difference. -/
theorem pending_frame (h : pending due ws = some rest) (more : List Word) :
    pending (due ++ more) ws = some (rest ++ more) := by
  induction ws generalizing due with
  | nil =>
      obtain rfl := Option.some.inj h
      rfl
  | cons w ws ih =>
      obtain ⟨next, hturn, hrest⟩ := Option.bind_eq_some_iff.1 h
      rw [pending_cons, turn_frame hturn more]
      exact ih hrest

/-! ### Words whose brackets match -/

namespace Matched

/-- Matching words leave every stack alone. -/
theorem pending_eq (h : Matched ws) (due : List Word) : pending due ws = some due :=
  pending_frame h due

theorem nil : Matched [] := rfl

theorem append (h : Matched ws) (h' : Matched vs) : Matched (ws ++ vs) := by
  rw [Matched, pending_append, h, Option.bind_some]
  exact h'

/-- A plain word by itself. -/
theorem plain (h : w.IsPlain) : Matched [w] := by
  rw [Matched, pending_cons_of_isPlain h, pending_nil]

/-- Matching words with a pair of brackets around them. -/
theorem pair (h : o.closer? = some c) (hws : Matched ws) : Matched (o :: ws ++ [c]) := by
  have hclose := pending_cons_of_isCloser (Word.isCloser_of_closer? h) [] []
  rw [Matched, List.cons_append, pending_cons_of_closer? h, pending_append, hws.pending_eq,
    Option.bind_some, hclose, pending_nil]

end Matched

/-- Matching words can be taken out of the middle of others. -/
theorem matched_remove (h : Matched mid) :
    Matched (front ++ mid ++ back) ↔ Matched (front ++ back) := by
  rw [Matched, Matched, pending_append, pending_append, pending_append]
  rcases pending [] front with _ | due
  · rfl
  · simp only [Option.bind_some, h.pending_eq]

/-- A plain word can be taken out of the middle of others. -/
theorem matched_append_cons (h : w.IsPlain) :
    Matched (front ++ w :: back) ↔ Matched (front ++ back) := by
  have hremove : Matched (front ++ [w] ++ back) ↔ Matched (front ++ back) :=
    matched_remove (Matched.plain h)
  rwa [List.append_assoc, List.singleton_append] at hremove

/-- A bracket that is due is closed after words that match. -/
theorem exists_close (h : pending (c :: due) ws = some []) :
    ∃ inner more, ws = inner ++ c :: more ∧ Matched inner ∧ pending due more = some [] := by
  -- by induction on the length, for after an inner pair the rest is looked at again
  induction hn : ws.length using Nat.strongRecOn generalizing c due ws with
  | ind n ih =>
      cases ws with
      | nil => cases h
      | cons w ws =>
          obtain ⟨next, hturn, hrest⟩ := Option.bind_eq_some_iff.1 h
          obtain ⟨k, hk, rfl⟩ | ⟨-, heq⟩ | ⟨hplain, rfl⟩ := turn_eq_some hturn
          · obtain ⟨inner, more, rfl, hinner, hmore⟩ :=
              ih ws.length (by simp [← hn]) hrest rfl
            have hshort : more.length < n := by
              simp only [List.length_cons, List.length_append] at hn
              omega
            obtain ⟨inner', more', rfl, hinner', hmore'⟩ := ih more.length hshort hmore rfl
            refine ⟨w :: inner ++ [k] ++ inner', more', by simp, ?_, hmore'⟩
            exact (Matched.pair hk hinner).append hinner'
          · obtain ⟨rfl, rfl⟩ := List.cons.inj heq
            exact ⟨[], ws, rfl, Matched.nil, hrest⟩
          · obtain ⟨inner, more, rfl, hinner, hmore⟩ :=
              ih ws.length (by simp [← hn]) hrest rfl
            exact ⟨w :: inner, more, rfl, (Matched.plain hplain).append hinner, hmore⟩

/-- A bracket that is due was opened before, and the words since then match. -/
theorem exists_open (h : pending [] ws = some (c :: due)) :
    ∃ outer o inner, ws = outer ++ o :: inner ∧ o.closer? = some c ∧ Matched inner ∧
      pending [] outer = some due := by
  -- by induction on the length, for before an inner pair the front is looked at again
  induction hn : ws.length using Nat.strongRecOn generalizing c due ws with
  | ind n ih =>
      rcases List.eq_nil_or_concat' ws with rfl | ⟨ws, w, rfl⟩
      · cases h
      · rw [pending_append] at h
        obtain ⟨before, hbefore, hlast⟩ := Option.bind_eq_some_iff.1 h
        rw [pending_cons, Option.bind_eq_some_iff] at hlast
        obtain ⟨next, hturn, hnext⟩ := hlast
        obtain rfl := Option.some.inj hnext
        obtain ⟨k, hk, heq⟩ | ⟨-, rfl⟩ | ⟨hplain, rfl⟩ := turn_eq_some hturn
        · obtain ⟨rfl, rfl⟩ := List.cons.inj heq
          exact ⟨ws, w, [], rfl, hk, Matched.nil, hbefore⟩
        · obtain ⟨outer, o, inner, rfl, ho, hinner, houter⟩ :=
            ih ws.length (by simp [← hn]) hbefore rfl
          obtain ⟨outer', o', inner', rfl, ho', hinner', houter'⟩ :=
            ih outer.length (by simp [← hn]) houter rfl
          refine ⟨outer', o', inner' ++ (o :: inner ++ [w]), by simp, ho', ?_, houter'⟩
          exact hinner'.append (Matched.pair ho hinner)
        · obtain ⟨outer, o, inner, rfl, ho, hinner, houter⟩ :=
            ih ws.length (by simp [← hn]) hbefore rfl
          refine ⟨outer, o, inner ++ [w], by simp, ho, ?_, houter⟩
          exact hinner.append (Matched.plain hplain)

/-- Matching words start with a plain word or with a pair of brackets. -/
theorem Matched.cons_cases (h : Matched (w :: ws)) :
    (w.IsPlain ∧ Matched ws) ∨ ∃ c inner more, w.closer? = some c ∧ ws = inner ++ c :: more ∧
      Matched inner ∧ Matched more := by
  obtain ⟨next, hturn, hrest⟩ := Option.bind_eq_some_iff.1 h
  obtain ⟨c, hc, rfl⟩ | ⟨-, heq⟩ | ⟨hplain, rfl⟩ := turn_eq_some hturn
  · obtain ⟨inner, more, rfl, hinner, hmore⟩ := exists_close hrest
    exact .inr ⟨c, inner, more, hc, rfl, hinner, hmore⟩
  · cases heq
  · exact .inl ⟨hplain, hrest⟩

/-- Behind matching words no closing bracket is due. -/
theorem Matched.not_append_closer (h : Matched ws) (hc : c.IsCloser) :
    ¬ Matched (ws ++ c :: more) := by
  intro hall
  rw [Matched, pending_append, h, Option.bind_some, pending_cons, turn_nil_of_isCloser hc] at hall
  cases hall

/-- In front of matching words every opening bracket stays due. -/
theorem Matched.not_append_opener (h : Matched ws) (ho : o.closer? = some c) :
    ¬ Matched (more ++ o :: ws) := by
  intro hall
  rw [Matched, pending_append] at hall
  obtain ⟨due, -, hrest⟩ := Option.bind_eq_some_iff.1 hall
  rw [pending_cons_of_closer? ho, h.pending_eq] at hrest
  cases hrest

/-- Words that match up to a closing bracket match nowhere else up to one. -/
theorem Matched.eq_of_append_closer (h : Matched ws) (h' : Matched vs) (hc : c.IsCloser)
    (hd : d.IsCloser) (heq : ws ++ c :: front = vs ++ d :: back) : ws = vs := by
  rcases List.append_eq_append_iff.1 heq with ⟨more, rfl, hmore⟩ | ⟨more, rfl, hmore⟩
  · cases more with
    | nil => exact (List.append_nil ws).symm
    | cons e more =>
        obtain ⟨rfl, -⟩ := List.cons.inj hmore
        exact absurd h' (h.not_append_closer hc)
  · cases more with
    | nil => exact List.append_nil vs
    | cons e more =>
        obtain ⟨rfl, -⟩ := List.cons.inj hmore
        exact absurd h (h'.not_append_closer hd)

/-- Words that match from an opening bracket on match from no other one on. -/
theorem Matched.eq_of_append_opener (h : Matched ws) (h' : Matched vs) (ho : o.closer? = some c)
    (hw : w.closer? = some d) (heq : front ++ o :: ws = back ++ w :: vs) : ws = vs := by
  rcases List.append_eq_append_iff.1 heq with ⟨more, rfl, hmore⟩ | ⟨more, rfl, hmore⟩
  · cases more with
    | nil => exact (List.cons.inj hmore).2
    | cons e more =>
        obtain ⟨rfl, rfl⟩ := List.cons.inj hmore
        exact absurd h (h'.not_append_opener hw)
  · cases more with
    | nil => exact (List.cons.inj hmore).2.symm
    | cons e more =>
        obtain ⟨rfl, rfl⟩ := List.cons.inj hmore
        exact absurd h' (h.not_append_opener ho)

/-! ### Places in brackets -/

/-- Between the words in front and the words behind is a place with a pair of brackets around
it. -/
def InBrackets (front back : List Word) : Prop :=
  ∃ outer o left right c more, front = outer ++ o :: left ∧ back = right ++ c :: more ∧
    o.closer? = some c ∧ Matched (left ++ right)

/-- Matching words around a place either match on each side or have a pair of brackets around
it. -/
theorem Matched.inBrackets_or (h : Matched (front ++ back)) :
    (Matched front ∧ Matched back) ∨ InBrackets front back := by
  rw [Matched, pending_append] at h
  obtain ⟨due, hfront, hback⟩ := Option.bind_eq_some_iff.1 h
  cases due with
  | nil => exact .inl ⟨hfront, hback⟩
  | cons c due =>
      obtain ⟨outer, o, left, rfl, ho, hleft, -⟩ := exists_open hfront
      obtain ⟨right, more, rfl, hright, -⟩ := exists_close hback
      exact .inr ⟨outer, o, left, right, c, more, rfl, rfl, ho, hleft.append hright⟩

/-- A place between words that match by themselves is not in brackets. -/
theorem Matched.not_inBrackets (h : Matched front) : ¬ InBrackets front back := by
  rintro ⟨outer, o, left, right, c, more, rfl, -, ho, hinner⟩
  rw [Matched, pending_append] at h hinner
  obtain ⟨due, -, hdue⟩ := Option.bind_eq_some_iff.1 h
  obtain ⟨next, hleft, -⟩ := Option.bind_eq_some_iff.1 hinner
  -- the closing bracket is still due under all that the words on the left leave
  rw [pending_cons_of_closer? ho, ← List.nil_append (c :: due), pending_frame hleft] at hdue
  simp at hdue

/-- A place in brackets stays so with more words around. -/
theorem InBrackets.surround (h : InBrackets front back) (ws vs : List Word) :
    InBrackets (ws ++ front) (back ++ vs) := by
  obtain ⟨outer, o, left, right, c, more, rfl, rfl, ho, hinner⟩ := h
  exact ⟨ws ++ outer, o, left, right, c, more ++ vs, by simp, by simp, ho, hinner⟩

/-! ### Lexemes in brackets -/

section Lexemes

variable {t : Token} {ts : List Token}

/-- Matching lexemes start with a plain one or with a pair of brackets. -/
theorem Matched.token_cases (h : Matched ((t :: ts).map Token.word)) :
    (t.word.IsPlain ∧ Matched (ts.map Token.word)) ∨ ∃ inner close more,
      ts = inner ++ close :: more ∧ t.word.closer? = some close.word ∧
        Matched (inner.map Token.word) ∧ Matched (more.map Token.word) := by
  rw [List.map_cons] at h
  obtain hplain | ⟨c, ws, vs, hc, hts, hws, hvs⟩ := h.cons_cases
  · exact .inl hplain
  · obtain ⟨inner, rest, rfl, rfl, hrest⟩ := List.map_eq_append_iff.1 hts
    obtain ⟨close, more, rfl, rfl, rfl⟩ := List.map_eq_cons_iff.1 hrest
    exact .inr ⟨inner, close, more, rfl, hc, hws, hvs⟩

/-- A place among lexemes that is in brackets is between two of them. -/
theorem InBrackets.exists_tokens {front back : List Token}
    (h : InBrackets (front.map Token.word) (back.map Token.word)) :
    ∃ outer o left right c more, front = outer ++ o :: left ∧ back = right ++ c :: more ∧
      o.word.closer? = some c.word ∧ Matched ((left ++ right).map Token.word) := by
  obtain ⟨outer, o, left, right, c, more, hfront, hback, hc, hinner⟩ := h
  obtain ⟨outer, rest, rfl, -, hrest⟩ := List.map_eq_append_iff.1 hfront
  obtain ⟨o, left, rfl, rfl, rfl⟩ := List.map_eq_cons_iff.1 hrest
  obtain ⟨right, rest', rfl, rfl, hrest'⟩ := List.map_eq_append_iff.1 hback
  obtain ⟨c, more, rfl, rfl, -⟩ := List.map_eq_cons_iff.1 hrest'
  exact ⟨outer, o, left, right, c, more, rfl, rfl, hc, by rwa [List.map_append]⟩

/-- What becomes of each lexeme, where a pair of brackets becomes a pair again or is replaced by
words that match, and what is no bracket becomes words that match. -/
structure KeepsPairs (all : List Token) (f : Token → List Word) : Prop where
  plain : ∀ t ∈ all, t.word.IsPlain → Matched (f t)
  pair : ∀ {outer inner more : List Token} {o c : Token}, all = outer ++ o :: inner ++ c :: more →
    o.word.closer? = some c.word → Matched (inner.map Token.word) →
      (Matched (f o) ∧ Matched (f c)) ∨
        ∃ o' c', f o = [o'] ∧ f c = [c'] ∧ o'.closer? = some c'

namespace KeepsPairs

variable {all outer more : List Token} {f : Token → List Word}

/-- **What matched still matches when pairs stay or go as a whole.** -/
theorem matched_flatMap (hf : KeepsPairs all f) (hall : all = outer ++ ts ++ more)
    (h : Matched (ts.map Token.word)) : Matched (ts.flatMap f) := by
  -- the first token is no bracket, or it opens a pair that parts the rest into shorter lists
  induction hn : ts.length using Nat.strongRecOn generalizing outer ts more with
  | ind n ih =>
      cases ts with
      | nil => exact Matched.nil
      | cons t ts =>
          rw [List.flatMap_cons]
          obtain ⟨hplain, hts⟩ | ⟨inner, close, rest, rfl, hpair, hinner, hrest⟩ := h.token_cases
          · have hin : t ∈ all := by simp [hall]
            have hsplit : all = outer ++ [t] ++ ts ++ more := by simp [hall]
            have htail := ih ts.length (by simp [← hn]) hsplit hts rfl
            exact (hf.plain t hin hplain).append htail
          · have hbefore : all = outer ++ [t] ++ inner ++ (close :: rest ++ more) := by simp [hall]
            have hafter : all = outer ++ t :: inner ++ [close] ++ rest ++ more := by simp [hall]
            have hsplit : all = outer ++ t :: inner ++ close :: (rest ++ more) := by simp [hall]
            have hshort : inner.length < n ∧ rest.length < n := by
              simp only [List.length_cons, List.length_append] at hn
              omega
            have hinside := ih inner.length hshort.1 hbefore hinner rfl
            have htail := ih rest.length hshort.2 hafter hrest rfl
            rw [List.flatMap_append, List.flatMap_cons]
            obtain ⟨ho, hc⟩ | ⟨o', c', ho, hc, hpair'⟩ := hf.pair hsplit hpair hinner
            · exact ho.append (hinside.append (hc.append htail))
            · rw [ho, hc]
              have hboth := (Matched.pair hpair' hinside).append htail
              simpa using hboth

/-- A pair of brackets around a place is still around it, or it is replaced by words that match. -/
theorem inBrackets_or (hf : KeepsPairs all f) {start left right rest : List Token} {o c t : Token}
    (hall : all = outer ++ (start ++ o :: left) ++ t :: (right ++ c :: rest) ++ more)
    (ht : t.word.IsPlain) (hpair : o.word.closer? = some c.word)
    (hinner : Matched ((left ++ right).map Token.word)) :
    (Matched (f o) ∧ Matched (f c)) ∨
      InBrackets ((start ++ o :: left).flatMap f) ((right ++ c :: rest).flatMap f) := by
  have hwhole : Matched ((left ++ t :: right).map Token.word) := by
    rw [List.map_append, List.map_cons, matched_append_cons ht, ← List.map_append]
    exact hinner
  have hin : t ∈ all := by simp [hall]
  have hsplit : all = outer ++ start ++ o :: (left ++ t :: right) ++ c :: (rest ++ more) := by
    simp [hall]
  have hmid : all = outer ++ start ++ [o] ++ (left ++ t :: right) ++ (c :: rest ++ more) := by
    simp [hall]
  have hinside := hf.matched_flatMap hmid hwhole
  rw [List.flatMap_append, List.flatMap_cons, ← List.append_assoc,
    matched_remove (hf.plain t hin ht)] at hinside
  obtain hgone | ⟨o', c', ho, hc, hpair'⟩ := hf.pair hsplit hpair hwhole
  · exact .inl hgone
  · refine .inr ⟨start.flatMap f, o', left.flatMap f, right.flatMap f, c', rest.flatMap f, ?_, ?_,
      hpair', hinside⟩
    · simp [ho]
    · simp [hc]

end KeepsPairs

end Lexemes

/-! ### Nodes whose brackets match -/

variable {ctx : Context}

/-- Comments are no brackets. -/
theorem Token.isPlain_of_isComment {t : Token} (h : t.isComment = true) : t.word.IsPlain := by
  refine Word.isPlain_of_kind fun hkind => ?_
  have hsign : t.kind = .punctuator := hkind
  simp [isComment, hsign, Kind.isComment] at h

theorem pending_filter (due : List Word) (ts : List Token) :
    pending due ((ts.filter fun t => !t.isComment).map Token.word) =
      pending due (ts.map Token.word) := by
  induction ts generalizing due with
  | nil => rfl
  | cons t ts ih =>
      cases hcomment : t.isComment with
      | false => simp [hcomment, pending_cons, ih]
      | true =>
          rw [List.map_cons, pending_cons_of_isPlain (Token.isPlain_of_isComment hcomment), ← ih]
          simp [hcomment]

/-- The lexemes of a piece match if its code tokens do. -/
theorem Source.WellFormed.matched_lexemesIn {s : Source} (h : s.WellFormed) {a b : Nat}
    {ts : List Token} (hts : InOrder ts)
    (hmem : ∀ t, t ∈ ts ↔ t ∈ s.tokens.toList ∧ a ≤ t.span.start ∧ t.span.stop ≤ b)
    (hmatched : Matched (ts.map Token.word)) : Matched ((s.lexemesIn a b).map Token.word) := by
  have hsame : (s.lexemesIn a b).filter (fun t => !t.isComment) = ts := by
    refine ((h.lexemesIn_inOrder a b).filter _).eq_of_mem_iff hts fun t => ?_
    rw [hmem, List.mem_filter, mem_lexemesIn, mem_lexemes, Bool.not_eq_true']
    constructor
    · rintro ⟨⟨ht | hcomment, hplace⟩, hcode⟩
      · exact ⟨ht, hplace⟩
      · rw [h.isComment t hcomment] at hcode
        cases hcode
    · rintro ⟨ht, hplace⟩
      exact ⟨⟨.inl ht, hplace⟩, h.isCode t ht⟩
  rw [Matched, ← pending_filter, hsame]
  exact hmatched

/-- The brackets of every node match. -/
def Context.Bracketed (ctx : Context) : Prop :=
  ∀ id, Matched ((ctx.tokensOf id).map Token.word)

instance (ctx : Context) : Decidable ctx.Bracketed :=
  decidable_of_iff (∀ id < ctx.tree.nodes.size, Matched ((ctx.tokensOf id).map Token.word)) <| by
    refine ⟨fun h id => ?_, fun h id _ => h id⟩
    by_cases hid : id < ctx.tree.nodes.size
    · exact h id hid
    · rw [Context.tokensOf, Array.getElem?_eq_none (Nat.le_of_not_lt hid)]
      exact Matched.nil

namespace Context.Bracketed

/-- The lexemes of a node match. -/
theorem matched_node (h : ctx.Bracketed) (hs : ctx.source.WellFormed) {id : NodeId} {node : Node}
    (hnode : ctx.tree.nodes[id]? = some node) :
    Matched ((ctx.source.lexemesIn node.span.start node.span.stop).map Token.word) := by
  refine hs.matched_lexemesIn (Source.tokensIn_inOrder hs.tokens node.span)
    (fun t => Source.mem_tokensIn) ?_
  rw [← Context.tokensOf_eq hnode]
  exact h id

/-- What stands between the parentheses around a node matches. -/
theorem matched_grouped (h : ctx.Bracketed) (hctx : ctx.Shaped) {id : NodeId} {node : Node}
    {left right : Token} (hnode : ctx.tree.nodes[id]? = some node) (hroot : id ≠ Tree.root)
    (hgrouping : ctx.groupingAt node.span = some (left, right)) :
    Matched ((ctx.source.lexemesIn left.span.stop right.span.start).map Token.word) := by
  obtain ⟨hbefore, hafter, -, -⟩ := Context.groupingAt_eq_some hgrouping
  obtain ⟨-, hle, hnearest⟩ := Source.tokenBefore_eq_some hctx.source.tokens hbefore
  obtain ⟨-, hle', hnearest'⟩ := Source.tokenAfter_eq_some hctx.source.tokens hafter
  obtain ⟨hstart, hstop⟩ := hctx.joints hnode hroot
  refine hctx.source.matched_lexemesIn (Source.tokensIn_inOrder hctx.source.tokens node.span)
    (fun t => ?_) (Context.tokensOf_eq hnode ▸ h id)
  rw [Source.mem_tokensIn]
  constructor
  · rintro ⟨ht, hfrom, hto⟩
    exact ⟨ht, by omega, by omega⟩
  · -- a token between the parentheses is neither before the node nor after it
    rintro ⟨ht, hfrom, hto⟩
    have hne := hctx.source.tokens.nonempty t ht
    have hlexeme := Source.mem_lexemes_of_token ht
    have hl := left.span.start_le_stop
    have hr := right.span.start_le_stop
    refine ⟨ht, (hstart.seam t hlexeme).resolve_right fun hearly => ?_,
      (hstop.seam t hlexeme).resolve_left fun hlate => ?_⟩
    · rcases hnearest t ht hearly with rfl | hprecedes
      · omega
      · simp only [Token.Precedes] at hprecedes
        omega
    · rcases hnearest' t ht hlate with rfl | hprecedes
      · omega
      · simp only [Token.Precedes] at hprecedes
        omega

/-- What stands between the braces of a block matches. -/
theorem matched_braced (h : ctx.Bracketed) (hctx : ctx.Shaped) {id stmt : NodeId} {node : Node}
    {left right : Token} (hnode : ctx.tree.nodes[id]? = some node)
    (hbraced : ctx.Braced id stmt node.span left right) :
    Matched ((ctx.source.lexemesIn left.span.stop right.span.start).map Token.word) := by
  refine hctx.source.matched_lexemesIn (hctx.tokensOf_inOrder stmt) (fun t => ?_) (h stmt)
  constructor
  · intro ht
    exact ⟨Context.Shaped.mem_tokens_of_mem_tokensOf ht, hbraced.between hctx ht⟩
  · rintro ⟨ht, hfrom, hto⟩
    exact hbraced.mem_of_between (Context.tokensOf_eq hnode) ht
      (hctx.source.tokens.nonempty t ht) hfrom hto

end Context.Bracketed

end Pare
