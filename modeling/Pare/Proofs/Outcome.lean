import Pare.Span

/-!
**Computations that have a result.**

A computation on malformed input breaks down with a `Fault`.  What a computation does on well-formed
input is stated here as one judgement: it has a result, and the result has a property.  The rules of
the judgement follow the ways computations are put together, so that a function is shown to have its
results step by step, in the order in which it is written.

Main definitions:

* `Pare.Succeeds` — a computation has a result, and the result has a property;
* `Pare.Yields` — a computation has a result, and if something was found, it has a property;
* `Pare.Answers` — a computation has a result, which answers a question.

Main results:

* `Pare.bind_eq_ok` — the result of two computations one after the other;
* `Pare.Succeeds.bind`, `Pare.succeeds_pure`, `Pare.Succeeds.imp` — the rules of the judgement;
* `Pare.succeeds_mapM`, `Pare.mapM_eq_ok_map` — a computation made for every member of a list;
* `Pare.exists_mapM_iff`, `Pare.mem_flatten_of_mapM` — when it has a result, and what is in it;
* `Pare.yields_unless`, `Pare.Yields.of_eq_some` — the rules for computations that may find nothing;
* `Pare.answers_pure`, `Pare.Answers.or`, `Pare.answers_anyM` — the rules for questions.
-/

set_option relaxedAutoImplicit false
set_option autoImplicit false

namespace Pare

variable {ε α β : Type}

/-- The result of two computations one after the other. -/
theorem bind_eq_ok {x : Except ε α} {f : α → Except ε β} {b : β} :
    (x >>= f) = .ok b ↔ ∃ a, x = .ok a ∧ f a = .ok b := by
  cases x with
  | error e => simp [bind, Except.bind]
  | ok a => simp [bind, Except.bind]

theorem ok_bind (a : α) (f : α → Except ε β) : (Except.ok a >>= f) = f a := rfl

/-- A computation has a result, and the result has a property. -/
def Succeeds (x : Except Fault α) (P : α → Prop) : Prop := ∃ a, x = .ok a ∧ P a

theorem succeeds_pure {P : α → Prop} {a : α} (h : P a) : Succeeds (pure a) P := ⟨a, rfl, h⟩

theorem Succeeds.imp {x : Except Fault α} {P Q : α → Prop} (h : Succeeds x P)
    (hPQ : ∀ a, P a → Q a) : Succeeds x Q := by
  obtain ⟨a, hx, ha⟩ := h
  exact ⟨a, hx, hPQ a ha⟩

/-- What follows a computation may use its result and the property of the result. -/
theorem Succeeds.bind {x : Except Fault α} {f : α → Except Fault β} {P : α → Prop} {Q : β → Prop}
    (hx : Succeeds x P) (hf : ∀ a, P a → Succeeds (f a) Q) : Succeeds (x >>= f) Q := by
  obtain ⟨a, rfl, ha⟩ := hx
  exact hf a ha

/-- A computation made for every member of a list. -/
theorem succeeds_mapM {f : α → Except Fault β} {R : α → β → Prop} {as : List α}
    (h : ∀ a ∈ as, Succeeds (f a) (R a)) :
    Succeeds (as.mapM f) fun bs => ∀ b ∈ bs, ∃ a ∈ as, R a b := by
  induction as with
  | nil => exact succeeds_pure (by simp)
  | cons a as ih =>
      rw [List.mapM_cons]
      refine (h a (List.mem_cons_self ..)).bind fun b hb => ?_
      refine (ih fun c hc => h c (List.mem_cons_of_mem a hc)).bind fun bs hbs => ?_
      refine succeeds_pure fun d hd => ?_
      rcases List.mem_cons.1 hd with rfl | hd
      · exact ⟨a, List.mem_cons_self .., hb⟩
      · obtain ⟨c, hc, hR⟩ := hbs d hd
        exact ⟨c, List.mem_cons_of_mem a hc, hR⟩

/-- A traversal has a result if every member has one. -/
theorem mapM_eq_ok_map {f : α → Except ε β} {g : α → β} {as : List α}
    (h : ∀ a ∈ as, f a = .ok (g a)) : as.mapM f = .ok (as.map g) := by
  induction as with
  | nil => rfl
  | cons a as ih =>
      rw [List.mapM_cons, h a (List.mem_cons_self ..), ok_bind,
        ih fun b hb => h b (List.mem_cons_of_mem a hb), ok_bind]
      rfl

/-- If a traversal has a result, every member has one. -/
theorem exists_of_mapM {f : α → Except ε β} {as : List α} {bs : List β}
    (h : as.mapM f = .ok bs) {a : α} (ha : a ∈ as) : ∃ b, f a = .ok b := by
  induction as generalizing bs with
  | nil => simp at ha
  | cons c as ih =>
      rw [List.mapM_cons] at h
      obtain ⟨b, hb, h⟩ := bind_eq_ok.1 h
      obtain ⟨rest, hrest, -⟩ := bind_eq_ok.1 h
      rcases List.mem_cons.1 ha with rfl | ha
      · exact ⟨b, hb⟩
      · exact ih hrest ha

/-- A traversal has a result exactly if every member has one. -/
theorem exists_mapM_iff {f : α → Except ε β} {as : List α} :
    (∃ bs, as.mapM f = .ok bs) ↔ ∀ a ∈ as, ∃ b, f a = .ok b := by
  constructor
  · rintro ⟨bs, h⟩ a ha
    exact exists_of_mapM h ha
  · intro h
    induction as with
    | nil => exact ⟨[], rfl⟩
    | cons a as ih =>
        obtain ⟨b, hb⟩ := h a (List.mem_cons_self ..)
        obtain ⟨bs, hbs⟩ := ih fun c hc => h c (List.mem_cons_of_mem a hc)
        exact ⟨b :: bs, by rw [List.mapM_cons, hb, ok_bind, hbs, ok_bind]; rfl⟩

/-- What a traversal collects is what the members give. -/
theorem mem_flatten_of_mapM {f : α → Except ε (List β)} {as : List α} {found : List (List β)}
    (h : as.mapM f = .ok found) {b : β} :
    b ∈ found.flatten ↔ ∃ a ∈ as, ∃ bs, f a = .ok bs ∧ b ∈ bs := by
  induction as generalizing found with
  | nil =>
      obtain rfl := Except.ok.inj h
      simp
  | cons a as ih =>
      rw [List.mapM_cons] at h
      obtain ⟨first, hfirst, h⟩ := bind_eq_ok.1 h
      obtain ⟨rest, hrest, h⟩ := bind_eq_ok.1 h
      obtain rfl := Except.ok.inj h
      rw [List.flatten_cons, List.mem_append, ih hrest]
      simp only [List.mem_cons, exists_eq_or_imp, hfirst, Except.ok.injEq, exists_eq_left']

/-- Of one computation two things are shown one by one. -/
theorem Succeeds.and {x : Except Fault α} {P Q : α → Prop} (h : Succeeds x P) (h' : Succeeds x Q) :
    Succeeds x fun a => P a ∧ Q a := by
  obtain ⟨a, hx, ha⟩ := h
  obtain ⟨b, hx', hb⟩ := h'
  obtain rfl := Except.ok.inj (hx.symm.trans hx')
  exact ⟨a, hx, ha, hb⟩

/-- The result of a computation has every property that was shown of it. -/
theorem Succeeds.of_eq_ok {x : Except Fault α} {P : α → Prop} {a : α} (h : Succeeds x P)
    (hx : x = .ok a) : P a := by
  obtain ⟨b, hx', hb⟩ := h
  obtain rfl := Except.ok.inj (hx.symm.trans hx')
  exact hb

/-! ### Computations that may find nothing -/

/-- A computation has a result, and if something was found, it has a property. -/
def Yields (x : Except Fault (Option α)) (P : α → Prop) : Prop := Succeeds x fun r => ∀ a ∈ r, P a

/-- What was found has every property that was shown of it. -/
theorem Yields.of_found {x : Except Fault (Option α)} {P : α → Prop} {a : α} (h : Yields x P)
    (hx : x = .ok (some a)) : P a :=
  Succeeds.of_eq_ok h hx a rfl

theorem yields_none {P : α → Prop} : Yields (pure none) P := succeeds_pure (by simp)

theorem yields_some {P : α → Prop} {a : α} (h : P a) : Yields (pure (some a)) P :=
  succeeds_pure (by simpa using h)

/-- Where it is known that there is a result, it is enough to look at what was found. -/
theorem Yields.of_eq_some {x : Except Fault (Option α)} {P Q : α → Prop} (h : Yields x P)
    (hQ : ∀ a, x = .ok (some a) → Q a) : Yields x Q := by
  obtain ⟨r, hx, -⟩ := h
  refine ⟨r, hx, fun a ha => hQ a ?_⟩
  rw [hx, show r = some a from ha]

/-- A guard is passed only if its condition fails. -/
theorem yields_unless {P : α → Prop} {c : Prop} [Decidable c] {x : Except Fault (Option α)}
    (h : ¬ c → Yields x P) : Yields (if c then pure none else x) P := by
  split
  · exact yields_none
  · exact h ‹_›

/-- What is found although a condition would prevent it is found without the condition. -/
theorem unless_eq_some {c : Bool} {x : Except Fault (Option α)} {a : α}
    (h : (if c = true then pure none else x) = .ok (some a)) : c = false ∧ x = .ok (some a) := by
  cases c with
  | true => cases h
  | false => exact ⟨rfl, h⟩

/-! ### Computations that answer a question -/

/-- A computation has a result, which answers a question. -/
def Answers (x : Except Fault Bool) (P : Prop) : Prop := Succeeds x fun b => b = true ↔ P

section Answers

variable {P Q : Prop} {x y : Except Fault Bool}

theorem answers_pure {b : Bool} (h : b = true ↔ P) : Answers (pure b) P := succeeds_pure h

theorem answers_false (h : ¬ P) : Answers (pure false) P := answers_pure (by simpa using h)

theorem Answers.congr (h : Answers x P) (hPQ : P ↔ Q) : Answers x Q :=
  h.imp fun _ hb => hb.trans hPQ

/-- The question whether one of two things holds, where the second is asked only if needed. -/
theorem Answers.or (hx : Answers x P) (hy : Answers y Q) :
    Answers (do
      if ← x then return true
      y) (P ∨ Q) := by
  obtain ⟨b, rfl, hb⟩ := hx
  cases b with
  | true => exact answers_pure (by simp [hb.1])
  | false =>
      have hP : ¬ P := fun h => Bool.false_ne_true (hb.2 h)
      exact hy.congr (by simp [hP])

end Answers

/-- A search asks its question at every member of a list, up to the first that says yes. -/
theorem answers_anyM {f : α → Except Fault Bool} {P : α → Prop} {as : List α}
    (h : ∀ a ∈ as, Answers (f a) (P a)) : Answers (as.anyM f) (∃ a ∈ as, P a) := by
  induction as with
  | nil => exact answers_false (by simp)
  | cons a as ih =>
      obtain ⟨b, hb, hP⟩ := h a (List.mem_cons_self ..)
      rw [List.anyM, hb, ok_bind]
      cases b with
      | true => exact answers_pure (by simp [hP.1])
      | false =>
          have hno : ¬ P a := fun ha => Bool.false_ne_true (hP.2 ha)
          exact (ih fun c hc => h c (List.mem_cons_of_mem a hc)).congr (by simp [hno])

end Pare
