import Mathlib.Data.List.Forall2
import Mathlib.Data.Option.Defs

/-!
**Lists that are related member by member.**

Two runs, two layouts or two trees are compared by a relation between their parts.  What a program
looks up in one list of related parts, it finds in the other one too: the first member, the last
one, the first that a test picks, or a member of its choice.  What may be missing is related to what
may be missing in the same way.

Main results:

* `Pare.rel_head?`, `Pare.rel_getLast?`, `Pare.rel_find?` — what is looked up in related lists is
  related;
* `Pare.exists_of_mem_of_forall₂` — every member has one that it is related to.
-/

set_option relaxedAutoImplicit false
set_option autoImplicit false

namespace Pare

variable {α β γ δ : Type} {R : α → β → Prop} {S : γ → δ → Prop}

/-! ### What may be missing -/

/-- Either nothing was found on both sides, or members that are related. -/
theorem rel_cases {x : Option α} {y : Option β} (h : Option.Rel R x y) :
    (x = none ∧ y = none) ∨ ∃ a b, x = some a ∧ y = some b ∧ R a b := by
  cases h with
  | none => exact .inl ⟨rfl, rfl⟩
  | some hab => exact .inr ⟨_, _, rfl, rfl, hab⟩

theorem optionRel_map {f : α → γ} {g : β → δ} (hfg : ∀ a b, R a b → S (f a) (g b))
    {x : Option α} {y : Option β} (h : Option.Rel R x y) : Option.Rel S (x.map f) (y.map g) := by
  cases h with
  | none => exact .none
  | some hab => exact .some (hfg _ _ hab)

theorem optionRel_toList {x : Option α} {y : Option β} (h : Option.Rel R x y) :
    List.Forall₂ R x.toList y.toList := by
  cases h with
  | none => exact .nil
  | some hab => exact .cons hab .nil

/-! ### Looking up -/

variable {as : List α} {bs : List β}

/-- The first members of two lists that are related member by member. -/
theorem rel_head? (h : List.Forall₂ R as bs) : Option.Rel R as.head? bs.head? := by
  cases h with
  | nil => exact .none
  | cons hab _ => exact .some hab

theorem rel_getLast? (h : List.Forall₂ R as bs) : Option.Rel R as.getLast? bs.getLast? := by
  rw [← List.head?_reverse, ← List.head?_reverse]
  exact rel_head? (List.forall₂_reverse_iff.2 h)

/-- The first members of related lists that a test picks are related, and the test holds of them. -/
theorem rel_find? {p : α → Bool} {q : β → Bool} (hpq : ∀ a b, R a b → p a = q b)
    (h : List.Forall₂ R as bs) :
    Option.Rel (fun a b => R a b ∧ p a = true) (as.find? p) (bs.find? q) := by
  induction h with
  | nil => exact .none
  | @cons a b as bs hab _ ih =>
      rw [List.find?_cons, List.find?_cons, ← hpq a b hab]
      cases hp : p a with
      | true => exact .some ⟨hab, hp⟩
      | false => exact ih

/-- Every member of one of the lists is related to one of the other. -/
theorem exists_of_mem_of_forall₂ (h : List.Forall₂ R as bs) {a : α} (ha : a ∈ as) :
    ∃ b ∈ bs, R a b := by
  induction h with
  | nil => simp at ha
  | @cons x y as bs hxy _ ih =>
      rcases List.mem_cons.1 ha with rfl | ha
      · exact ⟨y, List.mem_cons_self .., hxy⟩
      · obtain ⟨b, hb, hab⟩ := ih ha
        exact ⟨b, List.mem_cons_of_mem y hb, hab⟩

end Pare
