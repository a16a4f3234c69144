import Pare.Rule.Walk

/-!
**Fixing a text.**

Each pass applies, out of the patches that the rule offers, those that do not touch one another,
and reads the result again.  Passes go on until nothing changes, the result is no program any more,
or a bound is reached; a pass whose result is no program is not made at all.

Main definitions:

* `Pare.Reader` — what turns a text into a tree beside its source, if it is a program;
* `Pare.Fixed` — a text with what has been done to it and what is left to report;
* `Pare.Fixed.pass?` — the state after one more pass, if there is one to make;
* `Pare.Fixed.passes` — the state after at most so many more passes;
* `Pare.Fixed.trail` — the states on the way;
* `Pare.fix?` — a text after at most so many passes.

Main results:

* `Pare.Fixed.passes_add` — making passes in two rounds is making them in one;
* `Pare.Fixed.getLast?_of_trail` — the way ends in the state after the passes.
-/

set_option relaxedAutoImplicit false
set_option autoImplicit false

namespace Pare

/-- What turns a text into a tree beside its source, if it is a program. -/
abbrev Reader := String → Option Context

/-- A text with what has been done to it and what is left to report. -/
structure Fixed where
  /-- The text as it is now, with its tokens. -/
  source : Source
  /-- The number of patches applied. -/
  applied : Nat
  /-- The number of passes made. -/
  rounds : Nat
  /-- What the rule still reports. -/
  remaining : List Detection
deriving DecidableEq, Repr

namespace Fixed

/-- The text as it is now. -/
def text (s : Fixed) : String := s.source.text

/-- Was anything done to the text? -/
def isChanged (s : Fixed) : Bool := 0 < s.applied

def patches (s : Fixed) : List Patch := s.remaining.filterMap Detection.patch

/-- The state after one more pass, if there is one to make. -/
def pass? (read : Reader) (rule : Rule) (s : Fixed) : Except Fault (Option Fixed) := do
  if s.patches.isEmpty then return none
  let (next, count) ← mergePatches s.text s.patches
  if count = 0 || next = s.text then return none
  match read next with
  | none => return none
  | some ctx =>
      return some ⟨ctx.source, s.applied + count, s.rounds + 1, ← rule.run ctx⟩

/-- The state after at most so many more passes. -/
def passes (read : Reader) (rule : Rule) : Nat → Fixed → Except Fault Fixed
  | 0, s => return s
  | bound + 1, s => do
      match ← s.pass? read rule with
      | none => return s
      | some t => passes read rule bound t

/-- Where no pass is left to make, no bound makes a difference. -/
theorem passes_of_pass?_eq_none {read : Reader} {rule : Rule} {s : Fixed}
    (h : s.pass? read rule = .ok none) (bound : Nat) : passes read rule bound s = .ok s := by
  cases bound with
  | zero => rfl
  | succ n => simp [passes, h, bind, Except.bind, pure, Except.pure]

/-- Making passes in two rounds is making them in one. -/
theorem passes_add (read : Reader) (rule : Rule) (n m : Nat) (s : Fixed) :
    passes read rule (n + m) s = passes read rule n s >>= passes read rule m := by
  induction n generalizing s with
  | zero => simp [passes, bind, Except.bind, pure, Except.pure]
  | succ n ih =>
      rw [Nat.add_right_comm]
      simp only [passes]
      cases h : s.pass? read rule with
      | error e => rfl
      | ok next =>
          cases next with
          | none =>
              simpa [bind, Except.bind, pure, Except.pure] using
                (passes_of_pass?_eq_none h m).symm
          | some t => simpa [bind, Except.bind] using ih t

/-- The states on the way through at most so many more passes, the first and the last with them. -/
def trail (read : Reader) (rule : Rule) : Nat → Fixed → Except Fault (List Fixed)
  | 0, s => return [s]
  | bound + 1, s => do
      match ← s.pass? read rule with
      | none => return [s]
      | some t => return s :: (← trail read rule bound t)

/-- The way ends in the state after the passes. -/
theorem getLast?_of_trail {read : Reader} {rule : Rule} {bound : Nat} {s : Fixed}
    {states : List Fixed} (h : s.trail read rule bound = .ok states) :
    ∃ last, states.getLast? = some last ∧ s.passes read rule bound = .ok last := by
  induction bound generalizing s states with
  | zero =>
      cases h
      exact ⟨s, rfl, rfl⟩
  | succ n ih =>
      simp only [trail, passes] at h ⊢
      cases hp : s.pass? read rule with
      | error e =>
          rw [hp] at h
          cases h
      | ok next =>
          rw [hp] at h
          cases next with
          | none =>
              cases h
              exact ⟨s, rfl, rfl⟩
          | some t =>
              cases ht : t.trail read rule n with
              | error e =>
                  simp only [bind, Except.bind, ht] at h
                  cases h
              | ok rest =>
                  simp only [bind, Except.bind, pure, Except.pure, ht, Except.ok.injEq] at h
                  obtain ⟨last, hl, hr⟩ := ih ht
                  subst h
                  refine ⟨last, ?_, hr⟩
                  cases rest with
                  | nil => simp at hl
                  | cons a as => simpa [List.getLast?_cons_cons] using hl

end Fixed

/-- A text before any pass, if it is a program. -/
def Fixed.start? (read : Reader) (rule : Rule) (text : String) : Except Fault (Option Fixed) := do
  match read text with
  | none => return none
  | some ctx => return some ⟨ctx.source, 0, 0, ← rule.run ctx⟩

/-- A text after at most so many passes, if it is a program. -/
def fix? (read : Reader) (rule : Rule) (text : String) (bound : Nat) :
    Except Fault (Option Fixed) := do
  match ← Fixed.start? read rule text with
  | none => return none
  | some s => return some (← s.passes read rule bound)

end Pare
