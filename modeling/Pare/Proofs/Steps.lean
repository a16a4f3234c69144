import Pare.Work
import Pare.Proofs.Outcome

/-!
**Steps of work on a disk.**

An attempt, and work on a disk, may come to a result, may fail, or may be faulty.  For two steps one
after the other it is said here how the whole comes to a result and how it fails; for each single
step, when it does the one or the other, and which disk it leaves.  What comes of longer work, and
what the disk is like then, is read off step by step from these.

Main results:

* `Pare.run_bind_eq_ok`, `Pare.run_bind_eq_error` — two attempts one after the other;
* `Pare.Work.run_bind_eq_ok`, `Pare.Work.run_bind_eq_error` — two steps of work, the second on the
  disk that the first leaves;
* `Pare.Work.readFile_eq_ok`, `Pare.Work.writeFile_eq_ok`, `Pare.Work.ofAttempt_eq_ok` and their
  companions — what each step comes to.
-/

set_option relaxedAutoImplicit false
set_option autoImplicit false

namespace Pare

/-! ### Attempts -/

section Attempts

variable {ε α β : Type} {x : ExceptT ε (Except Fault) α} {f : α → ExceptT ε (Except Fault) β}

/-- Two attempts one after the other succeed if both do. -/
theorem run_bind_eq_ok {b : β} :
    (x >>= f).run = .ok (.ok b) ↔ ∃ a, x.run = .ok (.ok a) ∧ (f a).run = .ok (.ok b) := by
  rw [ExceptT.run_bind, bind_eq_ok]
  constructor
  · rintro ⟨r, hx, hf⟩
    cases r with
    | error e => cases hf
    | ok a => exact ⟨a, hx, hf⟩
  · rintro ⟨a, hx, hf⟩
    exact ⟨.ok a, hx, hf⟩

/-- Two attempts one after the other fail if one of them does. -/
theorem run_bind_eq_error {e : ε} :
    (x >>= f).run = .ok (.error e) ↔
      x.run = .ok (.error e) ∨ ∃ a, x.run = .ok (.ok a) ∧ (f a).run = .ok (.error e) := by
  rw [ExceptT.run_bind, bind_eq_ok]
  constructor
  · rintro ⟨r, hx, hf⟩
    cases r with
    | error e =>
        obtain rfl := Except.error.inj (Except.ok.inj hf)
        exact .inl hx
    | ok a => exact .inr ⟨a, hx, hf⟩
  · rintro (hx | ⟨a, hx, hf⟩)
    · exact ⟨.error e, hx, rfl⟩
    · exact ⟨.ok a, hx, hf⟩

theorem run_pure_eq_ok {a b : α} :
    (pure a : ExceptT ε (Except Fault) α).run = .ok (.ok b) ↔ a = b :=
  ⟨fun h => Except.ok.inj (Except.ok.inj h), fun h => congrArg (fun a => Except.ok (Except.ok a)) h⟩

/-- What was lifted succeeds if it is not faulty. -/
theorem run_lift_eq_ok {y : Except Fault α} {a : α} :
    (ExceptT.lift y : ExceptT ε (Except Fault) α).run = .ok (.ok a) ↔ y = .ok a := by
  rw [ExceptT.run_lift]
  cases y <;> simp [Functor.map, Except.map]

end Attempts

namespace Attempt

variable {α : Type}

theorem run_ofFaulty_ne_error (x : Except Fault α) (failure : Failure) :
    (Attempt.ofFaulty x).run ≠ .ok (.error failure) := by
  cases x <;> exact fun h => nomatch h

theorem run_ofFaulty_eq_ok {x : Except Fault α} {a : α} :
    (Attempt.ofFaulty x).run = .ok (.ok a) ↔ x = .ok a :=
  run_lift_eq_ok

theorem run_ofResult_eq_ok {x : Except Failure α} {a : α} :
    (Attempt.ofResult x).run = .ok (.ok a) ↔ x = .ok a :=
  ⟨fun h => Except.ok.inj h, fun h => congrArg Except.ok h⟩

theorem run_ofResult_eq_error {x : Except Failure α} {failure : Failure} :
    (Attempt.ofResult x).run = .ok (.error failure) ↔ x = .error failure :=
  ⟨fun h => Except.ok.inj h, fun h => congrArg Except.ok h⟩

end Attempt

/-! ### Work -/

namespace Work

variable {α β : Type} {d after : Disk} {setback : Setback}

/-- Two steps one after the other come to a result if both do, the second on the disk that the
first leaves. -/
theorem run_bind_eq_ok {w : Work α} {f : α → Work β} {b : β} :
    ((w >>= f).run d).run = .ok (.ok (b, after)) ↔
      ∃ a mid, (w.run d).run = .ok (.ok (a, mid)) ∧
        ((f a).run mid).run = .ok (.ok (b, after)) := by
  rw [StateT.run_bind, Pare.run_bind_eq_ok, Prod.exists]

/-- Two steps one after the other fail if one of them does. -/
theorem run_bind_eq_error {w : Work α} {f : α → Work β} :
    ((w >>= f).run d).run = .ok (.error setback) ↔
      (w.run d).run = .ok (.error setback) ∨
        ∃ a mid, (w.run d).run = .ok (.ok (a, mid)) ∧
          ((f a).run mid).run = .ok (.error setback) := by
  rw [StateT.run_bind, Pare.run_bind_eq_error, Prod.exists]

theorem run_pure_eq_ok {a b : α} :
    ((pure a : Work α).run d).run = .ok (.ok (b, after)) ↔ b = a ∧ after = d := by
  rw [StateT.run_pure, Pare.run_pure_eq_ok, Prod.mk.injEq, eq_comm, @eq_comm _ d]

theorem run_pure_ne_error (a : α) : ((pure a : Work α).run d).run ≠ .ok (.error setback) :=
  fun h => nomatch h

theorem fail_ne_ok {failure : Failure} {a : α} :
    ((fail failure : Work α).run d).run ≠ .ok (.ok (a, after)) :=
  fun h => nomatch h

theorem fail_eq_error {failure : Failure} :
    ((fail failure : Work α).run d).run = .ok (.error setback) ↔ setback = ⟨failure, d⟩ :=
  ⟨fun h => (Except.error.inj (Except.ok.inj h)).symm, fun h => h ▸ rfl⟩

theorem ofFaulty_eq_ok {x : Except Fault α} {a : α} :
    ((ofFaulty x).run d).run = .ok (.ok (a, after)) ↔ x = .ok a ∧ d = after := by
  rw [ofFaulty, StateT.run_lift, Pare.run_bind_eq_ok]
  simp only [run_lift_eq_ok, Pare.run_pure_eq_ok, Prod.mk.injEq]
  constructor
  · rintro ⟨b, hx, rfl, hd⟩
    exact ⟨hx, hd⟩
  · rintro ⟨hx, hd⟩
    exact ⟨a, hx, rfl, hd⟩

theorem ofFaulty_ok_bind (a : α) (f : α → Work β) : ofFaulty (.ok a) >>= f = f a := rfl

theorem ofResult_ok_bind (a : α) (f : α → Work β) :
    ofAttempt (.ofResult (.ok a)) >>= f = f a := rfl

theorem ofFaulty_ne_error (x : Except Fault α) :
    ((ofFaulty x).run d).run ≠ .ok (.error setback) := by
  cases x <;> exact fun h => nomatch h

theorem run_ofAttempt (x : Attempt α) (d : Disk) : ((ofAttempt x).run d).run =
    x.run.map fun
      | .ok a => .ok (a, d)
      | .error failure => .error ⟨failure, d⟩ := by
  rw [ofAttempt]
  generalize x.run = outcome
  cases outcome with
  | error fault => rfl
  | ok r => cases r <;> rfl

theorem ofAttempt_eq_ok {x : Attempt α} {a : α} :
    ((ofAttempt x).run d).run = .ok (.ok (a, after)) ↔ x.run = .ok (.ok a) ∧ d = after := by
  rw [run_ofAttempt]
  cases x.run with
  | error fault => simp [Except.map]
  | ok r => cases r <;> simp [Except.map]

theorem ofAttempt_eq_error {x : Attempt α} :
    ((ofAttempt x).run d).run = .ok (.error setback) ↔
      x.run = .ok (.error setback.failure) ∧ setback.disk = d := by
  obtain ⟨failure, disk⟩ := setback
  rw [run_ofAttempt]
  cases x.run with
  | error fault => simp [Except.map]
  | ok r => cases r <;> simp [Except.map, @eq_comm _ d]

theorem run_readFile (path : String) (d : Disk) : ((readFile path).run d).run =
    match d.read? path with
    | some text => .ok (.ok (text, d))
    | none => .ok (.error ⟨.access path, d⟩) := by
  simp only [readFile, StateT.run_bind, StateT.run_get, pure_bind]
  cases d.read? path <;> rfl

theorem run_writeFile (path text : String) (d : Disk) : ((writeFile path text).run d).run =
    match d.write? path text with
    | some after => .ok (.ok ((), after))
    | none => .ok (.error ⟨.access path, d⟩) := by
  simp only [writeFile, StateT.run_bind, StateT.run_get, pure_bind]
  cases d.write? path text <;> rfl

/-- Reading a file leaves the disk as it is. -/
theorem readFile_eq_ok {path text : String} :
    ((readFile path).run d).run = .ok (.ok (text, after)) ↔
      d.read? path = some text ∧ d = after := by
  rw [run_readFile]
  cases d.read? path with
  | none => simp
  | some found => simp [eq_comm]

theorem readFile_eq_error {path : String} :
    ((readFile path).run d).run = .ok (.error setback) ↔
      d.read? path = none ∧ setback = ⟨.access path, d⟩ := by
  rw [run_readFile]
  cases d.read? path with
  | none => simp [eq_comm]
  | some found => simp

theorem writeFile_eq_ok {path text : String} :
    ((writeFile path text).run d).run = .ok (.ok ((), after)) ↔
      d.write? path text = some after := by
  rw [run_writeFile]
  cases d.write? path text with
  | none => simp
  | some written => simp

/-- Where a file cannot be written, the disk is left as it is. -/
theorem writeFile_eq_error {path text : String} :
    ((writeFile path text).run d).run = .ok (.error setback) ↔
      d.write? path text = none ∧ setback = ⟨.access path, d⟩ := by
  rw [run_writeFile]
  cases d.write? path text with
  | none => simp [eq_comm]
  | some written => simp

end Work

end Pare
