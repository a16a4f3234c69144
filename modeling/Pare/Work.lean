import Pare.Lint

/-!
**Work on a disk.**

Work is done step by step.  A step finds the disk as the step before has left it, and when a step
fails, nothing is taken back: the failure comes with the disk as it is by then.

Main definitions:

* `Pare.Setback` — a failure, and the disk as it is then;
* `Pare.Work` — a computation that works on a disk;
* `Pare.Work.readFile`, `Pare.Work.writeFile` — the steps that look at the disk and change it;
* `Pare.Work.ofFaulty`, `Pare.Work.ofAttempt` — steps that do not touch it;
* `Pare.Work.outcome` — what work came to, beside the disk that it has left.
-/

set_option relaxedAutoImplicit false
set_option autoImplicit false

namespace Pare

/-- A failure, and the disk as it is then. -/
structure Setback where
  failure : Failure
  disk : Disk
deriving DecidableEq, Repr

instance : Coe Setback Failure := ⟨Setback.failure⟩

/-- A computation that works on a disk, and may fail or be faulty. -/
abbrev Work := StateT Disk (ExceptT Setback (Except Fault))

namespace Work

variable {α : Type}

def fail (failure : Failure) : Work α := do throw ⟨failure, ← get⟩

/-- The result of a computation that may be faulty. -/
def ofFaulty (x : Except Fault α) : Work α := StateT.lift (ExceptT.lift x)

/-- The result of an attempt. -/
def ofAttempt (x : Attempt α) : Work α := do
  match ← ofFaulty x.run with
  | .ok a => return a
  | .error failure => fail failure

def readFile (path : String) : Work String := do
  match (← get).read? path with
  | some text => return text
  | none => fail (.access path)

/-- Writes a text to a file, which stays as it is if that fails. -/
def writeFile (path text : String) : Work Unit := do
  match (← get).write? path text with
  | some after => set after
  | none => fail (.access path)

/-- What work came to, beside the disk that it has left. -/
def outcome : Except Setback (α × Disk) → Except Failure α × Disk
  | .ok (a, after) => (.ok a, after)
  | .error setback => (.error setback, setback.disk)

end Work

end Pare
