/-!
**Regular expressions over bytes.**

The patterns of file names come down to regular expressions, matched by derivatives: an expression
matches a list of bytes if, after the derivative by each byte in turn, it accepts the empty list.

Main definitions:

* `Pare.Regular` — regular expressions over bytes;
* `Pare.Regular.acceptsEmpty`, `Pare.Regular.derive` — the two halves of matching;
* `Pare.Regular.isMatch` — does an expression match a list of bytes?

Main results:

* `Pare.Regular.isMatch_nothing` — what matches nothing matches nothing.
-/

set_option relaxedAutoImplicit false
set_option autoImplicit false

namespace Pare

/-- Regular expressions over bytes. -/
inductive Regular where
  /-- Matches nothing at all. -/
  | nothing
  /-- Matches the empty list. -/
  | empty
  /-- Matches one byte in one of the ranges, or, turned around, in none of them. -/
  | byte (negated : Bool) (ranges : List (Nat × Nat))
  | andThen (first second : Regular)
  | either (left right : Regular)
  | many (inner : Regular)
deriving DecidableEq, Repr

namespace Regular

/-- Exactly one byte. -/
def exactly (b : Nat) : Regular := byte false [(b, b)]

/-- One or the other of a list. -/
def oneOf : List Regular → Regular
  | [] => nothing
  | [r] => r
  | r :: rest => either r (oneOf rest)

/-- One after the other. -/
def inTurn (rs : List Regular) : Regular := rs.foldr andThen empty

/-- Does the expression match the empty list? -/
def acceptsEmpty : Regular → Bool
  | nothing => false
  | empty => true
  | byte _ _ => false
  | andThen r s => r.acceptsEmpty && s.acceptsEmpty
  | either r s => r.acceptsEmpty || s.acceptsEmpty
  | many _ => true

/-- Is a byte in one of the ranges, or, turned around, in none of them? -/
def isIn (negated : Bool) (ranges : List (Nat × Nat)) (b : Nat) : Bool :=
  (ranges.any fun r => r.1 ≤ b && b ≤ r.2) != negated

/-- What must follow a byte for the expression to match. -/
def derive (b : Nat) : Regular → Regular
  | nothing => nothing
  | empty => nothing
  | byte negated ranges => if isIn negated ranges b then empty else nothing
  | andThen r s =>
      let first := meet (r.derive b) s
      if r.acceptsEmpty then join first (s.derive b) else first
  | either r s => join (r.derive b) (s.derive b)
  | many r => meet (r.derive b) (many r)
where
  /-- One after the other, kept small. -/
  meet : Regular → Regular → Regular
    | nothing, _ => nothing
    | empty, s => s
    | r, s => andThen r s
  /-- One or the other, kept small. -/
  join : Regular → Regular → Regular
    | nothing, s => s
    | r, nothing => r
    | r, s => if r = s then r else either r s

/-- Does the expression match a list of bytes? -/
def isMatch (r : Regular) : List Nat → Bool
  | [] => r.acceptsEmpty
  | b :: rest => (r.derive b).isMatch rest

/-- What matches nothing matches nothing. -/
@[simp] theorem isMatch_nothing (bs : List Nat) : nothing.isMatch bs = false := by
  induction bs with
  | nil => rfl
  | cons b rest ih => simpa [isMatch, derive] using ih

end Regular

end Pare
