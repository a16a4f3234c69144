/-!
**Shares in percent.**

A share is a quotient of two counts, told in percent.  It is computed the way binary floating point
does it, with fifty-three binary digits after every step, so that its decimal places agree with that
arithmetic also where it is off the exact quotient.  All steps are on fractions of natural numbers.

Main definitions:

* `Pare.Fraction` — a fraction of natural numbers;
* `Pare.Fraction.toBinary` — the nearest fraction with fifty-three binary digits;
* `Pare.Fraction.share` — a share of a total in percent;
* `Pare.Fraction.decimal` — a fraction with a number of decimal places.
-/

set_option relaxedAutoImplicit false
set_option autoImplicit false

namespace Pare

/-- A fraction of natural numbers. -/
structure Fraction where
  num : Nat
  den : Nat
deriving DecidableEq, Repr

namespace Fraction

def ofNat (n : Nat) : Fraction := ⟨n, 1⟩

def times (f : Fraction) (n : Nat) : Fraction := ⟨f.num * n, f.den⟩

def dividedBy (f : Fraction) (n : Nat) : Fraction := ⟨f.num, f.den * n⟩

/-- The nearest natural number, of two the even one. -/
def roundEven (f : Fraction) : Nat :=
  let whole := f.num / f.den
  let rest := 2 * (f.num % f.den)
  if rest < f.den then whole
  else if rest = f.den then whole + whole % 2
  else whole + 1

/-- The nearest natural number, of two the greater one. -/
def roundUp (f : Fraction) : Nat :=
  let whole := f.num / f.den
  if 2 * (f.num % f.den) < f.den then whole else whole + 1

/-- A fraction times a power of two, which may be negative. -/
def scale (f : Fraction) : Int → Fraction
  | .ofNat k => ⟨f.num * Nat.pow 2 k, f.den⟩
  | .negSucc k => ⟨f.num, f.den * Nat.pow 2 (k + 1)⟩

/-- The power of two that brings a positive fraction to fifty-three binary digits before the
point. -/
def binaryShift (f : Fraction) : Int :=
  let guess : Int := 52 - ((Nat.log2 f.num : Int) - (Nat.log2 f.den : Int))
  let scaled := f.scale guess
  if scaled.num < Nat.pow 2 52 * scaled.den then guess + 1 else guess

/-- The nearest fraction with fifty-three binary digits, of two the even one. -/
def toBinary (f : Fraction) : Fraction :=
  if f.num = 0 then ⟨0, 1⟩
  else
    let shift := f.binaryShift
    (ofNat (f.scale shift).roundEven).scale (-shift)

/-- The share that a count has in a total, in percent; nothing has no share. -/
def share (count total : Nat) : Fraction :=
  if total = 0 then ⟨0, 1⟩ else ((Fraction.mk count total).toBinary.times 100).toBinary

/-- Zeros in front of a text up to a width. -/
def padZeros (width : Nat) (digits : String) : String :=
  String.ofList (List.replicate (width - digits.length) '0') ++ digits

/-- A fraction with a number of decimal places, of two the even one. -/
def decimal (f : Fraction) (places : Nat) : String :=
  let unit := Nat.pow 10 places
  let scaled := (f.times unit).roundEven
  let whole := toString (scaled / unit)
  if places = 0 then whole
  else whole ++ "." ++ padZeros places (toString (scaled % unit))

/-- Two thirds with six places. -/
example : (share 2 3).decimal 6 = "66.666667" := by decide +kernel

/-- A tie with one place goes to the even neighbour. -/
example : (share 1 80).decimal 1 = "1.2" := by decide +kernel

end Fraction

end Pare
