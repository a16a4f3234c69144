/-!
**Values of data files.**

What a data file holds, whichever format it is written in: scalars, lists and tables.  A scalar
without quotes may get its type only from the place where it stands, so it is kept as it is written.

Main definitions:

* `Pare.Value` — scalars, lists and tables;
* `Pare.Value.toBool?`, `Pare.Value.toNat?`, `Pare.Value.toText?`, `Pare.Value.toTexts?` — a value
  taken as one of a type;
* `Pare.Scan` — steps through the characters of a data file that may fail.
-/

set_option relaxedAutoImplicit false
set_option autoImplicit false

namespace Pare

/-- Scalars, lists and tables. -/
inductive Value where
  | null
  | bool (b : Bool)
  | integer (n : Int)
  /-- A number that is no integer. -/
  | real
  | text (s : String)
  /-- A scalar without quotes, as it is written. -/
  | plain (raw : String)
  | list (items : List Value)
  | table (fields : List (String × Value))
deriving Repr

/-! ### Scanning -/

/-- Steps through the characters of a data file that may fail. -/
abbrev Scan := StateT (List Char) Option

namespace Scan

def ahead : Scan (List Char) := get

def peek : Scan (Option Char) := return (← get).head?

/-- Passes a number of characters and gives them. -/
def take (count : Nat) : Scan (List Char) := do
  let cs ← get
  set (cs.drop count)
  return cs.take count

/-- Passes the characters of a kind and gives them. -/
def takeWhile (p : Char → Bool) : Scan (List Char) := do
  take ((← get).takeWhile p).length

/-- Passes a text that must come next. -/
def expect (text : String) : Scan Unit := do
  if text.toList.isPrefixOf (← get) then
    let _ ← take text.toList.length
  else failure

/-- Does a text come next? -/
def at? (text : String) : Scan Bool := return text.toList.isPrefixOf (← get)

/-- What a scan finds in a text that it passes as a whole. -/
def whole {α : Type} (scan : Scan α) (text : List Char) : Option α := do
  let (a, rest) ← scan.run text
  if rest.isEmpty then some a else none

end Scan

/-! ### Numbers -/

/-- The value of a digit in a base up to sixteen. -/
def digitValue? (base : Nat) (c : Char) : Option Nat :=
  let value :=
    if c.isDigit then some (c.toNat - '0'.toNat)
    else if 'a' ≤ c && c ≤ 'f' then some (c.toNat - 'a'.toNat + 10)
    else if 'A' ≤ c && c ≤ 'F' then some (c.toNat - 'A'.toNat + 10)
    else none
  value.filter fun v => v < base

/-- The number that digits in a base write. -/
def natOfDigits? (base : Nat) (digits : List Char) : Option Nat := do
  if digits.isEmpty then none
  else
    let values ← digits.mapM (digitValue? base)
    return values.foldl (fun n v => n * base + v) 0

/-- A number without quotes: decimal without leading zeros, or in another base after its mark. -/
def natOfPlain? (raw : String) : Option Nat :=
  let cs := raw.toList
  let unsigned := if cs.head? == some '+' then cs.drop 1 else cs
  match unsigned with
  | '0' :: 'x' :: digits => natOfDigits? 16 digits
  | '0' :: 'o' :: digits => natOfDigits? 8 digits
  | '0' :: 'b' :: digits => natOfDigits? 2 digits
  | ['0'] => some 0
  | '0' :: _ => none
  | digits => natOfDigits? 10 digits

namespace Value

/-! ### Types -/

/-- The least number that is too great. -/
def numberLimit : Nat := Nat.pow 2 64

/-- A value taken as a truth value. -/
def toBool? : Value → Option Bool
  | bool b => some b
  | plain raw =>
      if ["true", "True", "TRUE"].contains raw then some true
      else if ["false", "False", "FALSE"].contains raw then some false
      else none
  | _ => none

/-- A value taken as a natural number that is not too great. -/
def toNat? (v : Value) : Option Nat :=
  let found :=
    match v with
    | integer n => if 0 ≤ n then some n.toNat else none
    | plain raw => natOfPlain? raw
    | _ => none
  found.filter fun n => n < numberLimit

/-- A value taken as a text. -/
def toText? : Value → Option String
  | text s => some s
  | plain raw => some raw
  | _ => none

/-- A value taken as a list of texts.  Nothing, without quotes, is the empty list. -/
def toTexts? : Value → Option (List String)
  | list items => items.mapM toText?
  | plain "" => some []
  | _ => none

end Value

end Pare
