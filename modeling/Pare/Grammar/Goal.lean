import Pare.Grammar.Trivia

/-!
**What the grammar can be asked for.**

The constructs of the grammar hold one another, so their parsers call one another.  Each parser is
written for its own construct only and takes the parser of the constructs inside as an argument; the
knot is tied in one place, with a bound on the depth.

Main definitions:

* `Pare.Mode` — where an expression stands;
* `Pare.Goal` — the constructs that others hold;
* `Pare.Descent` — a parser for every goal.
-/

set_option relaxedAutoImplicit false
set_option autoImplicit false

namespace Pare

/-- Where an expression stands. -/
structure Mode where
  /-- May a semicolon be supplied after the expression? -/
  semi : Bool
  /-- Is the operator `in` kept for the header of a loop? -/
  noIn : Bool
deriving DecidableEq, Repr

namespace Mode

def enclosed : Mode := ⟨false, false⟩

/-- At the end of a statement. -/
def ending : Mode := ⟨true, false⟩

/-- The initial value of a variable in the header of a loop. -/
def header : Mode := ⟨false, true⟩

end Mode

/-- The constructs that others hold. -/
inductive Goal where
  /-- An expression of operators that bind at least as tightly as the level. -/
  | operation (mode : Mode) (level : Nat)
  /-- An operand with the operators in front of it. -/
  | operand (mode : Mode)
  | statement
  /-- A block; `operator` tells whether an operator may follow it. -/
  | block (operator : Bool)
  /-- An element of markup. -/
  | element
deriving DecidableEq, Repr

namespace Goal

/-- A whole expression without commas. -/
def expression (mode : Mode) : Goal := .operation mode 1

end Goal

/-- A parser for every goal. -/
abbrev Descent := Goal → Parser Concrete

namespace Parser

/-- Items with commas between them, up to the closing sign and with it.  Items may be left out. -/
def itemsUpTo (close : String) (item : Parser Concrete) : Nat → Parser (List Concrete)
  | 0 => failure
  | limit + 1 => do
      lead
      let next ← nextSign
      if next == close then return [← sign close]
      if next == "," then
        let comma ← sign ","
        return comma :: (← itemsUpTo close item limit)
      let first ← item
      gap
      if (← nextSign) == close then return [first, ← sign close]
      let comma ← sign ","
      return first :: comma :: (← itemsUpTo close item limit)

/-- Items between brackets, with the brackets and the commas between the items.  Items may be left
out. -/
def items (openSign close : String) (item : Parser Concrete) : Parser (List Concrete) := do
  let first ← sign openSign
  return first :: (← itemsUpTo close item (← ahead).length)

/-- Expressions with commas between them: one expression, or a sequence of them. -/
def sequenceTail (go : Descent) (mode : Mode) : Nat → Parser (List Concrete)
  | 0 => return []
  | limit + 1 => do
      if ← settle mode.semi false then return []
      if (← nextSign) == "," then
        let comma ← sign ","
        let next ← go (.expression mode)
        return comma :: next :: (← sequenceTail go mode limit)
      return []

/-- One expression, or a sequence of expressions with commas between them. -/
def expressions (go : Descent) (mode : Mode) : Parser Concrete := do
  let first ← go (.expression mode)
  match ← sequenceTail go mode (← ahead).length with
  | [] => return first
  | rest => return .ofParts .sequence (first :: rest)

def parenthesized (go : Descent) : Parser Concrete := do
  let openSign ← sign "("
  let inner ← expressions go .enclosed
  return .ofParts .parenthesized [openSign, inner, ← sign ")"]

def spread (go : Descent) : Parser Concrete := do
  let dots ← sign "..."
  return .ofParts .spreadElement [dots, ← go (.expression .enclosed)]

/-- An expression, or one after three dots. -/
def spreadOrExpression (go : Descent) : Parser Concrete := do
  lead
  if (← nextSign) == "..." then spread go else go (.expression .enclosed)

def arguments (go : Descent) : Parser Concrete := do
  return .ofParts .arguments (← items "(" ")" (spreadOrExpression go))

end Parser

end Pare
