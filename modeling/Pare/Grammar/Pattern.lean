import Pare.Grammar.Goal

/-!
**Patterns.**

What stands to the left of an assignment, or names the parameters of a function, is read as an
expression first and then taken as a pattern: arrays and objects become patterns of their parts,
assignments become defaults, and spreads become rests.

Main definitions:

* `Pare.Concrete.toTarget?` — an expression as what an assignment may assign to;
* `Pare.Concrete.itemsToPatterns?` — the items of an array as parts of a pattern, with defaults;
* `Pare.Concrete.isSettled` — are all defaults inside objects parts of patterns?
* `Pare.Parser.parameters` — the parameters of a function.
-/

set_option relaxedAutoImplicit false
set_option autoImplicit false

namespace Pare

namespace Concrete

def isParenthesized (t : Concrete) : Bool := t.is .parenthesized

/-- Is the node a name or a member, which an assignment may assign to as it stands? -/
def isPlace (t : Concrete) : Bool :=
  t.is .identifier || t.is .undefined || t.is .memberExpression || t.is .subscriptExpression

/-- An assignment as a pattern with its default; what it assigns to is a pattern already. -/
def assignmentToPattern? (role : Option Role) (span : Span) (children : List Concrete) :
    Option Concrete :=
  if children.head?.any isParenthesized then none
  else some (node (.construct .assignmentPattern) role span children)

mutual

/-- An expression as what an assignment may assign to. -/
def toTarget? : Concrete → Option Concrete
  | node (.construct .array) role span children =>
      (itemsToPatterns? children).map (node (.construct .arrayPattern) role span)
  | node (.construct .object) role span children =>
      (propertiesToPatterns? children).map (node (.construct .objectPattern) role span)
  | node (.construct .objectPattern) role span children =>
      some (node (.construct .objectPattern) role span children)
  | node (.construct .arrayPattern) role span children =>
      some (node (.construct .arrayPattern) role span children)
  | t@(node _ _ _ _) => if t.isPlace then some t else none

/-- The parts of an array as parts of a pattern. -/
def itemsToPatterns? : List Concrete → Option (List Concrete)
  | [] => some []
  | node (.sign text) role span children :: rest =>
      (itemsToPatterns? rest).map (node (.sign text) role span children :: ·)
  | node (.construct .spreadElement) role span children :: rest => do
      let inner ← restToPattern? children
      return node (.construct .restPattern) role span inner :: (← itemsToPatterns? rest)
  | node (.construct .assignmentExpression) role span children :: rest => do
      let item ← assignmentToPattern? role span children
      return item :: (← itemsToPatterns? rest)
  | t :: rest => do
      let item ← t.toTarget?
      return item :: (← itemsToPatterns? rest)

/-- The parts of a spread as parts of a rest. -/
def restToPattern? : List Concrete → Option (List Concrete)
  | [] => some []
  | node (.sign text) role span children :: rest =>
      (restToPattern? rest).map (node (.sign text) role span children :: ·)
  | t :: rest => do
      let item ← t.toTarget?
      return item :: (← restToPattern? rest)

/-- The parts of an object as parts of a pattern. -/
def propertiesToPatterns? : List Concrete → Option (List Concrete)
  | [] => some []
  | node (.sign text) role span children :: rest =>
      (propertiesToPatterns? rest).map (node (.sign text) role span children :: ·)
  | node (.construct .spreadElement) role span children :: rest => do
      let inner ← restToPattern? children
      return node (.construct .restPattern) role span inner :: (← propertiesToPatterns? rest)
  | node (.construct .shorthandIdentifier) role span children :: rest =>
      (propertiesToPatterns? rest).map
        (node (.construct .shorthandIdentifierPattern) role span children :: ·)
  | node (.construct .objectAssignmentPattern) role span children :: rest =>
      (propertiesToPatterns? rest).map
        (node (.construct .objectAssignmentPattern) role span children :: ·)
  | node (.construct .pair) role span (key :: children) :: rest => do
      let inner ← itemsToPatterns? children
      return node (.construct .pairPattern) role span (key :: inner) ::
        (← propertiesToPatterns? rest)
  | _ :: _ => none

end

mutual

/-- Are all defaults inside objects parts of patterns? -/
def isSettled : Concrete → Bool
  | node label _ _ children =>
      !(label == .construct .object && children.any fun c => c.is .objectAssignmentPattern) &&
        areSettled children

/-- Are all defaults inside objects of some trees parts of patterns? -/
def areSettled : List Concrete → Bool
  | [] => true
  | t :: rest => t.isSettled && areSettled rest

end

end Concrete

namespace Parser

open Concrete

/-- Do items have single commas between them, and at most one after the last? -/
def areSeparated (trailing : Bool) : List Concrete → Bool
  | [] => true
  | [item] => !item.isSign ","
  | [item, comma] => trailing && !item.isSign "," && comma.isSign ","
  | item :: comma :: rest =>
      !item.isSign "," && comma.isSign "," && areSeparated trailing rest

/-- Items in parentheses as the parameters of a function. -/
def toParameters (covered : List Concrete) : Parser Concrete := do
  let inner := (covered.drop 1).dropLast
  if areSeparated true inner then
    match itemsToPatterns? covered with
    | some parts => return .ofParts .formalParameters parts
    | none => failure
  else failure

/-- Items in parentheses as expressions that the parentheses group. -/
def toGroup (covered : List Concrete) : Parser Concrete := do
  let inner := (covered.drop 1).dropLast
  match covered.head?, covered.getLast? with
  | some openSign, some close =>
      if inner.isEmpty || !areSeparated false inner ||
          inner.any (fun t => t.is .spreadElement) then failure
      match inner with
      | [single] => return .ofParts .parenthesized [openSign, single, close]
      | several => return .ofParts .parenthesized [openSign, .ofParts .sequence several, close]
  | _, _ => failure

/-- Items in parentheses, which may turn out to be parameters. -/
def covered (go : Descent) : Parser (List Concrete) := items "(" ")" (spreadOrExpression go)

def parameters (go : Descent) : Parser Concrete := do
  toParameters (← covered go)

end Parser

end Pare
