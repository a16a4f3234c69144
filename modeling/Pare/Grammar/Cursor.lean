import Pare.Concrete.Basic

/-!
**A cursor over a text.**

The grammar reads a text from left to right through a cursor: how many bytes lie behind it, which
characters lie ahead, and the comments it has passed.  A parser is a step of the cursor that may
fail; after a failure another parser may try from the same place, since a failed parser leaves no
trace.

Main definitions:

* `Pare.Cursor` — a place in a text, with the comments passed so far;
* `Pare.Parser` — steps of a cursor that may fail;
* `Pare.Parser.take` — passes some characters and gives the span of them;
* `Pare.Parser.leaf` — passes a lexeme and makes a leaf of it;
* `Pare.Concrete.ofParts` — a construct that spans its parts.
-/

set_option relaxedAutoImplicit false
set_option autoImplicit false

namespace Pare

/-- A place in a text: what is behind, counted in bytes, what is ahead, and the comments passed so
far, the last one first. -/
structure Cursor where
  /-- The number of bytes behind the cursor. -/
  offset : Nat
  /-- The characters ahead. -/
  ahead : List Char
  /-- The comments passed so far, the last one first. -/
  comments : List Concrete
deriving Repr

/-- The cursor at the start of a text. -/
def Cursor.atStart (text : String) : Cursor := ⟨0, text.toList, []⟩

def Cursor.drop (c : Cursor) (count : Nat) : Cursor :=
  ⟨c.offset + Text.byteSize (c.ahead.take count), c.ahead.drop count, c.comments⟩

/-- Steps of a cursor that may fail. -/
abbrev Parser := StateT Cursor Option

namespace Concrete

/-- A construct that spans its parts, from the start of the first to the stop of the last. -/
def ofParts (c : Construct) (parts : List Concrete) : Concrete :=
  let start := (parts.head?.map fun p => p.span.start).getD 0
  let stop := (parts.getLast?.map fun p => p.span.stop).getD start
  node (.construct c) none (.upTo start stop) parts

/-- Is the node this operator, delimiter or keyword? -/
def isSign (t : Concrete) (text : String) : Bool := t.label == .sign text

end Concrete

namespace Parser

def ahead : Parser (List Char) := return (← get).ahead

/-- Passes some characters and gives the span of them. -/
def take (count : Nat) : Parser Span := do
  let before ← get
  let after := before.drop count
  set after
  return .upTo before.offset after.offset

/-- Passes a lexeme and makes a leaf of it.  The lexeme is given by its length in the characters
ahead; length zero means that it is not there. -/
def leaf (label : Label) (length : List Char → Nat) : Parser Concrete := do
  let count := length (← ahead)
  if count = 0 then failure
  return .node label none (← take count) []

/-- What a parser finds, as the only member of a list. -/
def one {α : Type} (p : Parser α) : Parser (List α) := (fun x => [x]) <$> p

/-- As many as there are, one after the other, up to a limit. -/
def manyUpTo {α : Type} (p : Parser α) : Nat → Parser (List α)
  | 0 => pure []
  | limit + 1 => do
      match ← optional p with
      | some x => return x :: (← manyUpTo p limit)
      | none => return []

/-- As many as there are, one after the other. -/
def many {α : Type} (p : Parser α) : Parser (List α) := do
  manyUpTo p (← ahead).length

end Parser

end Pare
