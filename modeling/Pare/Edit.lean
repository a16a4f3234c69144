import Pare.Source

/-!
**Edits of a text.**

An `Edit` replaces one span of a text.  A `Patch` is a group of edits that belong together, in the
order of their places and apart from each other; it is applied as a whole or not at all.  Many
patches planned against one text are merged in a single pass: in the order of their places each is
accepted unless it touches one accepted before.

Edits that take something away are planned so that the words on both sides do not run together: a
space is left where two word characters would meet.

Main definitions:

* `Pare.Edit`, `Pare.Patch` — single and grouped replacements;
* `Pare.Patch.ofEdits?` — the group of some edits, unless they overlap;
* `Pare.splice`, `Pare.Patch.apply` — the text after edits;
* `Pare.Edit.delete`, `Pare.Edit.replace` — removal and replacement that keep words apart;
* `Pare.Edit.removeSign`, `Pare.Patch.removeGrouping` — removal of delimiters;
* `Pare.acceptApart`, `Pare.mergePatches` — which patches of one pass are applied, and the
  outcome.
-/

set_option relaxedAutoImplicit false
set_option autoImplicit false

namespace Pare

/-! ### Edits and patches -/

/-- The replacement of one span of a text. -/
structure Edit where
  /-- What is replaced. -/
  span : Span
  /-- The text that takes its place. -/
  text : String
deriving DecidableEq, Repr

def Edit.notAfter (a b : Edit) : Bool := a.span.notAfter b.span

/-- Does every edit end at or before the start of the next one? -/
def areApart : List Edit → Bool
  | a :: b :: rest => a.span.stop ≤ b.span.start && areApart (b :: rest)
  | _ => true

/-- A group of edits applied together: at least one. -/
structure Patch where
  /-- The edit with the first place. -/
  first : Edit
  /-- The other edits, in the order of their places. -/
  others : List Edit
deriving DecidableEq, Repr

namespace Patch

/-- The edits of a patch in the order of their places. -/
def edits (p : Patch) : List Edit := p.first :: p.others

/-- The patch with one edit. -/
def single (e : Edit) : Patch := ⟨e, []⟩

@[simp] theorem edits_single (e : Edit) : (single e).edits = [e] := rfl

/-- The group of some edits; there is none if there are no edits or two of them overlap. -/
def ofEdits? (edits : List Edit) : Option Patch :=
  match edits.mergeSort Edit.notAfter with
  | [] => none
  | first :: others => if areApart (first :: others) then some ⟨first, others⟩ else none

/-- The smallest span over all edits. -/
def span (p : Patch) : Span := p.others.foldl (fun acc e => acc.cover e.span) p.first.span

@[simp] theorem span_single (e : Edit) : (single e).span = e.span := rfl

end Patch

/-! ### Application -/

/-- The text from an offset on with the edits applied; a fault if an edit does not fit the text or
reaches back before the offset. -/
def splice (cs : List Char) : Nat → List Edit → Except Fault (List Char)
  | offset, [] => Text.beyond cs offset
  | offset, e :: rest => do
      let kept ← Text.between cs offset e.span.start
      let tail ← splice cs e.span.stop rest
      return kept ++ e.text.toList ++ tail

/-- The text after a patch. -/
def Patch.apply (p : Patch) (text : String) : Except Fault String :=
  String.ofList <$> splice text.toList 0 p.edits

/-! ### Keeping words apart -/

/-- Would the two characters, if both are there, read as one word? -/
def runTogether (a b : Option Char) : Bool :=
  match a, b with
  | some a, some b => Text.isWordChar a && Text.isWordChar b
  | _, _ => false

/-- The characters directly before and after a span. -/
def Source.around (s : Source) (span : Span) : Except Fault (Option Char × Option Char) := do
  let front ← Text.upTo s.text.toList span.start
  let back ← Text.beyond s.text.toList span.stop
  return (front.getLast?, back.head?)

namespace Edit

/-- The removal of a span; a space takes its place where the words on both sides would run
together. -/
def delete (s : Source) (span : Span) : Except Fault Edit := do
  let (left, right) ← s.around span
  return ⟨span, if runTogether left right then " " else ""⟩

/-- The replacement of a span, with a space on each side where the new text would run into a
neighbouring word. -/
def replace (s : Source) (span : Span) (text : String) : Except Fault Edit := do
  if text.isEmpty then delete s span
  else
    let (left, right) ← s.around span
    let lead := if runTogether left text.toList.head? then " " else ""
    let tail := if runTogether right text.toList.getLast? then " " else ""
    return ⟨span, lead ++ text ++ tail⟩

/-- The removal of a delimiter, refused if the token is not the expected one. -/
def removeSign (s : Source) (token : Token) (expected : String) : Except Fault (Option Edit) := do
  if token.isSign expected then return some (← delete s token.span) else return none

end Edit

/-- The removal of a pair of parentheses, refused if a token is not one. -/
def Patch.removeGrouping (s : Source) (left right : Token) : Except Fault (Option Patch) := do
  let some first ← Edit.removeSign s left "(" | return none
  let some second ← Edit.removeSign s right ")" | return none
  return ofEdits? [first, second]

/-! ### Merging -/

def Patch.notAfter (a b : Patch) : Bool := a.span.notAfter b.span

/-- The patches that start after `reach`, each accepted one moving `reach` to its stop. -/
def acceptApart : Option Nat → List Patch → List Patch
  | _, [] => []
  | reach, r :: rest =>
      if reach.any fun stop => r.span.start ≤ stop then acceptApart reach rest
      else r :: acceptApart (some r.span.stop) rest

/-- The patches of one pass that are applied: in the order of their places, each unless it touches
one accepted before. -/
def accepted (patches : List Patch) : List Patch :=
  acceptApart none (patches.mergeSort Patch.notAfter)

/-- The text after one pass and the number of patches that were applied. -/
def mergePatches (text : String) (patches : List Patch) : Except Fault (String × Nat) := do
  let chosen := accepted patches
  let out ← splice text.toList 0 (chosen.flatMap Patch.edits)
  return (String.ofList out, chosen.length)

end Pare
