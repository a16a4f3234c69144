import Pare.Text.Offset
import Pare.Text.Class
import Pare.Token

/-!
**A source text with its tokens.**

A `Source` keeps a text beside two streams, its code tokens and its comments, each ordered by where
its members start.  All questions the rules ask about the neighbourhood of a place in the text are
answered here by binary search in these streams.

Main definitions:

* `Pare.Source`, `Pare.Source.ofTokens` — a text with its streams, built from tokens in any order;
* `Pare.partitionPoint` — where a predicate turns from true to false along an array;
* `Pare.Source.tokenBefore`, `Pare.Source.tokenAfter` — the neighbours of a span;
* `Pare.Source.firstToken`, `Pare.Source.lastToken` — the outermost tokens inside a span;
* `Pare.Source.commentsIn`, `Pare.Source.tokensBetween` — what lies inside a span;
* `Pare.Source.blankBetween`, `Pare.Source.breakBetween` — the text between two offsets;
* `Pare.Source.position` — line and column of an offset.
-/

set_option relaxedAutoImplicit false
set_option autoImplicit false

namespace Pare

/-! ### Binary search -/

/-- Narrows the `size` indices from `base` on to one, keeping a boundary of `p` inside. -/
def narrow (p : Nat → Bool) (base size : Nat) : Nat :=
  if size ≤ 1 then base
  else
    let half := size / 2
    narrow p (if p (base + half) then base + half else base) (size - half)
termination_by size

/-- The number of leading indices below `size` that satisfy `p`, if `p` never turns from false to
true along them. -/
def boundary (p : Nat → Bool) (size : Nat) : Nat :=
  if size = 0 then 0
  else
    let base := narrow p 0 size
    if p base then base + 1 else base

/-- Where a predicate turns from true to false along an array. -/
def partitionPoint {α : Type} (p : α → Bool) (xs : Array α) : Nat :=
  boundary (fun i => (xs[i]?).any p) xs.size

/-! ### Sources -/

/-- A text with its code tokens and its comments, each in order of their starts. -/
structure Source where
  /-- The text itself. -/
  text : String
  /-- The code tokens, ordered by start. -/
  tokens : Array Token
  /-- The comments, ordered by start. -/
  comments : Array Token
deriving DecidableEq, Repr

namespace Source

/-- A text with tokens given in any order; comments are set apart, and tokens with one start keep
their order. -/
def ofTokens (text : String) (tokens : List Token) : Source where
  text := text
  tokens := ((tokens.filter fun t => !t.isComment).mergeSort Token.startsBy).toArray
  comments := ((tokens.filter Token.isComment).mergeSort Token.startsBy).toArray

@[simp] theorem text_ofTokens (text : String) (tokens : List Token) :
    (ofTokens text tokens).text = text := rfl

/-- The text of a span, empty if the span does not fit the text. -/
def slice (s : Source) (span : Span) : String := Text.excerpt s.text.toList span

/-! ### Neighbours -/

/-- The last code token that ends at or before the start of the span. -/
def tokenBefore (s : Source) (span : Span) : Option Token :=
  match partitionPoint (fun t => t.span.stop ≤ span.start) s.tokens with
  | 0 => none
  | i + 1 => s.tokens[i]?

/-- The first code token that starts at or after the stop of the span. -/
def tokenAfter (s : Source) (span : Span) : Option Token :=
  s.tokens[partitionPoint (fun t => t.span.start < span.stop) s.tokens]?

def firstToken (s : Source) (span : Span) : Option Token :=
  (s.tokenAfter (.point span.start)).filter fun t => t.span.stop ≤ span.stop

def lastToken (s : Source) (span : Span) : Option Token :=
  (s.tokenBefore (.point span.stop)).filter fun t => span.start ≤ t.span.start

/-! ### Contents -/

def commentsIn (s : Source) (span : Span) : List Token :=
  let first := partitionPoint (fun c => c.span.start < span.start) s.comments
  ((s.comments.toList.drop first).takeWhile fun c => c.span.start < span.stop).filter
    fun c => c.span.stop ≤ span.stop

/-- Does a comment lie inside the span? -/
def hasCommentsIn (s : Source) (span : Span) : Bool := !(s.commentsIn span).isEmpty

/-- The code tokens between two tokens, and on request the comments too, in order. -/
def tokensBetween (s : Source) (a b : Token) (withComments : Bool) : List Token :=
  let gap := Span.upTo a.span.stop b.span.start
  let inside := s.tokens.toList.filter fun t => gap.contains t.span
  if withComments then (inside ++ s.commentsIn gap).mergeSort Token.startsBy else inside

/-- The text between two offsets, empty if they do not fit the text. -/
def gapText (s : Source) (start stop : Nat) : List Char :=
  (Text.cut? s.text.toList start stop).getD []

/-- Do only blanks lie between the two offsets? -/
def blankBetween (s : Source) (start stop : Nat) : Bool :=
  stop ≤ start || (s.gapText start stop).all Text.isBlank

/-- The characters that end a line. -/
def isLineBreak (c : Char) : Bool :=
  c == '\n' || c == '\r' || c == '\u2028' || c == '\u2029'

/-- Does a line end between the two offsets? -/
def breakBetween (s : Source) (start stop : Nat) : Bool :=
  start < stop && (s.gapText start stop).any isLineBreak

/-! ### Positions -/

/-- The offsets after the newlines of a text whose first character has the given offset. -/
def startsAfterNewlines : Nat → List Char → List Nat
  | _, [] => []
  | offset, c :: cs =>
      let next := offset + c.utf8Size
      if c = '\n' then next :: startsAfterNewlines next cs else startsAfterNewlines next cs

/-- The offsets at which the lines of the text start. -/
def lineStarts (s : Source) : List Nat := 0 :: startsAfterNewlines 0 s.text.toList

/-- A place in a text by line and column, both counted from one. -/
structure Position where
  line : Nat
  column : Nat
deriving DecidableEq, Repr

/-- Line and column of an offset; columns count characters. -/
def position (s : Source) (offset : Nat) : Position :=
  let starts := s.lineStarts
  let line := max (starts.takeWhile fun start => start ≤ offset).length 1
  let lineStart := starts.getD (line - 1) 0
  let before := Text.cut? s.text.toList lineStart (min offset (Text.byteSize s.text.toList))
  ⟨line, (before.map List.length).getD 0 + 1⟩

end Source

end Pare
