import Pare.Detection

/-!
**Arrow functions that only return a value.**

`() => { return a }` says no more than `() => a`.  The block is reported when it holds nothing but a
`return` with a value.  It is rewritten when no comment stands outside the value and the token after
the function would not extend the value.  The value keeps its tokens and comments; each gap between
them becomes one space, except where a line break has to stay: after a line comment, and inside
nested functions and classes, where it may end a statement.

Main definitions:

* `Pare.joinItems` — tokens and comments with their gaps narrowed;
* `Pare.bodyPatch` — the patch of a block to the value it returns;
* `Pare.checkArrowBody` — the report for an arrow function, if its braces are redundant.
-/

set_option relaxedAutoImplicit false
set_option autoImplicit false

namespace Pare

/-- Does the value hold nested functions or classes, in which line breaks may end statements? -/
def hasStatements (ctx : Context) (argument : NodeId) (items : List Token) :
    Except Fault Bool := do
  if items.any fun t => t.isWord "class" then return true
  (← ctx.tree.descendants argument).anyM fun id => do
    match ← ctx.kind id with
    | .block _ => return true
    | _ => return false

/-- What is written between two neighbouring items. -/
def gapBetween (ctx : Context) (keepBreaks : Bool) (a b : Token) : Except Fault String := do
  let gap ← Span.ofBounds a.span.stop b.span.start
  if gap.isEmpty then return ""
  else if ctx.source.breakBetween gap.start gap.stop && (keepBreaks || a.kind == .lineComment) then
    return ctx.source.slice gap
  else return " "

/-- The items after `previous`, each with the gap in front of it. -/
def joinAfter (ctx : Context) (keepBreaks : Bool) : Token → List Token → Except Fault String
  | _, [] => return ""
  | previous, item :: rest => do
      let gap ← gapBetween ctx keepBreaks previous item
      return gap ++ item.value ++ (← joinAfter ctx keepBreaks item rest)

/-- Tokens and comments with their gaps narrowed. -/
def joinItems (ctx : Context) (keepBreaks : Bool) : List Token → Except Fault String
  | [] => return ""
  | item :: rest => do return item.value ++ (← joinAfter ctx keepBreaks item rest)

/-- The tokens after which nothing can extend the body of an arrow function. -/
def closingSigns : List String := [")", "]", "\x7d", ",", ";", ":"]

/-- Would the token after the function extend its body? -/
def extendsBody (next : Token) : Bool :=
  !closingSigns.contains next.value && next.continuesExpression

def isSequence : Kind NodeId → Bool
  | .sequence _ => true
  | _ => false

/-- The patch of the block of an arrow function to the value it returns. -/
def bodyPatch (ctx : Context) (block stmt argument : NodeId) :
    Except Fault (Option Patch) := do
  let blockSpan ← ctx.span block
  let some arrow := ctx.source.tokenBefore blockSpan | return none
  let some left ← ctx.firstToken block | return none
  let some right ← ctx.lastToken block | return none
  let some keyword ← ctx.firstToken stmt | return none
  if !arrow.isSign "=>" || !left.isSign "\x7b" || !right.isSign "\x7d" ||
      !keyword.isWord "return" then
    return none
  let argumentSpan ← ctx.span argument
  let gaps ← [(arrow.span.stop, left.span.start), (left.span.stop, keyword.span.start),
    (keyword.span.stop, argumentSpan.start), (argumentSpan.stop, right.span.start)].mapM
      fun bounds => Span.ofBounds bounds.1 bounds.2
  if gaps.any ctx.source.hasCommentsIn then return none
  if (ctx.source.tokenAfter blockSpan).any extendsBody then return none
  let some stmtLast ← ctx.lastToken stmt | return none
  let stop := if stmtLast.isSign ";" then stmtLast else right
  let items := ctx.source.tokensBetween keyword stop true
  let some first := items.head? | return none
  let text ← joinItems ctx (← hasStatements ctx argument items) items
  let wrap := first.isSign "\x7b" || isSequence (← ctx.kind argument) && !first.isSign "("
  let replaced ← Span.ofBounds arrow.span.stop blockSpan.stop
  return some (.single ⟨replaced, if wrap then " (" ++ text ++ ")" else " " ++ text⟩)

/-- The report for an arrow function whose block only returns a value. -/
def checkArrowBody (ctx : Context) (arrow : NodeId) : Except Fault (Option Detection) := do
  let .arrow _ body false _ ← ctx.kind arrow | return none
  let .block [stmt] ← ctx.kind body | return none
  let .returnStatement (some argument) ← ctx.kind stmt | return none
  let span ← ctx.span body
  return some ⟨body, .braces, span, ← bodyPatch ctx body stmt argument⟩

end Pare
