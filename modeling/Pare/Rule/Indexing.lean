import Pare.Detection
import Pare.Name

/-!
**Access by a constant key in brackets.**

`config["timeout"]` says no more than `config.timeout`.  The access is reported when its key is a
string literal without escapes that can be written after a dot, and it is rewritten when nothing but
blanks stands between the object and the bracket and no comment stands inside the brackets.  An
integer object is reported only: the dot would become its decimal point.

Main definitions:

* `Pare.checkIndexing` — the report for an access, if its brackets are redundant.
-/

set_option relaxedAutoImplicit false
set_option autoImplicit false

namespace Pare

/-- Is the node a number whose text has only digits and separators, so that a dot after it would
become its decimal point? -/
def isInteger (ctx : Context) (id : NodeId) : Except Fault Bool := do
  match ← ctx.kind id with
  | .literal .number =>
      let text := ctx.source.slice (← ctx.span id)
      return text.toList.all fun c => c.isDigit || c == '_'
  | _ => return false

/-- The patch of the brackets around `key` to a dot and the name. -/
def dotPatch (ctx : Context) (object key : NodeId) (name : String) :
    Except Fault (Option Patch) := do
  let keySpan ← ctx.span key
  let some left := ctx.source.tokenBefore keySpan | return none
  let some right := ctx.source.tokenAfter keySpan | return none
  if !left.isSign "[" || !right.isSign "]" then return none
  let objectSpan ← ctx.span object
  let brackets ← Span.ofBounds left.span.start right.span.stop
  if !ctx.source.blankBetween objectSpan.stop left.span.start ||
      ctx.source.hasCommentsIn brackets then
    return none
  if ← isInteger ctx object then return none
  return some (.single ⟨brackets, "." ++ name⟩)

/-- The report for an access by a constant key in brackets. -/
def checkIndexing (ctx : Context) (id : NodeId) : Except Fault (Option Detection) := do
  let .member object key true false ← ctx.kind id | return none
  let .literal (.string (some name)) ← ctx.kind key | return none
  if !isBareName name then return none
  let keySpan ← ctx.span key
  return some ⟨key, .brackets, keySpan, ← dotPatch ctx object key name⟩

end Pare
