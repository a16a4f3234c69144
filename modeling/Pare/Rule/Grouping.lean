import Pare.Detection

/-!
**Grouping parentheses that change nothing.**

Grouping is no node of the tree; it shows only in the tokens around a node.  The rule looks at the
places where an expression may be grouped and reports the parentheses directly around it when

* the parent is grouped too, and its parentheses are the next ones outside;
* a literal or an identifier is initialized with, returned, listed, or stands as a statement, unless
  the bare statement would mean something else;
* an `await` or a `yield` is a statement, an initializer, a returned or an assigned value;
* the body of an arrow function is neither an object nor a sequence and starts with no brace;
* an element of markup is returned.

Removing the parentheses after `return` must not leave the value on another line, so there the value
is pulled up to the keyword.

Main definitions:

* `Pare.groupingPlaces` — the parts of a construct whose grouping is looked at;
* `Pare.isRedundantGrouping` — the conditions above;
* `Pare.checkGrouping` — the report for the parentheses around a node, if they are redundant.
-/

set_option relaxedAutoImplicit false
set_option autoImplicit false

namespace Pare

/-- The parts of a construct whose grouping is looked at. -/
def groupingPlaces : Kind NodeId → List NodeId
  | .declarator _ init => init.toList
  | .expressionStatement expression => [expression]
  | .returnStatement argument => argument.toList
  | .arrow _ body true _ => [body]
  | .binary _ left right | .logical _ left right => [left, right]
  | .assignment operator _ right => if operator == "=" then [right] else []
  | .unary _ argument | .await argument => [argument]
  | .yield argument _ => argument.toList
  | .conditional test consequent alternate => [test, consequent, alternate]
  | .call callee arguments _ | .construct callee arguments => arguments ++ [callee]
  | .array elements => elements
  | .property _ value _ _ _ => [value]
  | _ => []

/-! ### Conditions -/

/-- Are the parentheses of the parent the next ones outside? -/
def isDoubleGrouped (ctx : Context) (parent : NodeId) (left right : Token) :
    Except Fault Bool := do
  let some (outerLeft, outerRight) ← ctx.grouping parent | return false
  let before := (ctx.source.tokenBefore left.span).map Token.span
  let after := (ctx.source.tokenAfter right.span).map Token.span
  return before == some outerLeft.span && after == some outerRight.span

/-- Is the statement nothing but a string? -/
def isStringStatement (ctx : Context) (id : NodeId) : Except Fault Bool := do
  match ← ctx.kind id with
  | .expressionStatement expression =>
      match ← ctx.kind expression with
      | .literal (.string _) => return true
      | _ => return false
  | _ => return false

/-- Is the statement in the list, with only strings before it? -/
def leadsWithStrings (ctx : Context) (stmt : NodeId) : List NodeId → Except Fault Bool
  | [] => return false
  | candidate :: rest => do
      if candidate == stmt then return true
      else if ← isStringStatement ctx candidate then leadsWithStrings ctx stmt rest
      else return false

/-- Would a bare string in place of the statement be a directive? -/
def inPrologue (ctx : Context) (stmt : NodeId) : Except Fault Bool := do
  let some body ← ctx.tree.enclosingBody stmt | return false
  leadsWithStrings ctx stmt body

/-- Would the statement mean something else without the parentheses? -/
def statementNeedsGrouping (ctx : Context) (node stmt : NodeId) : Except Fault Bool := do
  match ← ctx.kind node with
  | .identifier name => return name == "let"
  | .literal (.string _) => inPrologue ctx stmt
  | _ => return false

/-- Is a literal or an identifier in a place where it is read as it stands? -/
def isPrimaryPlace (ctx : Context) (node parent : NodeId) : Except Fault Bool := do
  if !(← ctx.kind node).isAtom then return false
  match ← ctx.kind parent with
  | .declarator _ init => return init == some node
  | .returnStatement argument => return argument == some node
  | .expressionStatement expression =>
      if expression == node then return !(← statementNeedsGrouping ctx node parent)
      else return false
  | .array elements => return elements.contains node
  | .property _ value shorthand method _ => return value == node && !method && !shorthand
  | _ => return false

/-- Is an `await` or a `yield` in a place where it extends to the end anyway? -/
def isSuspendPlace (ctx : Context) (node parent : NodeId) : Except Fault Bool := do
  match ← ctx.kind node with
  | .await _ | .yield _ _ =>
      match ← ctx.kind parent with
      | .expressionStatement _ | .declarator _ _ | .returnStatement _ => return true
      | .assignment operator _ right => return operator == "=" && right == node
      | _ => return false
  | _ => return false

/-- Is the node the body of an arrow function, and would it not read as a block? -/
def isPlainArrowBody (ctx : Context) (node parent : NodeId) : Except Fault Bool := do
  let .arrow _ body true _ ← ctx.kind parent | return false
  if body != node then return false
  match ← ctx.kind node with
  | .object _ | .sequence _ => return false
  | _ => return !((← ctx.firstToken node).any fun t => t.isSign "\x7b")

/-- Is an element of markup returned? -/
def isReturnedJsx (ctx : Context) (node parent : NodeId) : Except Fault Bool := do
  if !(← ctx.kind node).isJsx then return false
  match ← ctx.kind parent with
  | .returnStatement argument => return argument == some node
  | _ => return false

/-- Do the parentheses `left` and `right` around a node change nothing? -/
def isRedundantGrouping (ctx : Context) (node parent : NodeId) (left right : Token) :
    Except Fault Bool := do
  if ← isDoubleGrouped ctx parent left right then return true
  if ← isPrimaryPlace ctx node parent then return true
  if ← isSuspendPlace ctx node parent then return true
  if ← isPlainArrowBody ctx node parent then return true
  isReturnedJsx ctx node parent

/-! ### Patches -/

/-- Must a returned value be pulled up to the keyword?  Only if the parentheses directly follow the
keyword, and the value is markup or stands on another line. -/
def needsPullUp (ctx : Context) (node parent : NodeId) (left : Token) : Except Fault Bool := do
  let .returnStatement _ ← ctx.kind parent | return false
  let some keyword ← ctx.firstToken parent | return false
  if (ctx.source.tokenAfter keyword.span).map Token.span != some left.span then return false
  if (← ctx.kind node).isJsx then return true
  return ctx.source.breakBetween keyword.span.stop (← ctx.span node).start

/-- The patch that leaves one space between the keyword and the value and removes what stands
between the value and the closing parenthesis. -/
def pullUpPatch (ctx : Context) (node parent : NodeId) (right : Token) :
    Except Fault (Option Patch) := do
  let some keyword ← ctx.firstToken parent | return none
  if !keyword.isWord "return" || !right.isSign ")" then return none
  let span ← ctx.span node
  let lead ← Span.ofBounds keyword.span.stop span.start
  let tail ← Span.ofBounds span.stop right.span.stop
  if ctx.source.hasCommentsIn lead || ctx.source.hasCommentsIn tail then return none
  return Patch.ofEdits? [⟨lead, " "⟩, ← Edit.delete ctx.source tail]

/-- The report for the parentheses directly around a node. -/
def checkGrouping (ctx : Context) (node : NodeId) : Except Fault (Option Detection) := do
  let some (left, right) ← ctx.grouping node | return none
  let some parent ← ctx.parent node | return none
  if !(← isRedundantGrouping ctx node parent left right) then return none
  let span ← Span.ofBounds left.span.start right.span.stop
  let patch ←
    if ← needsPullUp ctx node parent left then pullUpPatch ctx node parent right
    else Patch.removeGrouping ctx.source left right
  return some ⟨node, .parens, span, patch⟩

end Pare
