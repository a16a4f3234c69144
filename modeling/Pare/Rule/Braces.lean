import Pare.Detection

/-!
**Blocks around a single statement.**

The branch of an `if` or the body of a loop needs no block when it is one statement.  The block is
reported unless the statement is a declaration, whose scope the block limits, or a block itself, or
an `if` directly inside the branch of an `if` without `else`.  It is rewritten to the statement when
the statement stays terminated without the closing brace, no line comment would swallow what
follows, and no `else` would attach to an inner `if`.

Main definitions:

* `Pare.controlledBlocks` — the branches or the body of a construct;
* `Pare.isTerminated`, `Pare.endsOpen` — how a statement ends;
* `Pare.checkBlock` — the report for a branch or body, if its braces are redundant.
-/

set_option relaxedAutoImplicit false
set_option autoImplicit false

namespace Pare

/-- The branches of an `if` or the body of a loop. -/
def controlledBlocks : Kind NodeId → List NodeId
  | .ifStatement _ consequent alternate => consequent :: alternate.toList
  | .forStatement _ _ _ body | .forInStatement _ _ body _ | .whileStatement _ body
  | .doWhileStatement body _ => [body]
  | _ => []

/-! ### How a statement ends -/

/-- Does the statement end without a supplied semicolon?  At most `depth` statements are looked
into. -/
def isTerminatedIn (ctx : Context) : Nat → NodeId → Except Fault Bool
  | 0, _ => .error .endless
  | depth + 1, stmt => do
      let some last ← ctx.lastToken stmt | return false
      if last.isSign ";" then return true
      match ← ctx.kind stmt with
      | .ifStatement _ consequent alternate =>
          isTerminatedIn ctx depth (alternate.getD consequent)
      | .forStatement _ _ _ body | .forInStatement _ _ body _ | .whileStatement _ body =>
          isTerminatedIn ctx depth body
      | .block _ => return true
      | .other _ => return last.isSign "\x7d"
      | _ => return false

/-- Does the statement end without a supplied semicolon? -/
def isTerminated (ctx : Context) (stmt : NodeId) : Except Fault Bool :=
  isTerminatedIn ctx (ctx.tree.size + 1) stmt

/-- Does the statement end in an `if` that an `else` could attach to?  At most `depth` statements
are looked into. -/
def endsOpenIn (ctx : Context) : Nat → NodeId → Except Fault Bool
  | 0, _ => .error .endless
  | depth + 1, stmt => do
      match ← ctx.kind stmt with
      | .ifStatement _ _ none => return true
      | .ifStatement _ _ (some alternate) => endsOpenIn ctx depth alternate
      | .forStatement _ _ _ body | .forInStatement _ _ body _ | .whileStatement _ body =>
          endsOpenIn ctx depth body
      | _ => return false

/-- Does the statement end in an `if` that an `else` could attach to? -/
def endsOpen (ctx : Context) (stmt : NodeId) : Except Fault Bool :=
  endsOpenIn ctx (ctx.tree.size + 1) stmt

/-- Is a semicolon still supplied at the old end of the block, before the token that follows? -/
def endsCleanly (ctx : Context) (blockEnd : Nat) : Bool :=
  match ctx.source.tokenAfter (.point blockEnd) with
  | none => true
  | some next =>
      next.isSign "\x7d" ||
        ctx.source.breakBetween blockEnd next.span.start && !next.continuesExpression

/-- Is the next token this word? -/
def nextIsWord (ctx : Context) (offset : Nat) (word : String) : Bool :=
  (ctx.source.tokenAfter (.point offset)).any fun t => t.isWord word

/-! ### The patch and the report -/

/-- The patch of a block to the statement in it. -/
def unwrapPatch (ctx : Context) (block stmt : NodeId) : Except Fault (Option Patch) := do
  let blockSpan ← ctx.span block
  let some left ← ctx.firstToken block | return none
  let some right ← ctx.lastToken block | return none
  if !left.isSign "\x7b" || !right.isSign "\x7d" then return none
  let some first ← ctx.firstToken stmt | return none
  let some last ← ctx.lastToken stmt | return none
  let some afterLeft := ctx.source.tokenAfter left.span | return none
  let some beforeRight := ctx.source.tokenBefore right.span | return none
  if afterLeft.span != first.span || beforeRight.span != last.span then return none
  let trailing ← Span.ofBounds last.span.stop right.span.start
  if (ctx.source.commentsIn trailing).any fun c => c.kind == .lineComment then return none
  if !(← isTerminated ctx stmt) && !endsCleanly ctx right.span.stop then return none
  if (← endsOpen ctx stmt) && nextIsWord ctx right.span.stop "else" then return none
  let inner ← Span.ofBounds left.span.stop right.span.start
  let text := String.ofList (Text.trim (ctx.source.slice inner).toList)
  return some (.single (← Edit.replace ctx.source blockSpan text))

/-- The report for a block that is a branch or the body of `controlling`. -/
def checkBlock (ctx : Context) (block controlling : NodeId) :
    Except Fault (Option Detection) := do
  let .block [stmt] ← ctx.kind block | return none
  let stmtKind ← ctx.kind stmt
  if stmtKind.isDeclaration then return none
  if let .block _ := stmtKind then return none
  let span ← ctx.span block
  if let .ifStatement _ consequent alternate ← ctx.kind controlling then
    if let .ifStatement .. := stmtKind then
      if consequent == block then
        if alternate.isNone then return none
        if ← endsOpen ctx stmt then return some ⟨block, .braces, span, none⟩
  return some ⟨block, .braces, span, ← unwrapPatch ctx block stmt⟩

end Pare
