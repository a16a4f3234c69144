import Pare.Edit
import Pare.Tree.Basic

/-!
**What the rules report.**

A rule looks at a `Context`, a tree beside its source, and reports a `Detection`: which node is at
issue, what is redundant, the span to highlight, and a patch that removes it, unless none is safe.

Main definitions:

* `Pare.Issue` — the kinds of redundancy, with their keys, codes and messages;
* `Pare.Context` — a tree beside its source, with the look-ups the rules use;
* `Pare.Context.grouping` — the parentheses directly around a node;
* `Pare.Detection` — one reported redundancy.
-/

set_option relaxedAutoImplicit false
set_option autoImplicit false

namespace Pare

/-! ### Issues -/

/-- The kinds of redundancy. -/
inductive Issue where
  /-- Parentheses that change nothing. -/
  | parens
  /-- Access by a constant key in brackets. -/
  | brackets
  /-- Braces around a single statement, or around the value an arrow function returns. -/
  | braces
deriving DecidableEq, Repr

namespace Issue

/-- All kinds of redundancy, in the order of their codes. -/
def all : List Issue := [parens, brackets, braces]

/-- The stable key of the message. -/
def key : Issue → String
  | parens => "unnecessaryParens"
  | brackets => "useDotNotation"
  | braces => "unnecessaryBraces"

/-- The message shown for an issue. -/
def message : Issue → String
  | parens => "Unnecessary parentheses."
  | brackets => "Use dot notation instead of bracket notation."
  | braces => "Unnecessary braces around a single statement."

/-- The short code of an issue. -/
def code : Issue → String
  | parens => "OU001"
  | brackets => "OU002"
  | braces => "OU003"

/-- The name of an issue in machine-readable reports. -/
def tag : Issue → String
  | parens => "UnnecessaryParens"
  | brackets => "UseDotNotation"
  | braces => "UnnecessaryBraces"

end Issue

/-! ### Contexts -/

/-- A tree beside the source it describes. -/
structure Context where
  tree : Tree
  source : Source
deriving DecidableEq, Repr

namespace Context

def kind (ctx : Context) (id : NodeId) : Except Fault (Kind NodeId) := ctx.tree.kind id

def span (ctx : Context) (id : NodeId) : Except Fault Span := ctx.tree.span id

def parent (ctx : Context) (id : NodeId) : Except Fault (Option NodeId) := ctx.tree.parent id

def firstToken (ctx : Context) (id : NodeId) : Except Fault (Option Token) := do
  return ctx.source.firstToken (← ctx.span id)

def lastToken (ctx : Context) (id : NodeId) : Except Fault (Option Token) := do
  return ctx.source.lastToken (← ctx.span id)

/-- The parentheses directly around a span, if both are there. -/
def groupingAt (ctx : Context) (span : Span) : Option (Token × Token) := do
  let before ← ctx.source.tokenBefore span
  let after ← ctx.source.tokenAfter span
  let grouped := before.isSign "(" && before.span.stop ≤ span.start &&
    after.isSign ")" && span.stop ≤ after.span.start
  if grouped then some (before, after) else none

/-- The parentheses directly around a node, if both are there. -/
def grouping (ctx : Context) (id : NodeId) : Except Fault (Option (Token × Token)) := do
  return ctx.groupingAt (← ctx.span id)

end Context

/-! ### Detections -/

/-- One reported redundancy. -/
structure Detection where
  /-- The node at issue. -/
  node : NodeId
  /-- What is redundant. -/
  issue : Issue
  /-- The span to highlight. -/
  span : Span
  /-- The patch that removes the redundancy, if one is safe. -/
  patch : Option Patch
deriving DecidableEq, Repr

/-- Can the redundancy be removed? -/
def Detection.isFixable (d : Detection) : Bool := d.patch.isSome

end Pare
