import Pare.Rule.Indexing
import Pare.Rule.Grouping
import Pare.Rule.Braces
import Pare.Rule.ArrowBody

/-!
**The rule.**

Four detectors look at every node of a tree.  What they report comes back in the order of the
highlighted spans, and a node is not reported twice in a row for one issue.  The rule is the four of
them together, switched on or off as a whole.

Main definitions:

* `Pare.Detector`, `Pare.Detector.check` — the detectors and what each reports at a node;
* `Pare.walk` — the reports of some detectors over a whole tree;
* `Pare.Rule`, `Pare.Rule.run` — all detectors, on or off.
-/

set_option relaxedAutoImplicit false
set_option autoImplicit false

namespace Pare

/-! ### Detectors -/

/-- The detectors, by what they look for. -/
inductive Detector where
  | indexing
  | grouping
  | braces
  | arrowBody
deriving DecidableEq, Repr

namespace Detector

def name : Detector → String
  | indexing => "dot-notation"
  | grouping => "redundant-parens"
  | braces => "redundant-braces"
  | arrowBody => "arrow-body"

/-- All detectors, in the order in which they look at a node. -/
def all : List Detector := [indexing, grouping, braces, arrowBody]

/-- The detector with a name. -/
def ofName? (text : String) : Option Detector := all.find? fun d => d.name == text

/-- What a detector reports at a node. -/
def check (ctx : Context) (node : NodeId) : Detector → Except Fault (List Detection)
  | indexing => return (← checkIndexing ctx node).toList
  | grouping => do
      let found ← (groupingPlaces (← ctx.kind node)).mapM (checkGrouping ctx)
      return found.filterMap id
  | braces => do
      let found ← (controlledBlocks (← ctx.kind node)).mapM fun block => checkBlock ctx block node
      return found.filterMap id
  | arrowBody => return (← checkArrowBody ctx node).toList

end Detector

/-! ### The walk -/

/-- The order of reports by their spans. -/
def Detection.notAfter (a b : Detection) : Bool := a.span.notAfter b.span

/-- Do two reports name one node and one issue? -/
def Detection.repeats (a b : Detection) : Bool := a.node == b.node && a.issue == b.issue

/-- Drops what repeats the report kept before it. -/
def dropRepeatsAfter : Detection → List Detection → List Detection
  | _, [] => []
  | kept, d :: rest =>
      if d.repeats kept then dropRepeatsAfter kept rest else d :: dropRepeatsAfter d rest

/-- Drops what repeats the report kept before it. -/
def dropRepeats : List Detection → List Detection
  | [] => []
  | d :: rest => d :: dropRepeatsAfter d rest

/-- The reports of the detectors at the given nodes, node by node. -/
def reportsAt (ctx : Context) (detectors : List Detector) (nodes : List NodeId) :
    Except Fault (List Detection) := do
  let perNode ← nodes.mapM fun node => detectors.mapM (Detector.check ctx node)
  return perNode.flatten.flatten

/-- The reports of some detectors over a whole tree, in the order of their spans. -/
def walk (ctx : Context) (detectors : List Detector) : Except Fault (List Detection) := do
  let nodes ← ctx.tree.descendants Tree.root
  let found ← reportsAt ctx detectors nodes
  return dropRepeats (found.mergeSort Detection.notAfter)

/-! ### The rule -/

/-- All detectors, on or off as a whole. -/
structure Rule where
  enabled : Bool := true
deriving DecidableEq, Repr

namespace Rule

def name : String := "omit-unnecessary-parens-brackets"

/-- What the rule reports; nothing if it is off. -/
def run (rule : Rule) (ctx : Context) : Except Fault (List Detection) :=
  if rule.enabled then walk ctx Detector.all else return []

end Rule

end Pare
