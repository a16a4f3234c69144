import Pare.Span
import Pare.Tree.Kind

/-!
**Numbered trees.**

The tree of a program is an array of nodes.  A node is referred to by its number; it knows its kind,
with the numbers of its parts, its span, and the number of its parent.  Number zero is the program.
Nothing ties the two directions together: parents and parts may disagree in a tree that was not made
by this library, and a number may have no node at all, which is a `Fault` when it is looked up.

Main definitions:

* `Pare.Node`, `Pare.Tree` — a node and an array of them;
* `Pare.Tree.kind`, `Pare.Tree.span`, `Pare.Tree.parent` — look-ups by number;
* `Pare.Tree.descendants` — a node and all below it, parents before their parts and parts in order;
* `Pare.Tree.enclosingBody` — the statements of the program or function body a statement is in.
-/

set_option relaxedAutoImplicit false
set_option autoImplicit false

namespace Pare

/-- The number of a node in its tree. -/
abbrev NodeId := Nat

/-- A node: its kind, its place, and its parent, which only the program lacks. -/
structure Node where
  kind : Kind NodeId
  span : Span
  parent : Option NodeId
deriving DecidableEq, Repr

/-- A tree as an array of nodes, the program first. -/
structure Tree where
  nodes : Array Node
deriving DecidableEq, Repr

namespace Tree

/-- The number of the program. -/
def root : NodeId := 0

def size (t : Tree) : Nat := t.nodes.size

/-! ### Look-ups -/

def node (t : Tree) (id : NodeId) : Except Fault Node :=
  match t.nodes[id]? with
  | some node => .ok node
  | none => .error (.noNode id)

def kind (t : Tree) (id : NodeId) : Except Fault (Kind NodeId) := Node.kind <$> t.node id

def span (t : Tree) (id : NodeId) : Except Fault Span := Node.span <$> t.node id

def parent (t : Tree) (id : NodeId) : Except Fault (Option NodeId) := Node.parent <$> t.node id

theorem node_of_getElem? {t : Tree} {id : NodeId} {n : Node} (h : t.nodes[id]? = some n) :
    t.node id = .ok n := by
  simp [node, h]

/-! ### Descendants -/

/-- The parts of a node; a missing node has none. -/
def parts (t : Tree) (id : NodeId) : List NodeId :=
  match t.nodes[id]? with
  | some node => node.kind.children
  | none => []

/-- How many nodes a walk from `id` visits, when it goes at most `depth` levels down. -/
def visits (t : Tree) : Nat → NodeId → Nat
  | 0, _ => 1
  | depth + 1, id => (t.parts id).foldl (fun count part => count + t.visits depth part) 1

/-- Visits what is on the stack, replacing each node by its parts, for at most `fuel` steps. -/
def walkStack (t : Tree) : Nat → List NodeId → Except Fault (List NodeId)
  | _, [] => .ok []
  | 0, _ :: _ => .error .endless
  | fuel + 1, id :: stack => do
      let kind ← t.kind id
      let rest ← t.walkStack fuel (kind.children ++ stack)
      return id :: rest

/-- A node and all below it: parents before their parts, and parts in order. -/
def descendants (t : Tree) (start : NodeId) : Except Fault (List NodeId) :=
  t.walkStack (t.visits t.size start) [start]

/-! ### Bodies -/

/-- The statements of the program or function body that directly holds a statement. -/
def enclosingBody (t : Tree) (id : NodeId) : Except Fault (Option (List NodeId)) := do
  let some parent ← t.parent id | return none
  match ← t.kind parent with
  | .program body => return some body
  | .block body =>
      let some owner ← t.parent parent | return none
      match ← t.kind owner with
      | .functionDeclaration _ | .function _ | .arrow .. => return some body
      | _ => return none
  | _ => return none

end Tree

end Pare
