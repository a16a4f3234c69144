import Pare.Concrete.Ast
import Pare.Detection
import Pare.Grammar.Statement

/-!
**Programs.**

The parsers of the single constructs, tied together, and what a text becomes by them: a concrete
tree, and from it the tree and the tokens that the rules work on.

Main definitions:

* `Pare.Grammar.derive` — the parser of a goal from the parsers of what is inside;
* `Pare.Grammar.run` — the parser of a goal, down to a depth;
* `Pare.Grammar.program?` — the concrete tree of a text;
* `Pare.Concrete.toContext` — the tree and the tokens of a program;
* `Pare.Context.ofText?` — the tree and the tokens of a text, if it is a program.
-/

set_option relaxedAutoImplicit false
set_option autoImplicit false

namespace Pare

namespace Grammar

open Pare.Parser

/-- The parser of a goal from the parsers of what is inside. -/
def derive (go : Descent) : Descent
  | .operation mode level => operation go mode level
  | .operand mode => operand go mode
  | .statement => statement go
  | .block operator => block go operator
  | .element => element go

/-- The parser of a goal, down to a depth. -/
def run : Nat → Descent
  | 0, _ => failure
  | depth + 1, goal => derive (run depth) goal

/-- A depth that no construct of a text exceeds: no construct holds itself without a character
between. -/
def depthFor (text : String) : Nat := 8 * (text.length + 2)

/-- A whole program: perhaps a line that names the program that runs it, then statements to the end
of the text. -/
def program (go : Descent) : Parser (List Concrete) := do
  lead
  let first ← optional (leaf (.construct .hashBangLine) Lexeme.hashBang)
  let atEnd : Parser Bool := return (← ahead).isEmpty
  let body ← statementsUpTo go atEnd ((← ahead).length + 1)
  return first.toList ++ body

/-- The concrete tree of a text, if the text is a program.  A program without any lexeme takes up
no text. -/
def program? (text : String) : Option Concrete := do
  let (body, stop) ← (program (run (depthFor text))).run (.atStart text)
  let size := Text.byteSize text.toList
  let whole := if body.isEmpty && stop.comments.isEmpty then Span.point size else .upTo 0 size
  let tree := Concrete.node (.construct .program) none whole body
  if tree.isSettled then return tree.weave stop.comments.reverse else none

end Grammar

/-- The numbered tree of a program beside the source with its tokens. -/
def Concrete.toContext (text : String) (program : Concrete) : Context :=
  ⟨program.toTree text.toList, .ofTokens text (program.tokens text.toList)⟩

/-- The tree and the tokens of a text, if it is a program. -/
def Context.ofText? (text : String) : Option Context :=
  (Grammar.program? text).map (Concrete.toContext text)

end Pare
