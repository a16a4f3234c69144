import Pare.Concrete.Basic
import Pare.Tree.Basic

/-!
**From concrete trees to numbered trees.**

A concrete tree keeps more than the rules need.  It is turned into a tree of kinds, in which
grouping parentheses are gone, fields have their roles, and constructs of no interest are of kind
`other`; the nodes of that tree are then numbered, parents before their parts and parts in order.

Main definitions:

* `Pare.Ast` — a tree of kinds with spans;
* `Pare.Concrete.toAst` — the tree of kinds of a concrete tree;
* `Pare.Ast.number` — the numbering of a tree;
* `Pare.Concrete.toTree` — the numbered tree of a program.
-/

set_option relaxedAutoImplicit false
set_option autoImplicit false

namespace Pare

/-- A tree of kinds with spans. -/
inductive Ast where
  | node (span : Span) (kind : Kind Ast)
deriving Repr

namespace Ast

/-- The place of a part that the text does not have. -/
def missing (offset : Nat) : Ast := node (.point offset) (.other [])

end Ast

/-! ### The tree of kinds -/

/-- A part of a construct beside what has become of it. -/
structure Part where
  /-- The part in the concrete tree. -/
  source : Concrete
  /-- The tree of kinds of the part. -/
  ast : Ast
  /-- The trees of kinds of the constructs directly inside the part. -/
  inner : List Ast
deriving Repr

namespace Part

/-- Does the part count among the constructs directly inside another one? -/
def counts (p : Part) : Bool := p.source.isNamed && !p.source.isExtra

/-- The trees of the constructs among some parts. -/
def asts (parts : List Part) : List Ast :=
  (parts.filter fun p => p.counts && !p.source.is .hashBangLine).map Part.ast

/-- The first construct among some parts. -/
def first? (parts : List Part) : Option Part := parts.find? Part.counts

/-- The first part in a role. -/
def at? (parts : List Part) (r : Role) : Option Part :=
  parts.find? fun p => p.source.role == some r && !p.source.isExtra

/-- The tree of the part in a role, or of a missing part at the end of the construct. -/
def need (parts : List Part) (r : Role) (span : Span) : Ast :=
  match at? parts r with
  | some p => p.ast
  | none => .missing span.stop

/-- The tree of the part in a role, if it is there. -/
def ast? (parts : List Part) (r : Role) : Option Ast := (at? parts r).map Part.ast

/-- The text of the part in a role. -/
def text? (text : List Char) (parts : List Part) (r : Role) : Option String :=
  (at? parts r).map fun p => Text.excerpt text p.source.span

/-- A part of a loop header, unless it is only its semicolon. -/
def header? (parts : List Part) (r : Role) : Option Ast :=
  ((at? parts r).filter fun p => p.source.isNamed && !p.source.is .emptyStatement).map Part.ast

/-- Is the part in a role this construct? -/
def isAt (parts : List Part) (r : Role) (c : Construct) : Bool :=
  (at? parts r).any fun p => p.source.is c

end Part

/-- The value of a string literal, unknown if its text has escapes. -/
def cookedString (raw : String) : Option String :=
  let inner := (raw.toList.drop 1).dropLast
  if raw.toList.length < 2 || inner.contains '\x5c' then none else some (String.ofList inner)

/-- The words that open declarations, by their text. -/
def bindingOf : Option String → Binding
  | some "let" => .letWord
  | some "const" => .constWord
  | _ => .varWord

/-- The kind of a binary expression from its operator. -/
def binaryKind (operator : String) (left right : Ast) : Kind Ast :=
  if operator == "&&" || operator == "||" || operator == "??" then .logical operator left right
  else .binary operator left right

/-- Does an update have its operator in front? -/
def leadsArgument (parts : List Part) : Bool :=
  match Part.at? parts .operator, Part.at? parts .argument with
  | some op, some arg => op.source.span.start < arg.source.span.start
  | _, _ => false

def arrowParameters (parts : List Part) : List Ast :=
  match Part.at? parts .parameter, Part.at? parts .parameters with
  | some single, _ => [single.ast]
  | none, some list => list.inner
  | none, none => []

/-- The function that a method stands for, which has the span of the whole method. -/
def methodFunction (span : Span) (parts : List Part) : Ast :=
  .node span (.function ((Part.ast? parts .parameters).toList ++ (Part.ast? parts .body).toList))

/-- The kind of a construct from its parts. -/
def kindOf (text : List Char) (c : Construct) (span : Span) (parts : List Part) : Kind Ast :=
  let need := fun r => Part.need parts r span
  let ast? := fun r => Part.ast? parts r
  let text? := fun r => Part.text? text parts r
  let own := Text.excerpt text span
  let all := Part.asts parts
  let first? := (Part.first? parts).map Part.ast
  match c with
  | .program => .program all
  | .expressionStatement =>
      match first? with
      | some e => .expressionStatement e
      | none => .emptyStatement
  | .returnStatement => .returnStatement first?
  | .variableDeclaration | .lexicalDeclaration =>
      .declaration (bindingOf (text? .kind))
        ((parts.filter fun p => p.source.is .variableDeclarator).map Part.ast)
  | .variableDeclarator => .declarator (need .name) (ast? .value)
  | .functionDeclaration | .generatorFunctionDeclaration => .functionDeclaration all
  | .classDeclaration => .classDeclaration all
  | .functionExpression | .generatorFunction => .function all
  | .ifStatement =>
      .ifStatement (need .condition) (need .consequence)
        ((Part.at? parts .alternative).bind fun p => p.inner.head?)
  | .forStatement =>
      .forStatement (Part.header? parts .initializer) (Part.header? parts .condition)
        (Part.header? parts .increment) (need .body)
  | .forInStatement =>
      .forInStatement (need .left) (need .right) (need .body) (text? .operator == some "of")
  | .whileStatement => .whileStatement (need .condition) (need .body)
  | .doStatement => .doWhileStatement (need .body) (need .condition)
  | .statementBlock => .block all
  | .emptyStatement => .emptyStatement
  | .arrowFunction =>
      .arrow (arrowParameters parts) (need .body)
        ((Part.at? parts .body).isSome && !Part.isAt parts .body .statementBlock)
        (parts.head?.any fun p => p.source.label == .sign "async")
  | .binaryExpression => binaryKind ((text? .operator).getD "") (need .left) (need .right)
  | .assignmentExpression | .augmentedAssignment =>
      .assignment ((text? .operator).getD "=") (need .left) (need .right)
  | .ternaryExpression => .conditional (need .condition) (need .consequence) (need .alternative)
  | .unaryExpression => .unary ((text? .operator).getD "") (need .argument)
  | .updateExpression =>
      .update ((text? .operator).getD "") (leadsArgument parts) (need .argument)
  | .awaitExpression =>
      match first? with
      | some e => .await e
      | none => .other []
  | .yieldExpression =>
      .yield first? (parts.any fun p => p.source.label == .sign "*")
  | .callExpression =>
      match Part.at? parts .arguments with
      | some args =>
          if args.source.is .arguments then
            .call (need .callee) args.inner (ast? .optionalChain).isSome
          else .other all
      | none => .other all
  | .newExpression =>
      .construct (need .callee) (((Part.at? parts .arguments).map Part.inner).getD [])
  | .memberExpression =>
      .member (need .object) (need .property) false (ast? .optionalChain).isSome
  | .subscriptExpression =>
      .member (need .object) (need .index) true (ast? .optionalChain).isSome
  | .array => .array all
  | .object => .object all
  | .pair =>
      .property (need .key) (need .value) false false (Part.isAt parts .key .computedName)
  | .shorthandIdentifier =>
      let ident := Ast.node span (.identifier own)
      .property ident ident true false false
  | .methodDefinition =>
      .property (need .name) (methodFunction span parts) false true
        (Part.isAt parts .name .computedName)
  | .sequence => .sequence all
  | .string => .literal (.string (cookedString own))
  | .number => .literal .number
  | .true => .literal (.boolean true)
  | .false => .literal (.boolean false)
  | .null => .literal .null
  | .regex => .literal .regex
  | .identifier | .propertyIdentifier | .privateIdentifier | .shorthandIdentifierPattern
  | .statementIdentifier | .undefined => .identifier own
  | .jsxElement =>
      if (Part.at? parts .openTag).any fun p => (p.source.part? .name).isNone then .jsxFragment all
      else .jsxElement all
  | .jsxSelfClosingElement => .jsxElement all
  | .templateString => .other []
  | _ => .other all

/-- The tree of a node from its parts: parentheses give way to what they group. -/
def assemble (text : List Char) (label : Label) (span : Span) (parts : List Part) : Ast :=
  match label with
  | .construct .parenthesized =>
      match Part.first? parts with
      | some inner => inner.ast
      | none => .node span (.other [])
  | .construct c => .node span (kindOf text c span parts)
  | .sign _ => .node span (.other (Part.asts parts))

namespace Concrete

mutual

/-- A node beside its tree of kinds. -/
def toPart (text : List Char) : Concrete → Part
  | node label role span children =>
      let parts := toParts text children
      ⟨node label role span children, assemble text label span parts, Part.asts parts⟩

/-- Some nodes beside their trees of kinds. -/
def toParts (text : List Char) : List Concrete → List Part
  | [] => []
  | t :: rest => t.toPart text :: toParts text rest

end

/-- The tree of kinds of a concrete tree. -/
def toAst (text : List Char) (t : Concrete) : Ast := (t.toPart text).ast

end Concrete

/-! ### Numbering -/

namespace Ast

mutual

/-- Adds a tree to the nodes numbered so far, under a parent, and gives its number. -/
def number (parent : Option NodeId) : Ast → StateM (Array Node) NodeId
  | node span kind => do
      let id := (← get).size
      modify fun nodes => nodes.push ⟨.other [], span, parent⟩
      let kind ← numberKind id kind
      modify fun nodes => nodes.modify id fun n => { n with kind := kind }
      return id

/-- Adds the parts of a kind, in order, and gives the kind with their numbers. -/
def numberKind (id : NodeId) : Kind Ast → StateM (Array Node) (Kind NodeId)
  | .program body => return .program (← numberAll id body)
  | .literal value => return .literal value
  | .identifier name => return .identifier name
  | .binary op left right => do
      let left ← number (some id) left
      return .binary op left (← number (some id) right)
  | .logical op left right => do
      let left ← number (some id) left
      return .logical op left (← number (some id) right)
  | .assignment op left right => do
      let left ← number (some id) left
      return .assignment op left (← number (some id) right)
  | .conditional test consequent alternate => do
      let test ← number (some id) test
      let consequent ← number (some id) consequent
      return .conditional test consequent (← number (some id) alternate)
  | .call callee arguments optional => do
      let callee ← number (some id) callee
      return .call callee (← numberAll id arguments) optional
  | .construct callee arguments => do
      let callee ← number (some id) callee
      return .construct callee (← numberAll id arguments)
  | .member object property computed optional => do
      let object ← number (some id) object
      return .member object (← number (some id) property) computed optional
  | .array elements => return .array (← numberAll id elements)
  | .object properties => return .object (← numberAll id properties)
  | .property _ value true method computed => do
      let value ← number (some id) value
      return .property value value true method computed
  | .property key value false method computed => do
      let key ← number (some id) key
      return .property key (← number (some id) value) false method computed
  | .arrow params body expression isAsync => do
      let params ← numberAll id params
      return .arrow params (← number (some id) body) expression isAsync
  | .function children => return .function (← numberAll id children)
  | .await argument => return .await (← number (some id) argument)
  | .yield argument delegate => return .yield (← numberOption id argument) delegate
  | .sequence expressions => return .sequence (← numberAll id expressions)
  | .unary op argument => return .unary op (← number (some id) argument)
  | .update op leading argument => return .update op leading (← number (some id) argument)
  | .jsxElement children => return .jsxElement (← numberAll id children)
  | .jsxFragment children => return .jsxFragment (← numberAll id children)
  | .declaration binding declarators => return .declaration binding (← numberAll id declarators)
  | .declarator target init => do
      let target ← number (some id) target
      return .declarator target (← numberOption id init)
  | .functionDeclaration children => return .functionDeclaration (← numberAll id children)
  | .classDeclaration children => return .classDeclaration (← numberAll id children)
  | .returnStatement argument => return .returnStatement (← numberOption id argument)
  | .expressionStatement expression =>
      return .expressionStatement (← number (some id) expression)
  | .ifStatement test consequent alternate => do
      let test ← number (some id) test
      let consequent ← number (some id) consequent
      return .ifStatement test consequent (← numberOption id alternate)
  | .forStatement init test step body => do
      let init ← numberOption id init
      let test ← numberOption id test
      let step ← numberOption id step
      return .forStatement init test step (← number (some id) body)
  | .forInStatement left right body overValues => do
      let left ← number (some id) left
      let right ← number (some id) right
      return .forInStatement left right (← number (some id) body) overValues
  | .whileStatement test body => do
      let test ← number (some id) test
      return .whileStatement test (← number (some id) body)
  | .doWhileStatement body test => do
      let body ← number (some id) body
      return .doWhileStatement body (← number (some id) test)
  | .block body => return .block (← numberAll id body)
  | .emptyStatement => return .emptyStatement
  | .other children => return .other (← numberAll id children)

/-- Adds some trees in order and gives their numbers. -/
def numberAll (parent : NodeId) : List Ast → StateM (Array Node) (List NodeId)
  | [] => return []
  | t :: rest => do
      let id ← number (some parent) t
      return id :: (← numberAll parent rest)

/-- Adds a tree, if there is one, and gives its number. -/
def numberOption (parent : NodeId) : Option Ast → StateM (Array Node) (Option NodeId)
  | none => return none
  | some t => return some (← number (some parent) t)

end

end Ast

/-- The numbered tree of a program, which spans the whole text. -/
def Concrete.toTree (text : List Char) (program : Concrete) : Tree :=
  let body := Part.asts (Concrete.toParts text program.children)
  let root := Ast.node (.upTo 0 (Text.byteSize text)) (.program body)
  ⟨((root.number none).run #[]).2⟩

end Pare
