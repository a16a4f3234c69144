import Pare.Source

/-!
**Concrete trees.**

What the grammar finds in a text, in full: every construct with all of its parts, down to the single
operators and delimiters, and the comments between them.  A node has a label, the role it plays in
its parent, its span and its children.  The leaves of the tree, with a few constructs taken as a
whole, are the tokens of the text.

Main definitions:

* `Pare.Construct`, `Pare.Label`, `Pare.Role` — what a node is and the role it plays;
* `Pare.Concrete` — a node with its span and its children;
* `Pare.Concrete.isNamed`, `Pare.Concrete.isExtra` — constructs and comments;
* `Pare.Concrete.tokens` — the tokens of a tree;
* `Pare.Concrete.weave` — a tree with comments put where they belong.
-/

set_option relaxedAutoImplicit false
set_option autoImplicit false

namespace Pare

/-! ### Labels and roles -/

/-- The constructs of the grammar. -/
inductive Construct where
  | program | hashBangLine | comment | htmlComment
  | exportStatement | namespaceExport | exportClause | exportSpecifier
  | importStatement | importClause | namespaceImport | namedImports | importSpecifier
  | importAttribute | importWord
  | expressionStatement | variableDeclaration | lexicalDeclaration | variableDeclarator
  | statementBlock | elseClause | ifStatement | switchStatement | switchBody | switchCase
  | switchDefault | forStatement | forInStatement | whileStatement | doStatement | tryStatement
  | catchClause | finallyClause | withStatement | breakStatement | continueStatement
  | debuggerStatement | returnStatement | throwStatement | emptyStatement | labeledStatement
  | statementIdentifier | parenthesized | sequence | yieldExpression | object | objectPattern
  | assignmentPattern | objectAssignmentPattern | array | arrayPattern
  | jsxElement | jsxText | htmlCharacterReference | jsxExpression | jsxOpeningElement
  | jsxClosingElement | jsxSelfClosingElement | jsxNamespaceName | jsxAttribute
  | classExpression | classDeclaration | classHeritage | classBody | classStaticBlock
  | fieldDefinition | methodDefinition | functionExpression | functionDeclaration
  | generatorFunction | generatorFunctionDeclaration | arrowFunction | formalParameters
  | callExpression | newExpression | awaitExpression | memberExpression | subscriptExpression
  | optionalChain | assignmentExpression | augmentedAssignment | spreadElement | restPattern
  | ternaryExpression | binaryExpression | unaryExpression | updateExpression
  | string | templateString | templateSubstitution | regex | number
  | identifier | privateIdentifier | propertyIdentifier | shorthandIdentifier
  | shorthandIdentifierPattern | undefined | metaProperty | this | super | true | false | null
  | arguments | decorator | pair | pairPattern | computedName
deriving DecidableEq, Repr

/-- What a node is: a construct, or an operator, delimiter or keyword with its text. -/
inductive Label where
  | construct (c : Construct)
  | sign (text : String)
deriving DecidableEq, Repr

/-- The roles that a part can play in a construct. -/
inductive Role where
  | kind | name | value | condition | consequence | alternative | initializer | increment | body
  | left | right | operator | argument | parameter | parameters | callee | arguments | optionalChain
  | object | property | index | key | openTag | closeTag
deriving DecidableEq, Repr

/-! ### Trees -/

/-- A node of a concrete tree. -/
inductive Concrete where
  | node (label : Label) (role : Option Role) (span : Span) (children : List Concrete)
deriving Repr

namespace Concrete

def label : Concrete → Label
  | node label _ _ _ => label

/-- The role the node plays in its parent. -/
def role : Concrete → Option Role
  | node _ role _ _ => role

/-- The bytes the node covers. -/
def span : Concrete → Span
  | node _ _ span _ => span

def children : Concrete → List Concrete
  | node _ _ _ children => children

/-- The node in another role. -/
def as (r : Role) : Concrete → Concrete
  | node label _ span children => node label (some r) span children

/-- The node as another construct. -/
def relabel (c : Construct) : Concrete → Concrete
  | node _ role span children => node (.construct c) role span children

def is (t : Concrete) (c : Construct) : Bool := t.label == .construct c

/-- Is the node a construct, not only an operator, delimiter or keyword? -/
def isNamed (t : Concrete) : Bool :=
  match t.label with
  | .construct _ => true
  | .sign _ => false

/-- Is the node a comment, which may stand between any two tokens? -/
def isExtra (t : Concrete) : Bool := t.is .comment || t.is .htmlComment

/-- The first part in a role. -/
def part? (t : Concrete) (r : Role) : Option Concrete :=
  t.children.find? fun c => c.role == some r

/-! ### Tokens -/

/-- The constructs that are one token, whatever their parts. -/
def isAtomic : Label → Bool
  | .construct c =>
      [Construct.string, .templateString, .regex, .number, .comment, .htmlComment, .jsxText,
        .hashBangLine].contains c
  | .sign _ => false

/-- The category of a token from its label and text. -/
def tokenKind (label : Label) (value : String) : Token.Kind :=
  match label with
  | .construct .comment | .construct .htmlComment | .construct .hashBangLine =>
      if "/*".toList.isPrefixOf value.toList then .blockComment else .lineComment
  | .construct .string => .string
  | .construct .templateString => .template
  | .construct .regex => .regExp
  | .construct .number => .numeric
  | .construct .jsxText => .jsxText
  | _ =>
      match value.toList.head? with
      | some c =>
          if c.isAlpha || c == '_' || c == '$' || c == '#' || 128 ≤ c.toNat then .word
          else .punctuator
      | none => .punctuator

/-- The token that a node makes as a whole. -/
def asToken (text : List Char) (label : Label) (span : Span) : Token :=
  let value := Text.excerpt text span
  ⟨tokenKind label value, value, span⟩

mutual

/-- The tokens of a tree, left to right: its leaves, and the atomic constructs taken as a whole.
Nodes without text make none. -/
def tokens (text : List Char) : Concrete → List Token
  | node label _ span children =>
      if span.isEmpty then []
      else if children.isEmpty || isAtomic label then [asToken text label span]
      else tokensOfAll text children

/-- The tokens of some trees, left to right. -/
def tokensOfAll (text : List Char) : List Concrete → List Token
  | [] => []
  | t :: rest => t.tokens text ++ tokensOfAll text rest

end

/-! ### Comments -/

mutual

/-- A tree with comments put where they belong: inside the innermost node whose span holds them,
between its parts. -/
def weave (comments : List Concrete) : Concrete → Concrete
  | node label role span children =>
      let inside := comments.filter fun c => span.contains c.span
      if inside.isEmpty then node label role span children
      else node label role span (weaveAll inside children)

/-- The parts of a node with comments put between or inside them. -/
def weaveAll (comments : List Concrete) : List Concrete → List Concrete
  | [] => comments
  | t :: rest =>
      comments.filter (fun c => c.span.stop ≤ t.span.start) ++
        t.weave comments ::
          weaveAll (comments.filter fun c => t.span.stop ≤ c.span.start) rest

end

end Concrete

end Pare
