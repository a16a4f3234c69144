/-!
**The kinds of nodes of a program.**

A node of a program is described by its kind: what construct it is, and which of its parts play
which role.  `Kind α` leaves open how the parts are referred to, so one type serves both the tree
built from a text, where a part is a subtree, and the numbered tree the rules look at, where a part
is the number of a node.  Constructs the rules never look into are all of kind `other`, which still
lists its parts, so that what is nested in them is seen.

Main definitions:

* `Pare.Literal`, `Pare.Binding` — literal values and the words that open a declaration;
* `Pare.Kind` — a construct with the roles of its parts;
* `Pare.Kind.children` — the parts, in the order of the text;
* `Pare.Kind.label` — the name of the construct;
* `Pare.Kind.isDeclaration`, `Pare.Kind.isJsx`, `Pare.Kind.isAtom` — classes of constructs.
-/

set_option relaxedAutoImplicit false
set_option autoImplicit false

namespace Pare

/-- The values of literals, as far as the rules care. -/
inductive Literal where
  /-- A string with its value, which is unknown if the text has escapes. -/
  | string (cooked : Option String)
  | number
  | boolean (value : Bool)
  | null
  | regex
deriving DecidableEq, Repr

/-- The words that open a declaration of variables. -/
inductive Binding where
  | varWord
  | letWord
  | constWord
deriving DecidableEq, Repr

/-- A construct with the roles of its parts, which are referred to by members of `α`. -/
inductive Kind (α : Type) where
  | program (body : List α)
  | literal (value : Literal)
  | identifier (name : String)
  | binary (operator : String) (left right : α)
  | logical (operator : String) (left right : α)
  | assignment (operator : String) (left right : α)
  | conditional (test consequent alternate : α)
  | call (callee : α) (arguments : List α) (optional : Bool)
  | construct (callee : α) (arguments : List α)
  | member (object property : α) (computed optional : Bool)
  | array (elements : List α)
  | object (properties : List α)
  | property (key value : α) (shorthand method computed : Bool)
  /-- An arrow function; `expression` tells that its body is no block. -/
  | arrow (params : List α) (body : α) (expression isAsync : Bool)
  | function (children : List α)
  | await (argument : α)
  | yield (argument : Option α) (delegate : Bool)
  | sequence (expressions : List α)
  | unary (operator : String) (argument : α)
  /-- An increment or decrement; `leading` tells that the operator comes first. -/
  | update (operator : String) (leading : Bool) (argument : α)
  | jsxElement (children : List α)
  | jsxFragment (children : List α)
  | declaration (binding : Binding) (declarators : List α)
  | declarator (target : α) (init : Option α)
  | functionDeclaration (children : List α)
  | classDeclaration (children : List α)
  | returnStatement (argument : Option α)
  | expressionStatement (expression : α)
  | ifStatement (test consequent : α) (alternate : Option α)
  | forStatement (init test step : Option α) (body : α)
  /-- A loop over keys, or over values if `overValues` is set. -/
  | forInStatement (left right body : α) (overValues : Bool)
  | whileStatement (test body : α)
  | doWhileStatement (body test : α)
  | block (body : List α)
  | emptyStatement
  | other (children : List α)
deriving DecidableEq, Repr

namespace Kind

variable {α : Type}

/-- The parts of a construct in the order of the text; a property whose key and value are one part
lists it once. -/
def children [DecidableEq α] : Kind α → List α
  | program body | block body => body
  | literal _ | identifier _ | emptyStatement => []
  | binary _ left right | logical _ left right | assignment _ left right => [left, right]
  | conditional test consequent alternate => [test, consequent, alternate]
  | call callee arguments _ | construct callee arguments => callee :: arguments
  | member target key _ _ => [target, key]
  | array elements => elements
  | object properties => properties
  | property key value shorthand _ _ =>
      if shorthand || key = value then [value] else [key, value]
  | arrow params body _ _ => params ++ [body]
  | await argument | unary _ argument | update _ _ argument => [argument]
  | yield argument _ => argument.toList
  | sequence expressions => expressions
  | function children | jsxElement children | jsxFragment children | functionDeclaration children
  | classDeclaration children | other children => children
  | declaration _ declarators => declarators
  | declarator target init => target :: init.toList
  | returnStatement argument => argument.toList
  | expressionStatement expression => [expression]
  | ifStatement test consequent alternate => test :: consequent :: alternate.toList
  | forStatement init test step body => init.toList ++ test.toList ++ step.toList ++ [body]
  | forInStatement left right body _ => [left, right, body]
  | whileStatement test body => [test, body]
  | doWhileStatement body test => [body, test]

/-- The name of a construct, as reports show it. -/
def label : Kind α → String
  | program .. => "Program"
  | literal .. => "Literal"
  | identifier .. => "Identifier"
  | binary .. => "BinaryExpr"
  | logical .. => "LogicalExpr"
  | assignment .. => "AssignmentExpr"
  | conditional .. => "ConditionalExpr"
  | call .. => "CallExpr"
  | construct .. => "NewExpr"
  | member .. => "MemberAccess"
  | array .. => "ArrayLiteral"
  | object .. => "ObjectLiteral"
  | property .. => "Property"
  | arrow .. => "ArrowFunction"
  | function .. => "FunctionExpr"
  | await .. => "AwaitExpr"
  | yield .. => "YieldExpr"
  | sequence .. => "SequenceExpr"
  | unary .. => "UnaryExpr"
  | update .. => "UpdateExpr"
  | jsxElement .. => "JsxElement"
  | jsxFragment .. => "JsxFragment"
  | declaration .. => "VariableDeclaration"
  | declarator .. => "VariableDeclarator"
  | functionDeclaration .. => "FunctionDeclaration"
  | classDeclaration .. => "ClassDeclaration"
  | returnStatement .. => "ReturnStatement"
  | expressionStatement .. => "ExpressionStatement"
  | ifStatement .. => "IfStatement"
  | forStatement .. => "ForStatement"
  | forInStatement .. => "ForInStatement"
  | whileStatement .. => "WhileStatement"
  | doWhileStatement .. => "DoWhileStatement"
  | block .. => "BlockStatement"
  | emptyStatement => "EmptyStatement"
  | other .. => "Other"

/-- Declarations of variables, functions and classes, whose scope a block around them limits. -/
def isDeclaration : Kind α → Bool
  | declaration .. | functionDeclaration .. | classDeclaration .. => true
  | _ => false

/-- Elements and fragments of markup. -/
def isJsx : Kind α → Bool
  | jsxElement .. | jsxFragment .. => true
  | _ => false

/-- Literals and identifiers. -/
def isAtom : Kind α → Bool
  | literal .. | identifier .. => true
  | _ => false

end Kind

end Pare
