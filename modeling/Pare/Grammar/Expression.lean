import Pare.Grammar.Function
import Pare.Grammar.Markup

/-!
**Expressions.**

Operands with their accesses and calls, the operators in front of them, and the operators between
them by how tightly they bind.  An assignment and an arrow function are operands: they may stand to
the right of any operator, and they reach as far as they can.

Main definitions:

* `Pare.Operator.level` — how tightly a binary operator binds;
* `Pare.Parser.primary` — names, literals, groups, functions and the like;
* `Pare.Parser.chain` — accesses, calls and updates after an operand;
* `Pare.Parser.operand` — an operand with the operators in front of it and assignments to it;
* `Pare.Parser.operation` — operands with operators between them.
-/

set_option relaxedAutoImplicit false
set_option autoImplicit false

namespace Pare

/-! ### Operators -/

namespace Operator

/-- How tightly a binary operator binds, tighter ones higher; zero if it is none. -/
def level : String → Nat
  | "**" => 12
  | "*" | "/" | "%" => 11
  | "+" | "-" => 10
  | "<<" | ">>" | ">>>" => 9
  | "<" | "<=" | ">" | ">=" | "in" | "instanceof" => 8
  | "==" | "!=" | "===" | "!==" => 7
  | "&" => 6
  | "^" => 5
  | "|" => 4
  | "&&" => 3
  | "||" => 2
  | "??" => 1
  | _ => 0

/-- The least level that the right operand of an operator has. -/
def rightLevel (op : String) : Nat := if op == "**" then level op else level op + 1

/-- Operators that assign the result of an operation. -/
def isAugmented (op : String) : Bool :=
  ["+=", "-=", "*=", "/=", "%=", "^=", "&=", "|=", ">>=", ">>>=", "<<=", "**=", "&&=", "||=",
    "??="].contains op

/-- Words that stand in front of an operand as operators. -/
def isUnaryWord (w : String) : Bool := w == "typeof" || w == "void" || w == "delete"

/-- Signs that stand in front of an operand as operators. -/
def isUnarySign (s : String) : Bool := s == "!" || s == "~" || s == "-" || s == "+"

/-- Signs and words that carry an expression on and start no statement. -/
def onlyCarriesOn (op : String) : Bool :=
  [".", "?.", ",", "*", "**", "%", ">", ">=", "<=", ">>", ">>>", "<<", "==", "!=", "===", "!==",
    "&", "&&", "|", "||", "^", "??", "?", "in", "instanceof"].contains op

end Operator

namespace Concrete

/-- Is the node an operand that needs no parentheses to be called or to tag a template? -/
def isPrimary (t : Concrete) : Bool :=
  match t.label with
  | .construct c =>
      [Construct.subscriptExpression, .memberExpression, .parenthesized, .identifier, .undefined,
        .this, .super, .number, .string, .templateString, .regex, .true, .false, .null, .object,
        .array, .functionExpression, .arrowFunction, .generatorFunction, .classExpression,
        .metaProperty, .callExpression].contains c
  | .sign _ => false

/-- Is the node a block whose only statement has a label? -/
def isLabelBlock (t : Concrete) : Bool :=
  match t.children.filter isNamed with
  | [only] => t.is .statementBlock && only.is .labeledStatement
  | _ => false

/-- Does the node end with a supplied semicolon? -/
def endsSupplied (t : Concrete) : Bool := t.children.getLast?.any fun c => c.isSign ""

end Concrete

namespace Parser

open Concrete (as)

/-! ### Literals -/

/-- Passes a template up to its end; the opening mark is passed already. -/
def templateTail (go : Descent) : Nat → Parser Unit
  | 0 => failure
  | limit + 1 => do
      let _ ← take (Lexeme.templateText (← ahead))
      match ← ahead with
      | '\x60' :: _ => let _ ← take 1
      | '$' :: '\x7b' :: _ =>
          let _ ← take 2
          let _ ← expressions go .enclosed
          let _ ← sign "\x7d"
          templateTail go limit
      | cs =>
          let count := Lexeme.escape cs
          if count = 0 then failure
          let _ ← take count
          templateTail go limit

def template (go : Descent) : Parser Concrete := do
  let first ← sign "\x60"
  templateTail go (← ahead).length
  return .node (.construct .templateString) none (.upTo first.span.start (← get).offset) []

def array (go : Descent) : Parser Concrete := do
  return .ofParts .array (← items "[" "]" (spreadOrExpression go))

/-! ### Arrow functions -/

/-- Words that cannot be the first name in an object where a block might stand. -/
def opensStatement (w : String) : Bool :=
  ["var", "const", "if", "switch", "for", "while", "do", "try", "with", "break", "continue",
    "debugger", "return", "throw", "import", "function", "class", "new", "await", "yield",
    "typeof", "void", "delete", "this", "super", "true", "false", "null", "undefined"].contains w

/-- Does an object, rather than a block, come next?  Its first name must not be a keyword, nor be
all that it holds. -/
def opensObject : Parser Bool := do
  let start ← get
  let _ ← sign "\x7b"
  gap
  let first ← nextWord
  let alone ←
    if first == "" then pure false
    else
      let _ ← word .identifier
      Semicolon.isSupplied false <$> ahead
  set start
  return !opensStatement first && !alone

/-- A block, or else an object.  A block that holds only a statement with a label gives way to an
object with that text. -/
def blockOrObject (block object : Parser Concrete) : Parser Concrete := do
  let start ← get
  match ← optional block with
  | some found =>
      if found.isLabelBlock then
        let after ← get
        (do set start; object) <|> (do set after; return found)
      else return found
  | none => object

/-- Something, if an object, rather than a block, comes next. -/
def ifObject (p : Parser Concrete) : Parser Concrete := do
  if ← opensObject then p else failure

/-- The body of an arrow function. -/
def arrowBody (go : Descent) (mode : Mode) : Parser Concrete := do
  lead
  if (← nextChar) == '\x7b' then
    blockOrObject (go (.block true)) (ifObject (go (.expression mode)))
  else go (.expression mode)

/-- Does the arrow of a function come next? -/
def atArrow (mode : Mode) : Parser Bool := do
  if ← settle mode.semi false then return false
  return (← nextSign) == "=>"

/-- The rest of an arrow function, after its parameters. -/
def arrowTail (go : Descent) (mode : Mode) (front : List Concrete) : Parser Concrete := do
  let arrow ← sign "=>"
  let body ← arrowBody go mode
  return .ofParts .arrowFunction (front ++ [arrow, body.as .body])

/-- Items in parentheses: the parameters of an arrow function, or a group. -/
def groupOrArrow (go : Descent) (mode : Mode) : Parser Concrete := do
  let list ← covered go
  if ← atArrow mode then
    arrowTail go mode [(← toParameters list).as .parameters]
  else toGroup list

/-- A name: the parameter of an arrow function, or an operand. -/
def nameOrArrow (go : Descent) (mode : Mode) : Parser Concrete := do
  let name ← word .identifier
  if ← atArrow mode then arrowTail go mode [name.as .parameter] else return name

/-- What may follow the word `async`: a function, an arrow function, or nothing, and then the word
is a name. -/
def asyncOperand (go : Descent) (mode : Mode) : Parser Concrete := do
  let start ← get
  let async ← keyword "async"
  let name := async.relabel .identifier
  if ← settle mode.semi false then return name
  let next ← nextWord
  if next == "function" then
    set start
    return (← function go true).toExpression
  else if (← nextSign) == "(" then
    let list ← covered go
    if ← atArrow mode then
      arrowTail go mode [async, (← toParameters list).as .parameters]
    else
      let args := Concrete.ofParts .arguments list
      return .ofParts .callExpression [name.as .callee, args.as .arguments]
  else if (← nextSign) == "=>" then arrowTail go mode [name.as .parameter]
  else
    let single : Parser Concrete := do
      let param ← word .identifier
      if ← atArrow mode then arrowTail go mode [async, param.as .parameter] else failure
    if next == "" || next == "in" || next == "instanceof" then return name
    else single <|> return name

/-! ### Primary operands -/

/-- A call or member of the word `import`. -/
def importOperand (go : Descent) : Parser Concrete := do
  let token ← keyword "import"
  let name := token.relabel .importWord
  gap
  if (← nextSign) == "(" then
    let args ← arguments go
    return .ofParts .callExpression [name.as .callee, args.as .arguments]
  else
    let dot ← sign "."
    gap
    if (← nextWord) == "meta" then
      return .ofParts .metaProperty [token, dot, ← keyword "meta"]
    else
      let property ← lexeme .privateIdentifier Lexeme.privateName <|> word .propertyIdentifier
      return .ofParts .memberExpression [name.as .object, dot, property.as .property]

/-- The operand that a word starts. -/
def wordOperand (go : Descent) (mode : Mode) (w : String) : Parser Concrete :=
  match w with
  | "function" => FunctionParts.toExpression <$> function go true
  | "class" => do
      let (_, parts) ← classParts go
      return .ofParts .classExpression parts
  | "async" => asyncOperand go mode
  | "import" => importOperand go
  | "this" => word .this
  | "super" => word .super
  | "true" => word .true
  | "false" => word .false
  | "null" => word .null
  | "undefined" => word .undefined
  | "new" | "await" | "yield" | "typeof" | "void" | "delete" => failure
  | _ => nameOrArrow go mode

/-- Names, literals, groups, functions and the like. -/
def primary (go : Descent) (mode : Mode) : Parser Concrete := do
  lead
  let w ← nextWord
  if w != "" then wordOperand go mode w
  else
    match ← nextChar with
    | '(' => groupOrArrow go mode
    | '[' => array go
    | '\x7b' => object go
    | '\x22' | '\x27' => lexeme .string Lexeme.string
    | '\x60' => template go
    | '/' => lexeme .regex Lexeme.regex
    | '<' => go .element
    | '@' => do
        let (_, parts) ← classParts go
        return .ofParts .classExpression parts
    | _ => lexeme .number Lexeme.number

/-! ### Accesses and calls -/

/-- The name of a member after a dot. -/
def memberName : Parser Concrete := do
  gap
  lexeme .privateIdentifier Lexeme.privateName <|> word .propertyIdentifier

def subscript (go : Descent) (object : Concrete) (link : List Concrete) : Parser Concrete := do
  let openSign ← sign "["
  let index ← expressions go .enclosed
  let close ← sign "]"
  return .ofParts .subscriptExpression
    ([object.as .object] ++ link ++ [openSign, index.as .index, close])

def call (go : Descent) (callee : Concrete) (link : List Concrete) : Parser Concrete := do
  let args ← arguments go
  return .ofParts .callExpression ([callee.as .callee] ++ link ++ [args.as .arguments])

/-- An access or a call that stops at a missing object. -/
def optionalAccess (go : Descent) (object : Concrete) : Parser Concrete := do
  let link := ((← sign "?.").relabel .optionalChain).as .optionalChain
  gap
  match ← nextSign with
  | "[" => subscript go object [link]
  | "(" => if object.isPrimary then call go object [link] else failure
  | _ => do
      let property ← memberName
      return .ofParts .memberExpression [object.as .object, link, property.as .property]

/-- An access by a name after a dot. -/
def memberAccess (object : Concrete) : Parser Concrete := do
  let dot ← sign "."
  let property ← memberName
  return .ofParts .memberExpression [object.as .object, dot, property.as .property]

/-- A template with a tag in front. -/
def taggedTemplate (go : Descent) (tag : Concrete) : Parser Concrete := do
  if tag.isPrimary || tag.is .newExpression then
    let text ← template go
    return .ofParts .callExpression [tag.as .callee, text.as .arguments]
  else failure

/-- An update after its operand. -/
def postfixUpdate (operand : Concrete) (op : String) : Parser Concrete := do
  let token ← sign op
  return .ofParts .updateExpression [operand.as .argument, token.as .operator]

/-- Accesses, calls and updates after an operand.  What is to be constructed takes no calls and no
updates. -/
def chainUpTo (go : Descent) (mode : Mode) (constructed : Bool) : Nat → Concrete → Parser Concrete
  | 0, operand => return operand
  | limit + 1, operand => do
      if ← settle mode.semi false then return operand
      let next ← nextSign
      let onward := fun (p : Parser Concrete) => do
        let longer ← p
        chainUpTo go mode constructed limit longer
      match next with
      | "." => onward (memberAccess operand)
      | "?." => onward (optionalAccess go operand)
      | "[" => onward (subscript go operand [])
      | "\x60" => onward (taggedTemplate go operand)
      | "(" => if constructed then return operand else onward (call go operand [])
      | "++" | "--" => if constructed then return operand else onward (postfixUpdate operand next)
      | _ => return operand

/-- Accesses, calls and updates after an operand. -/
def chain (go : Descent) (mode : Mode) (operand : Concrete) : Parser Concrete := do
  chainUpTo go mode false ((← ahead).length + 1) operand

/-- A construction by `new`, or the property `new.target`. -/
def constructionUpTo (go : Descent) (mode : Mode) : Nat → Parser Concrete
  | 0 => failure
  | limit + 1 => do
      let token ← keyword "new"
      lead
      if (← nextSign) == "." then
        let dot ← sign "."
        return .ofParts .metaProperty [token, dot, ← keyword "target"]
      let inner ←
        if (← nextWord) == "new" then constructionUpTo go mode limit else primary go mode
      let callee ← chainUpTo go mode true ((← ahead).length + 1) inner
      if !callee.isPrimary && !callee.is .newExpression then failure
      let front := [token, callee.as .callee]
      if ← settle mode.semi false then return .ofParts .newExpression front
      if (← nextSign) == "(" then
        let args ← arguments go
        return .ofParts .newExpression (front ++ [args.as .arguments])
      else return .ofParts .newExpression front

/-! ### Operands -/

/-- An assignment to an operand, if one comes next. -/
def assignment (go : Descent) (mode : Mode) (target : Concrete) : Parser Concrete := do
  if ← settle mode.semi false then return target
  let next ← nextSign
  if next == "=" then
    let place := if target.isParenthesized then some target else target.toTarget?
    match place with
    | some left =>
        let equals ← sign "="
        let value ← go (.expression mode)
        return .ofParts .assignmentExpression [left.as .left, equals, value.as .right]
    | none => failure
  else if Operator.isAugmented next then
    if (target.isPlace && !target.is .undefined) || target.isParenthesized then
      let op ← sign next
      let value ← go (.expression mode)
      return .ofParts .augmentedAssignment [target.as .left, op.as .operator, value.as .right]
    else failure
  else return target

def prefixed (go : Descent) (mode : Mode) (op : Concrete) : Parser Concrete := do
  let argument ← go (.operand mode)
  return .ofParts .unaryExpression [op.as .operator, argument.as .argument]

/-- A value handed out by a generator, or only the word for it. -/
def yieldOperand (go : Descent) (mode : Mode) : Parser Concrete := do
  let token ← keyword "yield"
  if ← settle mode.semi false then return .ofParts .yieldExpression [token]
  if (← nextSign) == "*" then
    let starToken ← sign "*"
    return .ofParts .yieldExpression [token, starToken, ← go (.expression mode)]
  match ← optional (go (.expression mode)) with
  | some value => return .ofParts .yieldExpression [token, value]
  | none => return .ofParts .yieldExpression [token]

/-- A test for a private member. -/
def privateTest (go : Descent) (mode : Mode) : Parser Concrete := do
  let name ← lexeme .privateIdentifier Lexeme.privateName
  let op ← keyword "in"
  let object ← go (.operation mode (Operator.rightLevel "in"))
  return .ofParts .binaryExpression [name.as .left, op.as .operator, object.as .right]

/-- An operand with the operators in front of it and assignments to it. -/
def operand (go : Descent) (mode : Mode) : Parser Concrete := do
  lead
  let next ← nextSign
  let w ← nextWord
  if Operator.isUnarySign next then prefixed go mode (← sign next)
  else if next == "++" || next == "--" then
    let op ← sign next
    let argument ← go (.operand mode)
    return .ofParts .updateExpression [op.as .operator, argument.as .argument]
  else if Operator.isUnaryWord w then prefixed go mode (← keyword w)
  else if w == "await" then
    let token ← keyword w
    return .ofParts .awaitExpression [token, ← go (.operand mode)]
  else if w == "yield" then yieldOperand go mode
  else if (← nextChar) == '#' then privateTest go mode
  else
    let base ←
      if w == "new" then constructionUpTo go mode (← ahead).length else primary go mode
    assignment go mode (← chain go mode base)

/-! ### Operators between operands -/

/-- The operator that comes next: a sign or a word.  A question mark must stand alone, after no
other blanks than those of ASCII. -/
def nextOperator : Parser String := do
  let next ← nextSign
  if next == "?" then
    let cs ← ahead
    let plain := (cs.take (Lexeme.gap cs)).all Semicolon.isAsciiBlank
    return if plain then next else ""
  if next != "" then return next
  let w ← nextWord
  return if w == "in" || w == "instanceof" then w else ""

def operator (op : String) : Parser Concrete :=
  if op == "in" || op == "instanceof" then keyword op else sign op

def conditional (go : Descent) (mode : Mode) (test : Concrete) : Parser Concrete := do
  let question ← sign "?"
  let consequent ← go (.expression .enclosed)
  let colon ← sign ":"
  let alternate ← go (.expression mode)
  return .ofParts .ternaryExpression
    [test.as .condition, question, consequent.as .consequence, colon,
      alternate.as .alternative]

/-- Operators that bind at least as tightly as the level, with their right operands. -/
def operationTail (go : Descent) (mode : Mode) (level : Nat) : Nat → Concrete → Parser Concrete
  | 0, left => return left
  | limit + 1, left => do
      if ← settle mode.semi false then return left
      let op ← nextOperator
      if op == "?" then
        if level ≤ 1 then conditional go mode left else return left
      else if Operator.level op = 0 || Operator.level op < level || (op == "in" && mode.noIn) then
        return left
      else
        let token ← operator op
        let right ← go (.operation mode (Operator.rightLevel op))
        operationTail go mode level limit
          (.ofParts .binaryExpression [left.as .left, token.as .operator, right.as .right])

/-- Operands with operators between them that bind at least as tightly as the level. -/
def operation (go : Descent) (mode : Mode) (level : Nat) : Parser Concrete := do
  let first ← go (.operand mode)
  operationTail go mode level ((← ahead).length + 1) first

end Parser

end Pare
