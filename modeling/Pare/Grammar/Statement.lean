import Pare.Grammar.Expression

/-!
**Statements.**

A statement is told by its first word, if that is a keyword where a statement starts, or else it is
an expression.  Three forms need a second look.  A brace opens a block unless only an object fits; a
function or class with a name is a declaration unless the text goes on in a way that only an
expression can; and the header of a loop is read as one over a collection before any other.

Main definitions:

* `Pare.Parser.block` — statements in braces;
* `Pare.Parser.declaration` — declarations of variables;
* `Pare.Parser.statement` — a statement of any kind.
-/

set_option relaxedAutoImplicit false
set_option autoImplicit false

namespace Pare

namespace Parser

open Concrete (as)

/-! ### Blocks -/

/-- Statements up to a closing brace, which is not passed. -/
def statementsUpTo (go : Descent) (stop : Parser Bool) : Nat → Parser (List Concrete)
  | 0 => failure
  | limit + 1 => do
      lead
      if ← stop then return []
      let first ← go .statement
      return first :: (← statementsUpTo go stop limit)

/-- Does a closing brace come next? -/
def atClose : Parser Bool := return (← nextChar) == '\x7d'

/-- Statements in braces, with a semicolon that may be supplied after them; `operator` tells whether
an operator may follow. -/
def block (go : Descent) (operator : Bool) : Parser Concrete := do
  let openSign ← sign "\x7b"
  let body ← statementsUpTo go atClose ((← ahead).length + 1)
  let close ← sign "\x7d"
  return .ofParts .statementBlock ([openSign] ++ body ++ [close] ++ (← suppliedAfter (!operator)))

/-! ### Expressions as statements -/

def expressionStatement (go : Descent) : Parser Concrete := do
  let inner ← expressions go .ending
  return .ofParts .expressionStatement [inner, ← semicolon false]

/-- A statement after a label, or an expression. -/
def labelOrExpression (go : Descent) : Parser Concrete := do
  let start ← get
  let label ← word .statementIdentifier
  gap
  if (← nextSign) == ":" then
    let colon ← sign ":"
    lead
    let body ← go .statement
    return .ofParts .labeledStatement [label, colon, body.as .body]
  else
    set start
    expressionStatement go

/-- Does the text go on in a way that only an expression can? -/
def carriesOn (found : Concrete) : Parser Bool := do
  if found.endsSupplied then return false
  let next ← nextSign
  let op ← if next == "" then nextWord else pure next
  return Operator.onlyCarriesOn op

/-- A declaration, unless the text goes on in a way that only an expression can; then an expression
from the same place. -/
def declarationOrExpression (found : Parser Concrete) (ending : Concrete → Concrete)
    (expression : Parser Concrete) : Parser Concrete := do
  let start ← get
  let declared ← found
  if ← carriesOn (ending declared) then
    set start
    expression
  else return declared

/-- The last part of a construct. -/
def lastPart (t : Concrete) : Concrete := t.children.getLast?.getD t

def blockStatement (go : Descent) : Parser Concrete := do
  let start ← get
  let _ ← sign "\x7b"
  gap
  let empty ← atClose
  set start
  let object := ifObject (expressionStatement go)
  blockOrObject
    (do
      let found ← go (.block empty)
      if ← carriesOn found then failure else return found)
    object

/-! ### Functions and classes -/

def functionDeclaration (go : Descent) (operator : Bool) : Parser Concrete := do
  let parts ← function go operator
  if parts.isNamed then return parts.toDeclaration else failure

def classDeclaration (go : Descent) (operator : Bool) : Parser Concrete := do
  let (named, parts) ← classParts go
  if named then return .ofParts .classDeclaration (parts ++ (← suppliedAfter (!operator)))
  else failure

/-- A function that is declared, or used in an expression. -/
def functionStatement (go : Descent) (expression : Parser Concrete) : Parser Concrete :=
  declarationOrExpression (functionDeclaration go true) lastPart expression <|> expression

/-- A class that is declared, or used in an expression. -/
def classStatement (go : Descent) (expression : Parser Concrete) : Parser Concrete :=
  declarationOrExpression (classDeclaration go true) id expression <|> expression

/-- Does the word `async` open a function? -/
def opensAsyncFunction : Parser Bool := do
  let start ← get
  let _ ← keyword "async"
  let ended ← settle true false
  let next ← nextWord
  set start
  return !ended && next == "function"

/-! ### Variables -/

/-- The name that a declaration gives to a value, or a pattern of names. -/
def bindingTarget (go : Descent) : Parser Concrete := do
  gap
  match ← nextChar with
  | '[' => do
      match (← array go).toTarget? with
      | some target => return target
      | none => failure
  | '\x7b' => do
      match (← object go).toTarget? with
      | some target => return target
      | none => failure
  | _ => word .identifier

/-- A variable with or without its initial value, and whether it has one. -/
def declarator (go : Descent) (mode : Mode) : Parser (Concrete × Bool) := do
  let name ← bindingTarget go
  let ended ← settle mode.semi true
  if !ended && (← nextSign) == "=" then
    let equals ← sign "="
    let value ← go (.expression mode)
    return (.ofParts .variableDeclarator [name.as .name, equals, value.as .value], true)
  else return (.ofParts .variableDeclarator [name.as .name], false)

/-- Variables with commas between them, and the semicolon after them. -/
def declaratorsUpTo (go : Descent) : Nat → Parser (List Concrete)
  | 0 => failure
  | limit + 1 => do
      let (first, hasValue) ← declarator go .ending
      let ended ← settle true (!hasValue)
      if !ended && (← nextSign) == "," then
        let comma ← sign ","
        return first :: comma :: (← declaratorsUpTo go limit)
      else return [first, ← semicolon (!hasValue)]

/-- A declaration of variables by one of the words `var`, `let` and `const`. -/
def declaration (go : Descent) (opener : String) : Parser Concrete := do
  let token ← keyword opener
  let rest ← declaratorsUpTo go ((← ahead).length + 1)
  if opener == "var" then return .ofParts .variableDeclaration (token :: rest)
  else return .ofParts .lexicalDeclaration (token.as .kind :: rest)

/-- Does the word `let` come next and open a declaration? -/
def opensLet (inHeader : Bool) : Parser Bool := do
  let start ← get
  if (← nextWord) != "let" then return false
  let _ ← keyword "let"
  let ended ← settle true false
  let c ← nextChar
  let w ← nextWord
  set start
  return !ended &&
    (c == '[' || c == '\x7b' ||
      !(["", "in", "instanceof"].contains w) && !(inHeader && w == "of"))

/-! ### Modules -/

/-- The place that a module is taken from. -/
def fromClause : Parser (List Concrete) := do
  let token ← keyword "from"
  return [token, ← lexeme .string Lexeme.string]

/-- A name that a module gives out: a word or a string. -/
def moduleName : Parser Concrete :=
  lexeme .string Lexeme.string <|> word .identifier

/-- A name in the list of an import, perhaps under another name. -/
def importSpecifier : Parser Concrete := do
  lead
  let name ← moduleName
  gap
  if (← nextWord) == "as" then
    let token ← keyword "as"
    return .ofParts .importSpecifier [name, token, ← word .identifier]
  else if name.is .identifier then return .ofParts .importSpecifier [name]
  else failure

/-- A name in the list of an export, perhaps under another name. -/
def exportSpecifier : Parser Concrete := do
  lead
  let name ← moduleName
  gap
  if (← nextWord) == "as" then
    let token ← keyword "as"
    return .ofParts .exportSpecifier [name, token, ← moduleName]
  else return .ofParts .exportSpecifier [name]

/-- A list of names in braces; only the last comma may have no name after it. -/
def nameList (c : Construct) (item : Parser Concrete) : Parser Concrete := do
  let parts ← items "\x7b" "\x7d" item
  let inner := (parts.drop 1).dropLast
  let onlyComma := inner.length == 1 && inner.all fun t => t.isSign ","
  if areSeparated true inner || onlyComma then return .ofParts c parts else failure

def namespaceImport : Parser Concrete := do
  let starToken ← sign "*"
  let token ← keyword "as"
  return .ofParts .namespaceImport [starToken, token, ← word .identifier]

/-- All names of a module, under one name or in a list. -/
def importedNames : Parser Concrete := do
  gap
  if (← nextSign) == "*" then namespaceImport else nameList .namedImports importSpecifier

/-- The names that an import takes. -/
def importClause : Parser Concrete := do
  gap
  if (← nextWord) == "" then return .ofParts .importClause [← importedNames]
  else
    let name ← word .identifier
    gap
    if (← nextSign) == "," then
      let comma ← sign ","
      return .ofParts .importClause [name, comma, ← importedNames]
    else return .ofParts .importClause [name]

/-- The names that an import takes and the place that they come from. -/
def importedFrom : Parser (List Concrete) := do
  let clause ← importClause
  return clause :: (← fromClause)

/-- What else an import states about its module. -/
def importAttributes (go : Descent) : Parser (List Concrete) := do
  if ← settle true true then return []
  if (← nextWord) == "with" then
    let token ← keyword "with"
    return [.ofParts .importAttribute [token, ← object go]]
  else return []

def importStatement (go : Descent) : Parser Concrete := do
  let token ← keyword "import"
  gap
  let c ← nextChar
  let names ←
    if c == '\x22' || c == '\x27' then one (lexeme .string Lexeme.string)
    else importedFrom
  let attributes ← importAttributes go
  return .ofParts .importStatement ([token] ++ names ++ attributes ++ [← semicolon true])

/-- What an export without a declaration gives out. -/
def exportedNames : Parser (List Concrete) := do
  gap
  if (← nextSign) == "*" then
    let starToken ← sign "*"
    gap
    if (← nextWord) == "as" then
      let token ← keyword "as"
      let named := Concrete.ofParts .namespaceExport [starToken, token, ← moduleName]
      return named :: (← fromClause)
    else return starToken :: (← fromClause)
  else
    let clause ← nameList .exportClause exportSpecifier
    if ← settle true true then return [clause]
    if (← nextWord) == "from" then return clause :: (← fromClause) else return [clause]

/-- A declaration that is given out. -/
def exportedDeclaration (go : Descent) : Parser Concrete := do
  lead
  match ← nextWord with
  | "function" | "async" => functionDeclaration go false
  | "class" => classDeclaration go false
  | "var" => declaration go "var"
  | "let" => declaration go "let"
  | "const" => declaration go "const"
  | _ => if (← nextChar) == '@' then classDeclaration go false else failure

/-- An expression that is given out, with its semicolon. -/
def exportedExpression (go : Descent) : Parser (List Concrete) := do
  let value ← go (.expression .ending)
  return [value.as .value, ← semicolon false]

/-- What is given out by default. -/
def defaultExport (go : Descent) : Parser (List Concrete) := do
  lead
  let found : Parser Concrete := do
    match ← nextWord with
    | "function" => functionDeclaration go true
    | "async" => if ← opensAsyncFunction then functionDeclaration go true else failure
    | "class" => classDeclaration go true
    | "let" => if ← opensLet false then declaration go "let" else failure
    | "var" => declaration go "var"
    | "const" => declaration go "const"
    | _ => if (← nextChar) == '@' then classDeclaration go true else failure
  let declared : Parser (List Concrete) := do
    let t ← found
    let isVariable := t.is .variableDeclaration || t.is .lexicalDeclaration
    if !isVariable && (← carriesOn (if t.is .classDeclaration then t else lastPart t)) then failure
    return [t]
  declared <|> exportedExpression go

def exportStatement (go : Descent) : Parser Concrete := do
  let decs ← decorators go
  lead
  let token ← keyword "export"
  lead
  let next ← nextSign
  if decs.isEmpty && (next == "*" || next == "\x7b") then
    let names ← exportedNames
    return .ofParts .exportStatement ([token] ++ names ++ [← semicolon true])
  else if (← nextWord) == "default" then
    let default ← keyword "default"
    return .ofParts .exportStatement (decs ++ [token, default] ++ (← defaultExport go))
  else return .ofParts .exportStatement (decs ++ [token, ← exportedDeclaration go])

/-- A class or an export after decorators. -/
def decorated (go : Descent) : Parser Concrete :=
  exportStatement go <|> classStatement go (expressionStatement go)

/-! ### Loops -/

/-- The operator in the header of a loop over a collection. -/
def headerOperator : Parser Concrete := do
  gap
  match ← nextWord with
  | "in" => as .operator <$> keyword "in"
  | "of" => as .operator <$> keyword "of"
  | _ => failure

/-- The variable of a loop over a collection, with the word that declares it. -/
def loopVariable (go : Descent) : Parser (List Concrete) := do
  lead
  let w ← nextWord
  if w == "var" then
    let token ← keyword "var"
    let name ← bindingTarget go
    gap
    if (← nextSign) == "=" then
      let equals ← sign "="
      let value ← go (.expression .header)
      return [token.as .kind, name.as .left, equals, value.as .value]
    else return [token.as .kind, name.as .left]
  else if w == "const" || (← opensLet true) then
    let token ← keyword w
    let name ← bindingTarget go
    return [token.as .kind, name.as .left] ++ (← suppliedAfter true)
  else
    let base ← primary go .header
    let target ← chainUpTo go .header false ((← ahead).length + 1) base
    let place := if target.isParenthesized then some target else target.toTarget?
    match place with
    | some left => return [left.as .left]
    | none => failure

/-- The header of a loop over a collection. -/
def collectionHeader (go : Descent) : Parser (List Concrete) := do
  let openSign ← sign "("
  let target ← loopVariable go
  let op ← headerOperator
  let right ← expressions go .enclosed
  return [openSign] ++ target ++ [op, right.as .right, ← sign ")"]

def emptyStatement : Parser Concrete := do
  return .node (.construct .emptyStatement) none (← sign ";").span []

/-- The first part of the header of a loop by conditions. -/
def headerStart (go : Descent) : Parser (List Concrete) := do
  lead
  let w ← nextWord
  if (← nextSign) == ";" then return [(← emptyStatement).as .initializer]
  else if w == "var" || w == "const" || (← opensLet true) then
    one (as .initializer <$> declaration go w)
  else
    let init ← expressions go .enclosed
    return [init.as .initializer, ← sign ";"]

/-- The second part of the header of a loop by conditions. -/
def headerTest (go : Descent) : Parser (List Concrete) := do
  lead
  if (← nextSign) == ";" then return [(← emptyStatement).as .condition]
  else
    let test ← expressions go .enclosed
    return [test.as .condition, (← sign ";").as .condition]

/-- The third part of the header of a loop by conditions. -/
def headerStep (go : Descent) : Parser (List Concrete) := do
  lead
  if (← nextSign) == ")" then return []
  else one (as .increment <$> expressions go .enclosed)

/-- The header of a loop by conditions. -/
def conditionHeader (go : Descent) : Parser (List Concrete) := do
  let openSign ← sign "("
  let init ← headerStart go
  let test ← headerTest go
  let step ← headerStep go
  return [openSign] ++ init ++ test ++ step ++ [← sign ")"]

def body (go : Descent) : Parser Concrete := do
  lead
  as .body <$> go .statement

/-- A loop over a collection. -/
def collectionLoop (go : Descent) : Parser Concrete := do
  let token ← keyword "for"
  gap
  let wait ← if (← nextWord) == "await" then one (keyword "await") else pure []
  let header ← collectionHeader go
  return .ofParts .forInStatement ([token] ++ wait ++ header ++ [← body go])

/-- A loop by conditions. -/
def conditionLoop (go : Descent) : Parser Concrete := do
  let token ← keyword "for"
  let header ← conditionHeader go
  return .ofParts .forStatement ([token] ++ header ++ [← body go])

/-- A loop by a test in front. -/
def whileLoop (go : Descent) : Parser Concrete := do
  let token ← keyword "while"
  let test ← parenthesized go
  return .ofParts .whileStatement [token, test.as .condition, ← body go]

/-- A loop by a test at the end. -/
def doLoop (go : Descent) : Parser Concrete := do
  let token ← keyword "do"
  let inner ← body go
  let whileToken ← keyword "while"
  let test ← parenthesized go
  let semi ←
    if ← settle true true then one supplied
    else if (← nextSign) == ";" then one (sign ";")
    else pure []
  return .ofParts .doStatement ([token, inner, whileToken, test.as .condition] ++ semi)

/-! ### Branches -/

def ifStatement (go : Descent) : Parser Concrete := do
  let token ← keyword "if"
  let test ← parenthesized go
  lead
  let consequent ← go .statement
  let front := [token, test.as .condition, consequent.as .consequence]
  gap
  if (← nextWord) == "else" then
    let elseToken ← keyword "else"
    lead
    let clause := Concrete.ofParts .elseClause [elseToken, ← go .statement]
    return .ofParts .ifStatement (front ++ [clause.as .alternative])
  else return .ofParts .ifStatement front

/-- Does the next case of a branch, or the end of the branch, come next? -/
def atCase : Parser Bool := do
  let w ← nextWord
  return (← nextChar) == '\x7d' || w == "case" || w == "default"

/-- What stands before the colon of a case, and which kind of case it is. -/
def caseFront (go : Descent) : Parser (List Concrete × Construct) := do
  if (← nextWord) == "case" then
    let token ← keyword "case"
    let value ← expressions go .enclosed
    return ([token, value.as .value], .switchCase)
  else return ([← keyword "default"], .switchDefault)

def switchCase (go : Descent) : Parser Concrete := do
  lead
  let (front, c) ← caseFront go
  let colon ← sign ":"
  let inner ← statementsUpTo go atCase ((← ahead).length + 1)
  return .ofParts c (front ++ [colon] ++ inner.map (as .body))

/-- A branch by value. -/
def switchStatement (go : Descent) : Parser Concrete := do
  let token ← keyword "switch"
  let value ← parenthesized go
  let openSign ← sign "\x7b"
  let cases ← many (switchCase go)
  lead
  let inner := Concrete.ofParts .switchBody ([openSign] ++ cases ++ [← sign "\x7d"])
  return .ofParts .switchStatement [token, value.as .value, inner.as .body]

/-! ### Jumps and exceptions -/

/-- A jump, which may name its aim. -/
def jump (c : Construct) (opener : String) : Parser Concrete := do
  let token ← keyword opener
  if ← settle true true then return .ofParts c [token, ← supplied]
  if (← nextWord) == "" then return .ofParts c [token, ← semicolon true]
  let aim ← word .statementIdentifier
  return .ofParts c [token, aim, ← semicolon true]

def returnStatement (go : Descent) : Parser Concrete := do
  let token ← keyword "return"
  if ← settle true true then return .ofParts .returnStatement [token, ← supplied]
  if (← nextSign) == ";" then return .ofParts .returnStatement [token, ← sign ";"]
  let value ← expressions go .ending
  return .ofParts .returnStatement [token, value, ← semicolon false]

def throwStatement (go : Descent) : Parser Concrete := do
  let token ← keyword "throw"
  let value ← expressions go .ending
  return .ofParts .throwStatement [token, value, ← semicolon false]

def catchClause (go : Descent) : Parser Concrete := do
  let token ← keyword "catch"
  gap
  let parameter ←
    if (← nextSign) == "(" then do
      let openSign ← sign "("
      let name ← bindingTarget go
      pure [openSign, name.as .parameter, ← sign ")"]
    else pure []
  gap
  let inner ← go (.block false)
  return .ofParts .catchClause ([token] ++ parameter ++ [inner.as .body])

/-- What is done in any case. -/
def finallyClause (go : Descent) : Parser Concrete := do
  let token ← keyword "finally"
  gap
  return .ofParts .finallyClause [token, (← go (.block false)).as .body]

/-- A block with what is done with its exceptions. -/
def tryStatement (go : Descent) : Parser Concrete := do
  let token ← keyword "try"
  gap
  let inner ← go (.block false)
  gap
  let handler ← if (← nextWord) == "catch" then one (catchClause go) else pure []
  gap
  let finalizer ← if (← nextWord) == "finally" then one (finallyClause go) else pure []
  return .ofParts .tryStatement ([token, inner.as .body] ++ handler ++ finalizer)

/-! ### Statements of all kinds -/

/-- A statement with an object whose members are in reach. -/
def withStatement (go : Descent) : Parser Concrete := do
  let token ← keyword "with"
  let object ← parenthesized go
  return .ofParts .withStatement [token, object.as .object, ← body go]

/-- A stop for whoever watches the program run. -/
def debuggerStatement : Parser Concrete := do
  let token ← keyword "debugger"
  return .ofParts .debuggerStatement [token, ← semicolon true]

/-- Does the word `import` open an expression? -/
def opensImportOperand : Parser Bool := do
  let start ← get
  let _ ← keyword "import"
  gap
  let next ← nextSign
  set start
  return next == "(" || next == "."

/-- The statement that a word starts. -/
def wordStatement (go : Descent) (w : String) : Parser Concrete :=
  match w with
  | "var" | "const" => declaration go w
  | "let" => do
      if ← opensLet false then declaration go w else labelOrExpression go
  | "if" => ifStatement go
  | "switch" => switchStatement go
  | "for" => collectionLoop go <|> conditionLoop go
  | "while" => whileLoop go
  | "do" => doLoop go
  | "try" => tryStatement go
  | "with" => withStatement go
  | "break" => jump .breakStatement w
  | "continue" => jump .continueStatement w
  | "debugger" => debuggerStatement
  | "return" => returnStatement go
  | "throw" => throwStatement go
  | "import" => do
      if ← opensImportOperand then expressionStatement go else importStatement go
  | "export" => exportStatement go <|> labelOrExpression go
  | "function" => functionStatement go (expressionStatement go)
  | "class" => classStatement go (expressionStatement go)
  | "async" => do
      if ← opensAsyncFunction then functionStatement go (expressionStatement go)
      else labelOrExpression go
  | "new" | "await" | "yield" | "typeof" | "void" | "delete" | "this" | "super" | "true" | "false"
  | "null" | "undefined" => expressionStatement go
  | _ => labelOrExpression go

/-- A statement of any kind. -/
def statement (go : Descent) : Parser Concrete := do
  lead
  let w ← nextWord
  if w != "" then wordStatement go w
  else
    match ← nextChar with
    | '\x7b' => blockStatement go
    | ';' => emptyStatement
    | '@' => decorated go
    | _ => expressionStatement go

end Parser

end Pare
