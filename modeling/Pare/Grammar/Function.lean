import Pare.Grammar.Pattern

/-!
**Functions, objects and classes.**

The constructs that have members with names: the properties of objects, the methods and fields of
classes, and functions with their parameters and bodies.

Main definitions:

* `Pare.Parser.propertyName` — the name of a member;
* `Pare.Parser.objectItem`, `Pare.Parser.object` — the properties of an object;
* `Pare.Parser.function` — a function, with or without a name;
* `Pare.Parser.decorators`, `Pare.Parser.classBody`, `Pare.Parser.classParts` — classes.
-/

set_option relaxedAutoImplicit false
set_option autoImplicit false

namespace Pare

namespace Parser

open Concrete (as)

/-! ### Members -/

/-- May the name of a member start with this character? -/
def startsName (c : Char) : Bool :=
  c == '[' || c == '#' || c == '\x22' || c == '\x27' || c == '.' || c == '\x5c' ||
    Lexeme.isWordPart c

/-- The name of a member: a word, a private name, a string, a number or an expression in
brackets. -/
def propertyName (go : Descent) : Parser Concrete := do
  gap
  let c ← nextChar
  if c == '[' then
    let openSign ← sign "["
    let inner ← go (.expression .enclosed)
    return .ofParts .computedName [openSign, inner, ← sign "]"]
  if c == '#' then lexeme .privateIdentifier Lexeme.privateName
  else if c == '\x22' || c == '\x27' then lexeme .string Lexeme.string
  else if c == '.' || c.isDigit then lexeme .number Lexeme.number
  else word .propertyIdentifier

/-- A word in front of the name of a member, if it is not the name itself.  In a class a semicolon
may be supplied after it, which makes it the name of a field. -/
def modifier (inClass : Bool) (text : String) : Parser (List Concrete) := do
  let start ← get
  if (← nextWord) != text then return []
  let token ← keyword text
  let ended ← settle inClass true
  let c ← nextChar
  let starred := c == '*' && (text == "static" || text == "async")
  if !ended && (starred || startsName c) then return [token]
  set start
  return []

/-- The mark of a generator, if it comes next. -/
def star : Parser (List Concrete) := do
  gap
  if (← nextSign) == "*" then return [← sign "*"] else return []

/-- The words and marks in front of the name of a member. -/
def modifiers (inClass : Bool) : Parser (List Concrete) := do
  gap
  let opening ←
    if Lexeme.staticGet (← ahead) != 0 then
      one (leaf (.sign "static get") Lexeme.staticGet)
    else modifier inClass "static"
  gap
  let early ← modifier inClass "async"
  gap
  let reader ← modifier inClass "get"
  let writer ← if reader.isEmpty then modifier inClass "set" else pure []
  let marked ← if reader.isEmpty && writer.isEmpty then star else pure []
  return opening ++ early ++ reader ++ writer ++ marked

/-- The rest of a method, after its name. -/
def methodTail (go : Descent) (front : List Concrete) (name : Concrete) : Parser Concrete := do
  let params ← parameters go
  gap
  let body ← go (.block false)
  return .ofParts .methodDefinition
    (front ++ [name.as .name, params.as .parameters, body.as .body])

/-! ### Decorators -/

/-- The rest of a name with dots in a decorator. -/
def dottedTail : Nat → Concrete → Parser Concrete
  | 0, _ => failure
  | limit + 1, object => do
      gap
      if (← nextSign) == "." then
        let dot ← sign "."
        let property ← word .propertyIdentifier
        dottedTail limit
          (.ofParts .memberExpression [object.as .object, dot, property.as .property])
      else return object

/-- A decorator: a name with dots, with or without arguments. -/
def decorator (go : Descent) : Parser Concrete := do
  let at_ ← sign "@"
  let name ← word .identifier
  let name ← dottedTail (← ahead).length name
  gap
  if (← nextSign) == "(" then
    let args ← arguments go
    return .ofParts .decorator
      [at_, .ofParts .callExpression [name.as .callee, args.as .arguments]]
  else return .ofParts .decorator [at_, name]

def decorators (go : Descent) : Parser (List Concrete) := many (lead *> decorator go)

/-! ### Objects -/

/-- A property of an object: a pair, a method, or a name alone, which may have a default if the
object turns out to be a pattern. -/
def property (go : Descent) : Parser Concrete := do
  let decs ← decorators go
  let mods ← modifiers false
  let front := decs ++ mods
  let name ← propertyName go
  gap
  let next ← nextSign
  if next == "(" then methodTail go front name
  else if !front.isEmpty then failure
  else if next == ":" then
    let colon ← sign ":"
    let value ← go (.expression .enclosed)
    return .ofParts .pair [name.as .key, colon, value.as .value]
  else if name.is .propertyIdentifier then
    if next == "=" then
      let equals ← sign "="
      let value ← go (.expression .enclosed)
      return .ofParts .objectAssignmentPattern
        [(name.relabel .shorthandIdentifierPattern).as .left, equals, value.as .right]
    else return name.relabel .shorthandIdentifier
  else failure

/-- A pattern with its default, which may stand in an object that turns out to be a pattern. -/
def patternWithDefault (go : Descent) : Parser Concrete := do
  let t ← go (.operand .enclosed)
  let isPattern := t.children.head?.any fun p => p.is .objectPattern || p.is .arrayPattern
  if t.is .assignmentExpression && isPattern then
    return t.relabel .objectAssignmentPattern
  else failure

def objectItem (go : Descent) : Parser Concrete := do
  lead
  if (← nextSign) == "..." then spread go
  else
    let c ← nextChar
    if c == '\x7b' then patternWithDefault go
    else if c == '[' then property go <|> patternWithDefault go
    else property go

def object (go : Descent) : Parser Concrete := do
  return .ofParts .object (← items "\x7b" "\x7d" (objectItem go))

/-! ### Functions -/

/-- What a function is made of. -/
structure FunctionParts where
  /-- Is it a generator? -/
  isGenerator : Bool
  /-- Does it have a name? -/
  isNamed : Bool
  /-- Its parts. -/
  parts : List Concrete

namespace FunctionParts

/-- The function as an expression. -/
def toExpression (f : FunctionParts) : Concrete :=
  .ofParts (if f.isGenerator then .generatorFunction else .functionExpression) f.parts

/-- The function as a declaration. -/
def toDeclaration (f : FunctionParts) : Concrete :=
  .ofParts (if f.isGenerator then .generatorFunctionDeclaration else .functionDeclaration) f.parts

end FunctionParts

/-- A function, with or without a name; `operator` tells whether an operator may follow it. -/
def function (go : Descent) (operator : Bool) : Parser FunctionParts := do
  gap
  let opening ← if (← nextWord) == "async" then one (keyword "async") else pure []
  let function ← keyword "function"
  let starred ← star
  gap
  let name ← if (← nextWord) == "" then pure [] else one (as .name <$> word .identifier)
  let params ← parameters go
  gap
  let body ← go (.block operator)
  return ⟨!starred.isEmpty, !name.isEmpty,
    opening ++ [function] ++ starred ++ name ++ [params.as .parameters, body.as .body]⟩

/-! ### Classes -/

/-- A block that runs when a class is made. -/
def staticBlock (go : Descent) : Parser (List Concrete) := do
  let token ← keyword "static"
  let semi ← suppliedAfter true
  if (← nextChar) != '\x7b' then failure
  let body ← go (.block false)
  return [.ofParts .classStaticBlock ([token] ++ semi ++ [body.as .body])]

/-- A method or a field of a class, a field with its semicolon. -/
def methodOrField (go : Descent) : Parser (List Concrete) := do
  let decs ← decorators go
  lead
  let mods ← modifiers true
  let name ← propertyName go
  let ended ← settle true true
  let next ← nextSign
  if !ended && next == "(" then return [← methodTail go (decs ++ mods) name]
  if !(mods.all fun m => m.isSign "static") then failure
  let front := decs ++ mods ++ [name.as .property]
  if !ended && next == "=" then
    let equals ← sign "="
    let value ← go (.expression .ending)
    let field := Concrete.ofParts .fieldDefinition (front ++ [equals, value.as .value])
    return [field, ← semicolon false]
  else
    let field := Concrete.ofParts .fieldDefinition front
    return [field, ← semicolon true]

def member (go : Descent) : Parser (List Concrete) := do
  lead
  if (← nextSign) == ";" then return [← sign ";"]
  if (← nextWord) == "static" then staticBlock go <|> methodOrField go
  else methodOrField go

def classBody (go : Descent) : Parser Concrete := do
  let openSign ← sign "\x7b"
  let members ← many (member go)
  lead
  return .ofParts .classBody ([openSign] ++ members.flatten ++ [← sign "\x7d"])

def classHeritage (go : Descent) : Parser Concrete := do
  let token ← keyword "extends"
  return .ofParts .classHeritage [token, ← go (.expression .enclosed)]

/-- What a class is made of: whether it has a name, and its parts. -/
def classParts (go : Descent) : Parser (Bool × List Concrete) := do
  let decs ← decorators go
  lead
  let keywordToken ← keyword "class"
  gap
  let next ← nextWord
  let name ←
    if next == "" || next == "extends" then pure []
    else one (as .name <$> word .identifier)
  gap
  let heritage ← if (← nextWord) == "extends" then one (classHeritage go) else pure []
  let body ← classBody go
  return (!name.isEmpty, decs ++ [keywordToken] ++ name ++ heritage ++ [body.as .body])

end Parser

end Pare
