import Pare.Grammar.Goal

/-!
**Elements of markup.**

An element is an expression in angle brackets: an opening tag with attributes, children, and a
closing tag, or one tag that closes itself.  An opening tag without a name opens a fragment.

Main definitions:

* `Pare.Parser.elementName`, `Pare.Parser.tagAttribute` — names and attributes;
* `Pare.Parser.braced` — an expression in braces, which may be left out;
* `Pare.Parser.element` — an element with its children.
-/

set_option relaxedAutoImplicit false
set_option autoImplicit false

namespace Pare

namespace Parser

open Concrete (as)

/-! ### Names -/

/-- A name in markup, which may have dashes. -/
def markupWord (c : Construct) : Parser Concrete :=
  lexeme c fun cs => max (Lexeme.dashedWord cs) (Lexeme.word cs)

/-- The rest of a name with dots. -/
def memberTail : Nat → Concrete → Parser Concrete
  | 0, _ => failure
  | limit + 1, object => do
      gap
      if (← nextSign) == "." then
        let dot ← sign "."
        let property ← word .propertyIdentifier
        memberTail limit
          (.ofParts .memberExpression [object.as .object, dot, property.as .property])
      else return object

def namespaceName (first : Concrete) : Parser Concrete := do
  let colon ← sign ":"
  return .ofParts .jsxNamespaceName [first.relabel .identifier, colon, ← markupWord .identifier]

def elementName : Parser Concrete := do
  gap
  let plain := Lexeme.dashedWord (← ahead) = 0
  let first ← markupWord .identifier
  gap
  let next ← nextSign
  if next == ":" then namespaceName first
  else if plain then memberTail (← ahead).length first
  else return first

/-! ### Attributes -/

/-- What may stand in braces inside markup. -/
def bracedContent (go : Descent) : Parser (List Concrete) := do
  lead
  let next ← nextSign
  if next == "\x7d" then return []
  else if next == "..." then one (spread go)
  else one (expressions go .enclosed)

/-- An expression in braces, which may be left out. -/
def braced (go : Descent) : Parser Concrete := do
  let openSign ← sign "\x7b"
  let content ← bracedContent go
  return .ofParts .jsxExpression ([openSign] ++ content ++ [← sign "\x7d"])

def attributeValue (go : Descent) : Parser Concrete := do
  gap
  let c ← nextChar
  if c == '\x7b' then braced go
  else if c == '<' then go .element
  else lexeme .string Lexeme.quotedAttribute

/-- An attribute: a name with or without a value, or an expression in braces. -/
def tagAttribute (go : Descent) : Parser Concrete := do
  gap
  if (← nextChar) == '\x7b' then braced go
  else
    let first ← markupWord .propertyIdentifier
    gap
    let name ← if (← nextSign) == ":" then namespaceName first else pure first
    gap
    if (← nextSign) == "=" then
      let equals ← sign "="
      return .ofParts .jsxAttribute [name, equals, ← attributeValue go]
    else return .ofParts .jsxAttribute [name]

/-! ### Elements -/

/-- The closing tag of an element. -/
def closingTag : Parser Concrete := do
  let start ← mark "</"
  gap
  let name ← if (← nextChar) == '>' then pure [] else one (as .name <$> elementName)
  return .ofParts .jsxClosingElement ([start] ++ name ++ [← mark ">"])

/-- The length of a comment of a web page between children, with the blanks before it. -/
def commentBetween (cs : List Char) : Nat :=
  let blanks := (cs.takeWhile fun c => !Lexeme.endsMarkupText c).length
  match Lexeme.htmlComment (cs.drop blanks) with
  | 0 => 0
  | n => blanks + n

/-- The children of an element and its closing tag. -/
def childrenUpTo (go : Descent) : Nat → Parser (List Concrete)
  | 0 => failure
  | limit + 1 => do
      let cs ← ahead
      if Lexeme.markupText cs != 0 then
        let text ← leaf (.construct .jsxText) Lexeme.markupText
        return text :: (← childrenUpTo go limit)
      else if commentBetween cs != 0 then
        keep (← leaf (.construct .htmlComment) commentBetween)
        childrenUpTo go limit
      else
        blanks
        let rest ← ahead
        if "</".toList.isPrefixOf rest then one (as .closeTag <$> closingTag)
        else
          let child ←
            match Semicolon.head rest with
            | '<' => go .element
            | '\x7b' => braced go
            | '&' => leaf (.construct .htmlCharacterReference) Lexeme.reference
            | _ => failure
          return child :: (← childrenUpTo go limit)

/-- The rest of an element after its opening tag. -/
def elementTail (go : Descent) (opening : List Concrete) : Parser Concrete := do
  let tag := Concrete.ofParts .jsxOpeningElement (opening ++ [← mark ">"])
  let children ← childrenUpTo go (← ahead).length
  return .ofParts .jsxElement (tag.as .openTag :: children)

/-- An element with its children, or one that closes itself. -/
def element (go : Descent) : Parser Concrete := do
  let less ← mark "<"
  gap
  if (← nextChar) == '>' then elementTail go [less]
  else
    let name ← elementName
    let attributes ← many (tagAttribute go)
    let front := [less, name.as .name] ++ attributes
    gap
    if (← nextChar) == '>' then elementTail go front
    else return .ofParts .jsxSelfClosingElement (front ++ [← mark "/>"])

end Parser

end Pare
