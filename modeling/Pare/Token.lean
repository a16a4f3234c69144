import Pare.Span

/-!
**Tokens.**

A token is a lexical unit of the source: what it is, its text, and where it stands.  Comments are
tokens too, of two kinds of their own.

Main definitions:

* `Pare.Token.Kind` — the lexical categories;
* `Pare.Token` — a lexical unit with its text and place;
* `Pare.Token.isSign`, `Pare.Token.isWord` — is this the punctuator, or the word, with that text?
* `Pare.Token.continuesExpression` — does a token on a new line carry the expression on?
-/

set_option relaxedAutoImplicit false
set_option autoImplicit false

namespace Pare

/-- The lexical categories. -/
inductive Token.Kind where
  /-- Operators and delimiters. -/
  | punctuator
  /-- Identifiers and keywords. -/
  | word
  | string
  | template
  | numeric
  | regExp
  | jsxText
  | lineComment
  | blockComment
deriving DecidableEq, Repr

/-- Is this a category of comments? -/
def Token.Kind.isComment : Token.Kind → Bool
  | .lineComment | .blockComment => true
  | _ => false

/-- A lexical unit with its text and its place. -/
structure Token where
  /-- The lexical category. -/
  kind : Token.Kind
  /-- The text of the token. -/
  value : String
  /-- The bytes the token occupies. -/
  span : Span
deriving DecidableEq, Repr

namespace Token

def isComment (t : Token) : Bool := t.kind.isComment

/-- Is the token the punctuator with this text? -/
def isSign (t : Token) (text : String) : Bool := t.kind == .punctuator && t.value == text

/-- Is the token the word with this text? -/
def isWord (t : Token) (text : String) : Bool := t.kind == .word && t.value == text

/-- The order of tokens by where they start. -/
def startsBy (a b : Token) : Bool := a.span.start ≤ b.span.start

/-- The punctuators that cannot carry on an expression from the line before. -/
def endingSigns : List String :=
  ["\x7b", "\x7d", ")", "]", ";", "++", "--", "!", "~", "=>", "..."]

/-- Does this token carry on the expression of the line before, so that no semicolon is supplied
in front of it? -/
def continuesExpression (t : Token) : Bool :=
  match t.kind with
  | .template | .regExp => true
  | .word => t.value == "in" || t.value == "instanceof"
  | .punctuator => !endingSigns.contains t.value
  | _ => false

end Token

end Pare
