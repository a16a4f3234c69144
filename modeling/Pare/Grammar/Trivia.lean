import Pare.Grammar.Cursor
import Pare.Grammar.Lexeme

/-!
**Between two tokens.**

Blanks and comments may stand between any two tokens; the cursor passes them and keeps the comments.
Where a semicolon may be supplied, that is decided first, before every comment, so that a supplied
semicolon can stand after a comment.

Main definitions:

* `Pare.Parser.gap`, `Pare.Parser.lead` — pass blanks and comments;
* `Pare.Parser.settle` — passes comments up to a supplied semicolon;
* `Pare.Parser.sign`, `Pare.Parser.keyword`, `Pare.Parser.word` — pass a token of a given form;
* `Pare.Parser.nextSign`, `Pare.Parser.nextWord` — what comes next;
* `Pare.Parser.semicolon` — passes a semicolon, written or supplied.
-/

set_option relaxedAutoImplicit false
set_option autoImplicit false

namespace Pare

namespace Parser

/-! ### Comments -/

def keep (comment : Concrete) : Parser Unit :=
  modify fun c => { c with comments := comment :: c.comments }

/-- Passes a comment and the blanks before it, if there is one. -/
def passComment : Parser Bool := do
  let cs ← ahead
  let blanks := Lexeme.gap cs
  if Lexeme.comment (cs.drop blanks) = 0 then return false
  let _ ← take blanks
  keep (← leaf (.construct .comment) Lexeme.comment)
  return true

/-- Passes a comment of a web page and the blanks before it, if there is one. -/
def passHtmlComment : Parser Bool := do
  let cs ← ahead
  let blanks := Lexeme.htmlGap cs
  if Lexeme.htmlComment (cs.drop blanks) = 0 then return false
  let _ ← take blanks
  keep (← leaf (.construct .htmlComment) Lexeme.htmlComment)
  return true

/-- Passes as many comments as there are, up to a limit. -/
def passAll (pass : Parser Bool) : Nat → Parser Unit
  | 0 => pure ()
  | limit + 1 => do
      if ← pass then passAll pass limit

def blanks : Parser Unit := do
  let _ ← take (Lexeme.gap (← ahead))

/-- Passes blanks and comments where an operator may follow. -/
def gap : Parser Unit := do
  if ← passComment then passAll passComment (← ahead).length
  blanks

/-- Passes a comment of either kind. -/
def passAnyComment : Parser Bool := do
  if ← passHtmlComment then return true
  passComment

/-- Passes blanks and comments where no operator may follow. -/
def lead : Parser Unit := do
  if ← passAnyComment then passAll passAnyComment (← ahead).length
  blanks

/-! ### Supplied semicolons -/

/-- Passes comments, up to a limit, until a semicolon is supplied; tells whether one is. -/
def settleUpTo (trailing : Bool) : Nat → Parser Bool
  | 0 => return false
  | limit + 1 => do
      if Semicolon.isSupplied trailing (← ahead) then return true
      if ← passComment then settleUpTo trailing limit else return false

/-- Passes comments until a semicolon is supplied, if one may be; tells whether one is.  Where no
operator may follow, `trailing`, a comment that ends its line is enough. -/
def settle (allowed trailing : Bool) : Parser Bool := do
  if allowed then settleUpTo trailing ((← ahead).length + 1)
  else
    if ← passComment then passAll passComment (← ahead).length
    return false

/-! ### What comes next -/

/-- The operator or delimiter that comes next, past blanks, empty if there is none. -/
def nextSign : Parser String := do
  let cs ← ahead
  return Lexeme.sign (cs.drop (Lexeme.gap cs))

/-- The word that comes next, past blanks, empty if there is none. -/
def nextWord : Parser String := do
  let cs ← ahead
  let rest := cs.drop (Lexeme.gap cs)
  return String.ofList (rest.take (Lexeme.word rest))

/-- The character that comes next, past blanks. -/
def nextChar : Parser Char := do
  let cs ← ahead
  return Semicolon.head (cs.drop (Lexeme.gap cs))

/-! ### Tokens -/

/-- Passes an operator or delimiter, past blanks and comments. -/
def sign (text : String) : Parser Concrete := do
  gap
  if Lexeme.sign (← ahead) == text then
    leaf (.sign text) fun _ => text.length
  else failure

/-- Passes an operator or delimiter, past blanks and comments, with no regard to longer ones. -/
def mark (text : String) : Parser Concrete := do
  gap
  if text.toList.isPrefixOf (← ahead) then
    leaf (.sign text) fun _ => text.length
  else failure

/-- Passes a keyword, past blanks and comments. -/
def keyword (text : String) : Parser Concrete := do
  gap
  if (← nextWord) == text then leaf (.sign text) Lexeme.word else failure

/-- Passes a word, past blanks and comments, and makes a leaf of it. -/
def word (c : Construct) : Parser Concrete := do
  gap
  leaf (.construct c) Lexeme.word

/-- Passes a lexeme, past blanks and comments, and makes a leaf of it. -/
def lexeme (c : Construct) (length : List Char → Nat) : Parser Concrete := do
  gap
  leaf (.construct c) length

/-- The semicolon that is supplied where the cursor stands, which takes up no text. -/
def supplied : Parser Concrete := do
  return .node (.sign "") none (.point (← get).offset) []

/-- Passes a semicolon, written or supplied. -/
def semicolon (trailing : Bool) : Parser Concrete := do
  if ← settle true trailing then supplied else sign ";"

/-- The semicolon supplied after a construct, if there is one. -/
def suppliedAfter (trailing : Bool) : Parser (List Concrete) := do
  if ← settle true trailing then return [← supplied] else return []

end Parser

end Pare
