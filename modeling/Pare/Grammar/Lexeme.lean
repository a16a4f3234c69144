import Pare.Grammar.Semicolon

/-!
**Lexemes.**

The smallest pieces of a text, each given by its length: how many characters from the start of a
text belong to it.  Length zero means that the text starts with no such lexeme.  Where several
lengths are possible the longest one is taken.

Main definitions:

* `Pare.Lexeme.gap`, `Pare.Lexeme.comment`, `Pare.Lexeme.htmlComment` — what may stand between
  tokens;
* `Pare.Lexeme.word`, `Pare.Lexeme.number`, `Pare.Lexeme.string`, `Pare.Lexeme.regex` — names and
  literals;
* `Pare.Lexeme.sign` — the operator or delimiter that a text starts with;
* `Pare.Lexeme.dashedWord`, `Pare.Lexeme.reference`, `Pare.Lexeme.quotedAttribute`,
  `Pare.Lexeme.markupText` — the pieces of markup.
-/

set_option relaxedAutoImplicit false
set_option autoImplicit false

namespace Pare

namespace Lexeme

open Semicolon (isAsciiBlank isLineEnd nul head)

/-! ### Between tokens -/

/-- The characters that may stand between any two tokens. -/
def isGap (c : Char) : Bool :=
  isAsciiBlank c ||
    (128 ≤ c.toNat &&
      ((0x2000 ≤ c.toNat && c.toNat ≤ 0x200B) ||
        [0xA0, 0x1680, 0x2028, 0x2029, 0x202F, 0x205F, 0x2060, 0x3000, 0xFEFF].contains c.toNat))

/-- The blanks that a text starts with. -/
def gap (cs : List Char) : Nat := (cs.takeWhile isGap).length

/-- The rest of a block comment, up to and with its end. -/
def blockEnd : List Char → Nat
  | '*' :: '/' :: _ => 2
  | _ :: cs =>
      match blockEnd cs with
      | 0 => 0
      | n + 1 => n + 2
  | [] => 0

/-- A comment, to the end of its line or to its closing mark. -/
def comment : List Char → Nat
  | '/' :: '/' :: cs => 2 + (cs.takeWhile fun c => !isLineEnd c && c != '\r').length
  | '/' :: '*' :: cs =>
      match blockEnd cs with
      | 0 => 0
      | n + 1 => n + 3
  | _ => 0

/-- The opening and the closing mark of comments in web pages. -/
def htmlMark (cs : List Char) : Nat :=
  if "<!--".toList.isPrefixOf cs then 4 else if "-->".toList.isPrefixOf cs then 3 else 0

/-- A line that starts with one of the marks of comments in web pages. -/
def htmlComment (cs : List Char) : Nat :=
  match htmlMark cs with
  | 0 => 0
  | n => n + ((cs.drop n).takeWhile fun c => !isLineEnd c && c != nul).length

/-- The blanks that may stand before a comment of a web page. -/
def htmlGap (cs : List Char) : Nat :=
  (cs.takeWhile fun c => isAsciiBlank c || isLineEnd c).length

/-- The first line of a script, which names the program that runs it. -/
def hashBang : List Char → Nat
  | '#' :: '!' :: cs => 2 + (cs.takeWhile fun c => c != '\n').length
  | _ => 0

/-! ### Words -/

def isHex (c : Char) : Bool := c.isDigit || ('a' ≤ c && c ≤ 'f') || ('A' ≤ c && c ≤ 'F')

/-- The escape of a character by its code, in a word: a backslash, the letter u and four digits or
digits in braces. -/
def codeEscape : List Char → Nat
  | '\x5c' :: 'u' :: '\x7b' :: cs =>
      let digits := (cs.takeWhile isHex).length
      if digits != 0 && (cs.drop digits).head? == some '\x7d' then digits + 4 else 0
  | '\x5c' :: 'u' :: cs =>
      if (cs.takeWhile isHex).length ≥ 4 then 6 else 0
  | _ => 0

/-- The ASCII characters of signs and quotes, which no word has. -/
def nonWord : List Char := ":;\x60\x22\x27@#.,|^&<=>+-*/\x5c%?!~()[]\x7b\x7d".toList

/-- The characters that a word may have after its first. -/
def isWordPart (c : Char) : Bool := 0x20 ≤ c.toNat && !isGap c && !nonWord.contains c

/-- The characters of a word from here on, at most as many as are given. -/
def wordTail : Nat → List Char → Nat
  | 0, _ => 0
  | _ + 1, [] => 0
  | n + 1, c :: cs =>
      if isWordPart c then 1 + wordTail n cs
      else
        match codeEscape (c :: cs) with
        | 0 => 0
        | k => k + wordTail n (cs.drop (k - 1))

def word (cs : List Char) : Nat :=
  if (head cs).isDigit then 0 else wordTail cs.length cs

/-- The name of a private member: a number sign and a word. -/
def privateName : List Char → Nat
  | '#' :: cs =>
      match word cs with
      | 0 => 0
      | n => n + 1
  | _ => 0

/-- The two words that open a static member to be read, if the line ends after them: they make one
lexeme up to the last line break of the blanks that follow. -/
def staticGet (cs : List Char) : Nat :=
  let between := ((cs.drop 6).takeWhile isAsciiBlank).length
  let rest := cs.drop (6 + between)
  let after := (rest.drop 3).takeWhile isAsciiBlank
  let kept := (after.reverse.dropWhile fun c => c != '\n').length
  if "static".toList.isPrefixOf cs && between != 0 && "get".toList.isPrefixOf rest && kept != 0 then
    6 + between + 3 + kept
  else 0

/-! ### Numbers -/

/-- Digits after the first, with single underscores between them. -/
def moreDigits (isDigit : Char → Bool) : List Char → Nat
  | '_' :: d :: cs => if isDigit d then 2 + moreDigits isDigit cs else 0
  | d :: cs => if isDigit d then 1 + moreDigits isDigit cs else 0
  | [] => 0

/-- A row of digits, with single underscores between them. -/
def digits (isDigit : Char → Bool) : List Char → Nat
  | d :: cs => if isDigit d then 1 + moreDigits isDigit cs else 0
  | [] => 0

def basedDigits : List Char → Nat
  | '0' :: mark :: cs =>
      let run :=
        if mark == 'x' || mark == 'X' then digits isHex cs
        else if mark == 'b' || mark == 'B' then digits (fun c => c == '0' || c == '1') cs
        else if mark == 'o' || mark == 'O' then digits (fun c => '0' ≤ c && c ≤ '7') cs
        else 0
      if run = 0 then 0 else run + 2
  | _ => 0

def exponent : List Char → Nat
  | e :: cs =>
      if e == 'e' || e == 'E' then
        let signed := if head cs == '-' || head cs == '+' then 1 else 0
        match digits Char.isDigit (cs.drop signed) with
        | 0 => 0
        | n => n + signed + 1
      else 0
  | [] => 0

/-- May digits stand before a decimal point or an exponent?  At most one zero may lead. -/
def mayLead (run : List Char) : Bool :=
  match run with
  | ['0'] => true
  | '0' :: d :: _ => '1' ≤ d && d ≤ '9'
  | d :: _ => d.isDigit
  | [] => false

/-- A decimal number with a fraction or an exponent, after its leading digits. -/
def fraction (cs : List Char) : Nat :=
  match cs with
  | '.' :: rest =>
      let places := digits Char.isDigit rest
      1 + places + exponent (rest.drop places)
  | _ => exponent cs

def number (cs : List Char) : Nat :=
  match basedDigits cs with
  | 0 =>
      match cs with
      | '.' :: rest =>
          match digits Char.isDigit rest with
          | 0 => 0
          | places => 1 + places + exponent (rest.drop places)
      | _ =>
          let whole := digits Char.isDigit cs
          let rest := cs.drop whole
          if whole = 0 then 0
          else if head rest == 'n' then whole + 1
          else if mayLead (cs.take whole) then whole + fraction rest
          else whole
  | based => if head (cs.drop based) == 'n' then based + 1 else based

/-! ### Strings -/

/-- Is the character a digit of base eight? -/
def isOctal (c : Char) : Bool := '0' ≤ c && c ≤ '7'

/-- An escape in a string or a template. -/
def escape (cs : List Char) : Nat :=
  match cs with
  | '\x5c' :: c :: rest =>
      if c == 'x' then
        if (rest.takeWhile isHex).length ≥ 2 then 4 else 0
      else if c == 'u' then codeEscape cs
      else if isOctal c then 2 + ((rest.take 2).takeWhile isOctal).length
      else if (c == '\r' || c == '?') && isLineEnd (head rest) then 3
      else 2
  | _ => 0

/-- The rest of a string, up to and with its closing quote.  A line may end in it only by an escape,
or if nothing but blanks and comments follow up to the quote; `joined` tells whether no blank stands
right before. -/
def stringTail (quote : Char) : Nat → Bool → List Char → Nat
  | 0, _, _ => 0
  | _ + 1, _, [] => 0
  | n + 1, joined, c :: cs =>
      let onward := fun (count : Nat) (j : Bool) =>
        match stringTail quote n j (cs.drop (count - 1)) with
        | 0 => 0
        | k => count + k
      if c == quote then 1
      else if joined && c != '\x5c' && c != '\r' && c != '\n' then onward 1 true
      else if joined && c == '\x5c' then
        match escape (c :: cs) with
        | 0 => 0
        | k => onward k true
      else if isGap c then onward 1 false
      else
        match comment (c :: cs) with
        | 0 => 0
        | k => onward k true

def string : List Char → Nat
  | c :: cs =>
      if c == '\x22' || c == '\x27' then
        match stringTail c (cs.length + 1) true cs with
        | 0 => 0
        | n => n + 1
      else 0
  | [] => 0

/-! ### Regular expressions -/

/-- The rest of a class of characters, up to and with its closing bracket. -/
def classTail : List Char → Nat
  | '\x5c' :: c :: cs =>
      if c == '\n' then 0
      else
        match classTail cs with
        | 0 => 0
        | n => n + 2
  | c :: cs =>
      if c == ']' then 1
      else if c == '\n' || c == '\x5c' then 0
      else
        match classTail cs with
        | 0 => 0
        | n => n + 1
  | [] => 0

/-- The next piece of a pattern: a class, an escape or a character. -/
def patternPiece : List Char → Nat
  | '[' :: cs =>
      match classTail cs with
      | 0 => 0
      | n => n + 1
  | '\x5c' :: c :: _ => if c == '\n' then 0 else 2
  | c :: _ => if c == '/' || c == '\x5c' || c == '\n' then 0 else 1
  | [] => 0

/-- A pattern, as far as it goes. -/
def pattern : Nat → List Char → Nat
  | 0, _ => 0
  | n + 1, cs =>
      match patternPiece cs with
      | 0 => 0
      | k => k + pattern n (cs.drop k)

def regex : List Char → Nat
  | '/' :: cs =>
      match pattern cs.length cs with
      | 0 => 0
      | n =>
          match cs.drop n with
          | '/' :: flags => n + 2 + (flags.takeWhile fun c => 'a' ≤ c && c ≤ 'z').length
          | _ => 0
  | _ => 0

/-! ### Templates -/

/-- The characters of a template up to its next escape, substitution or end. -/
def templateText : List Char → Nat
  | '$' :: '\x7b' :: _ => 0
  | c :: cs => if c == '\x60' || c == '\x5c' || c == nul then 0 else 1 + templateText cs
  | [] => 0

/-! ### Signs -/

/-- The operators and delimiters, longer ones first. -/
def signs : List (String × List Char) :=
  [">>>=", "...", "===", "!==", ">>>", "<<=", ">>=", "**=", "&&=", "||=", "??=", "=>", "==", "!=",
   "<=", ">=", "<<", ">>", "**", "++", "--", "&&", "||", "??", "?.", "+=", "-=", "*=", "/=", "%=",
   "&=", "|=", "^=", "\x7b", "\x7d", "(", ")", "[", "]", ";", ",", "<", ">", "+", "-", "*", "/",
   "%", "&", "|", "^", "!", "~", "?", ":", "=", ".", "@", "\x60"].map fun s => (s, s.toList)

/-- The operator or delimiter that a text starts with, empty if there is none.  A question mark
before a decimal point and a digit stands alone. -/
def sign (cs : List Char) : String :=
  match signs.find? fun s => s.2.isPrefixOf cs with
  | some (s, _) => if s == "?." && (head (cs.drop 2)).isDigit then "?" else s
  | none => ""

/-! ### Markup -/

/-- May the character stand in a name with dashes? -/
def isDashedPart (c : Char) : Bool := c.isAlphanum || c == '_' || c == '$' || c == '-'

/-- A name with at least one dash. -/
def dashedWord (cs : List Char) : Nat :=
  let run := cs.takeWhile isDashedPart
  if run.contains '-' && !(head run).isDigit && head run != '-' then run.length else 0

/-- A reference to a character by its name or its number. -/
def reference : List Char → Nat
  | '&' :: '#' :: cs =>
      let hex := head cs == 'x' || head cs == 'X'
      let skipped := if hex then 1 else 0
      let run := ((cs.drop skipped).takeWhile fun c => if hex then isHex c else c.isDigit).length
      if run != 0 && run ≤ (if hex then 6 else 5) && head (cs.drop (skipped + run)) == ';' then
        run + skipped + 3
      else 0
  | '&' :: cs =>
      let run := (cs.takeWhile Char.isAlpha).length
      if run != 0 && run ≤ 30 && head (cs.drop run) == ';' then run + 2 else 0
  | _ => 0

/-- The rest of a quoted attribute, up to and with its closing quote. -/
def attributeTail (quote : Char) : Nat → List Char → Nat
  | 0, _ => 0
  | _ + 1, [] => 0
  | n + 1, c :: cs =>
      let piece :=
        if c != '&' then 1
        else
          match cs with
          | d :: _ => if d == '#' || d.isAlpha then reference (c :: cs) else 2
          | [] => 0
      if c == quote then 1
      else if piece = 0 then 0
      else
        match attributeTail quote n (cs.drop (piece - 1)) with
        | 0 => 0
        | k => piece + k

/-- The value of an attribute between two quotes. -/
def quotedAttribute : List Char → Nat
  | c :: cs =>
      if c == '\x22' || c == '\x27' then
        match attributeTail c (cs.length + 1) cs with
        | 0 => 0
        | n => n + 1
      else 0
  | [] => 0

/-- The characters that end the text between elements. -/
def endsMarkupText (c : Char) : Bool :=
  c == '<' || c == '>' || c == '\x7b' || c == '\x7d' || c == '&' || c == nul

/-- Does a text between elements show?  Line breaks and the blanks that follow them do not;
`broken` tells whether only such have come since the last line break. -/
def shows : Bool → List Char → Bool
  | _, [] => false
  | broken, c :: cs =>
      if c == '\n' then shows true cs
      else if broken && isAsciiBlank c then shows true cs
      else true

/-- The text between elements, if it shows. -/
def markupText (cs : List Char) : Nat :=
  let run := cs.takeWhile fun c => !endsMarkupText c
  if shows false run then run.length else 0

end Lexeme

end Pare
