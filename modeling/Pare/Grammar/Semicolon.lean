/-!
**Where a semicolon is supplied.**

A statement may go without its semicolon where the text makes clear that it ends: before a closing
brace, at the end of the text, or before a line break if the next line cannot carry the statement
on.  Whether it can is decided by the first character of that line, past blanks and comments, not
by whether the result would make sense.

Main definitions:

* `Pare.Semicolon.skim` — what follows after blanks and comments;
* `Pare.Semicolon.startsAnew` — does a text on a new line start a new statement?
* `Pare.Semicolon.isSupplied` — is a semicolon supplied in front of a text?

Main results:

* `Pare.Semicolon.isSupplied_nil`, `Pare.Semicolon.isSupplied_brace` — it is at the end of the text
  and before a closing brace.
-/

set_option relaxedAutoImplicit false
set_option autoImplicit false

namespace Pare

namespace Semicolon

/-! ### Characters -/

/-- The character after the end of a text. -/
def nul : Char := '\x00'

/-- The blanks of ASCII, line breaks among them. -/
def isAsciiBlank (c : Char) : Bool := c == ' ' || (0x09 ≤ c.toNat && c.toNat ≤ 0x0D)

/-- The characters that end a line. -/
def isLineEnd (c : Char) : Bool := c == '\n' || c == '\u2028' || c == '\u2029'

/-- The first character of a text. -/
def head (cs : List Char) : Char := cs.headD nul

/-! ### Past blanks and comments -/

/-- Where the skimming of blanks and comments can be. -/
inductive Place where
  | between | slash | line | block | star
deriving DecidableEq, Repr

/-- What the skimming of blanks and comments comes to. -/
inductive Skimmed where
  /-- A slash that opens no comment. -/
  | slash
  /-- A block comment on one line, and what follows it. -/
  | inLine (rest : List Char)
  /-- What follows blanks and comments. -/
  | past (rest : List Char)
deriving DecidableEq, Repr

/-- The place inside a block comment after one of its characters. -/
def inBlock (c : Char) : Place := if c == '*' then .star else .block

/-- Passes blanks and comments.  Unless all are to be passed, stops after the first block comment
that no slash follows; `broken` tells whether a line ended inside one. -/
def skim (all : Bool) : Place → Bool → List Char → Skimmed
  | .slash, _, [] => .slash
  | _, _, [] => .past []
  | .between, broken, c :: cs =>
      if isAsciiBlank c then skim all .between broken cs
      else if c == '/' then skim all .slash broken cs
      else .past (c :: cs)
  | .slash, broken, c :: cs =>
      if c == '/' then skim all .line broken cs
      else if c == '*' then skim all .block broken cs
      else .slash
  | .line, broken, c :: cs =>
      if c == '\n' then skim all .between broken cs
      else if isLineEnd c || c == nul then .past (c :: cs)
      else skim all .line broken cs
  | .block, broken, c :: cs =>
      if c == nul then .past (c :: cs)
      else skim all (inBlock c) (broken || isLineEnd c) cs
  | .star, broken, c :: cs =>
      if c == '/' then
        if all || head cs == '/' then skim all .between broken cs
        else if broken then .past cs
        else .inLine cs
      else if c == nul then .past (c :: cs)
      else skim all (inBlock c) (broken || isLineEnd c) cs

/-! ### A new line -/

/-- Does a text that starts with the letter i start a new statement?  The operators `in` and
`instanceof` do not. -/
def startsWithWord (afterI : List Char) : Bool :=
  match afterI with
  | 'n' :: cs =>
      if (head cs).isAlpha then
        if "stanceof".toList.isPrefixOf cs then (head (cs.drop 8)).isAlpha else true
      else false
  | _ => true

/-- The characters that carry a statement on from the line before. -/
def carryingOn : List Char :=
  ['\x60', ',', ':', ';', '*', '%', '>', '<', '=', '[', '(', '?', '^', '|', '&', '/']

/-- Does a text on a new line, past its blanks and comments, start a new statement? -/
def startsAnew (cs : List Char) : Bool :=
  match cs with
  | [] => true
  | c :: rest =>
      if carryingOn.contains c then false
      else if c == '.' then (head rest).isDigit
      else if c == '+' then head rest == '+'
      else if c == '-' then head rest == '-'
      else if c == '!' then head rest != '='
      else if c == 'i' then startsWithWord rest
      else true

/-- Does a text, after a line break, start a new statement? -/
def startsAnewAfterBreak (cs : List Char) : Bool :=
  match skim true .between false cs with
  | .slash => false
  | .inLine rest | .past rest => startsAnew rest

/-! ### The rest of a line -/

/-- Is a semicolon supplied in front of a text, past the comments it may start with? -/
def isSuppliedUpTo (trailing : Bool) : Nat → List Char → Bool
  | 0, _ => true
  | _ + 1, [] => true
  | n + 1, c :: cs =>
      let further := fun (text : List Char) =>
        match text with
        | [] => false
        | d :: ds =>
            if d == '\x7d' then true
            else if isLineEnd d then startsAnewAfterBreak ds
            else if isAsciiBlank d then isSuppliedUpTo trailing n ds
            else false
      if c == nul then true
      else if c == '/' then
        match skim false .between false (c :: cs) with
        | .slash => false
        | .inLine rest => further rest
        | .past rest =>
            if trailing && head rest != ',' && head rest != '=' then true else further rest
      else further (c :: cs)

/-- Is a semicolon supplied in front of a text?  Where no operator may follow (`trailing`), a
comment that ends its line is enough. -/
def isSupplied (trailing : Bool) (cs : List Char) : Bool :=
  isSuppliedUpTo trailing (cs.length + 1) cs

/-- At the end of the text a semicolon is supplied. -/
@[simp] theorem isSupplied_nil (trailing : Bool) : isSupplied trailing [] = true := rfl

/-- Before a closing brace a semicolon is supplied. -/
@[simp] theorem isSupplied_brace (trailing : Bool) (cs : List Char) :
    isSupplied trailing ('\x7d' :: cs) = true := by
  simp [isSupplied, isSuppliedUpTo, nul]

end Semicolon

end Pare
