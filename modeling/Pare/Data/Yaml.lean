import Pare.Data.Value

/-!
**YAML.**

Documents with one table or list, whose values are scalars or lists of them, in blocks or between
brackets.  What else the format has never makes sense in the settings of this library, so reading it
fails.  The type of a scalar without quotes is left open.

Main definitions:

* `Pare.Yaml.plainScalar`, `Pare.Yaml.quotedScalar` — scalars;
* `Pare.Yaml.flow` — values between brackets;
* `Pare.Yaml.blockTable`, `Pare.Yaml.blockList` — values in lines;
* `Pare.Yaml.read?` — the value that a text writes.
-/

set_option relaxedAutoImplicit false
set_option autoImplicit false

namespace Pare

namespace Yaml

open Scan

/-! ### Lines -/

/-- Blanks inside a line. -/
def isBlank (c : Char) : Bool := c == ' ' || c == '\t'

/-- The ends of lines. -/
def isBreak (c : Char) : Bool := c == '\n' || c == '\r'

/-- Is there nothing but blanks and a comment up to the end of the line? -/
def isIdle (cs : List Char) : Bool :=
  match cs.dropWhile isBlank with
  | [] => true
  | c :: _ => isBreak c || c == '#'

/-- The text after the end of the line. -/
def afterLine (cs : List Char) : List Char :=
  match cs.dropWhile fun c => !isBreak c with
  | '\r' :: '\n' :: rest => rest
  | _ :: rest => rest
  | [] => []

/-- The text from the next line on that says something; at most so many lines are passed. -/
def skipIdle : Nat → List Char → List Char
  | 0, cs => cs
  | n + 1, cs => if isIdle cs && !cs.isEmpty then skipIdle n (afterLine cs) else cs

/-- Passes lines that say nothing. -/
def idleLines : Scan Unit := modify fun cs => skipIdle cs.length cs

/-- Passes the rest of a line, which must say nothing. -/
def restOfLine : Scan Unit := do
  let cs ← ahead
  if isIdle cs then set (afterLine cs) else failure

/-- The number of spaces that a text starts with. -/
def indentOf (cs : List Char) : Nat := (cs.takeWhile (· == ' ')).length

/-- May a token end before these characters? -/
def endsToken (cs : List Char) : Bool :=
  match cs with
  | [] => true
  | c :: _ => isBlank c || isBreak c

/-! ### Scalars -/

/-- The characters that no scalar without quotes starts with. -/
def isIndicator (c : Char) : Bool := ",[]\x7b\x7d#&*!|>\x27\x22%@\x60".toList.contains c

/-- May a scalar without quotes start here? -/
def startsPlain (cs : List Char) : Bool :=
  match cs with
  | [] => false
  | c :: rest =>
      !isIndicator c && !((c == '-' || c == '?' || c == ':') && endsToken rest)

/-- The characters of a scalar without quotes; between brackets, commas and brackets end it. -/
def plainChars (inFlow : Bool) : List Char → List Char
  | [] => []
  | c :: rest =>
      let flowEnd := inFlow && ",[]\x7b\x7d".toList.contains c
      let colon := c == ':' && (endsToken rest ||
        (inFlow && (rest.head?.any fun d => ",[]\x7b\x7d".toList.contains d)))
      let comment := isBlank c && rest.head? == some '#'
      if isBreak c || flowEnd || colon || comment then []
      else c :: plainChars inFlow rest

def trimEnd (cs : List Char) : List Char := (cs.reverse.dropWhile isBlank).reverse

def plainScalar (inFlow : Bool) : Scan String := do
  if startsPlain (← ahead) then
    let cs ← take (plainChars inFlow (← ahead)).length
    return String.ofList (trimEnd cs)
  else failure

/-- A character by a number of hexadecimal digits. -/
def codeEscape (count : Nat) : Scan Char := do
  match natOfDigits? 16 (← take count) with
  | some n => if n.isValidChar then return Char.ofNat n else failure
  | none => failure

/-- The character that an escape writes, after the backslash. -/
def escape : Scan Char := do
  match ← take 1 with
  | ['0'] => return '\x00'
  | ['a'] => return '\x07'
  | ['b'] => return '\x08'
  | ['t'] => return '\t'
  | ['n'] => return '\n'
  | ['v'] => return '\x0b'
  | ['f'] => return '\x0c'
  | ['r'] => return '\r'
  | ['e'] => return '\x1b'
  | [' '] => return ' '
  | ['\x22'] => return '\x22'
  | ['/'] => return '/'
  | ['\x5c'] => return '\x5c'
  | ['N'] => return '\u0085'
  | ['_'] => return '\u00a0'
  | ['L'] => return '\u2028'
  | ['P'] => return '\u2029'
  | ['x'] => codeEscape 2
  | ['u'] => codeEscape 4
  | ['U'] => codeEscape 8
  | _ => failure

/-- The rest of a scalar in quotes on one line. -/
def quotedTail (quote : Char) : Nat → Scan (List Char)
  | 0 => failure
  | n + 1 => do
      match ← take 1 with
      | [c] =>
          if c == quote then
            if quote == '\x27' && (← peek) == some quote then
              let _ ← take 1
              return c :: (← quotedTail quote n)
            else return []
          else if c == '\x5c' && quote == '\x22' then
            return (← escape) :: (← quotedTail quote n)
          else if isBreak c then failure
          else return c :: (← quotedTail quote n)
      | _ => failure

/-- A scalar in quotes on one line. -/
def quotedScalar : Scan String := do
  let limit := (← ahead).length + 1
  match ← take 1 with
  | ['\x22'] => return String.ofList (← quotedTail '\x22' limit)
  | ['\x27'] => return String.ofList (← quotedTail '\x27' limit)
  | _ => failure

def atQuote : Scan Bool := do
  let next ← peek
  return next == some '\x22' || next == some '\x27'

def scalar (inFlow : Bool) : Scan Value := do
  if ← atQuote then return .text (← quotedScalar) else return .plain (← plainScalar inFlow)

/-! ### Between brackets -/

/-- Passes blanks, ends of lines and comments between brackets. -/
def flowGapUpTo : Nat → Scan Unit
  | 0 => pure ()
  | n + 1 => do
      let _ ← takeWhile isBlank
      match ← peek with
      | some c =>
          if isBreak c || c == '#' then
            set (afterLine (← ahead))
            flowGapUpTo n
      | none => pure ()

/-- Passes blanks, ends of lines and comments between brackets. -/
def flowGap : Scan Unit := do flowGapUpTo ((← ahead).length + 1)

/-- Items with commas between them, up to a closing bracket. -/
def flowItems {α : Type} (close : String) (item : Scan α) : Nat → Scan (List α)
  | 0 => failure
  | n + 1 => do
      flowGap
      if ← at? close then
        expect close
        return []
      let first ← item
      flowGap
      if ← at? "," then
        expect ","
        return first :: (← flowItems close item n)
      else
        expect close
        return [first]

/-- A value between brackets, or a scalar there, down to a depth. -/
def flow : Nat → Scan Value
  | 0 => failure
  | depth + 1 => do
      let limit := (← ahead).length + 1
      if ← at? "[" then
        expect "["
        return .list (← flowItems "]" (flow depth) limit)
      else if ← at? "\x7b" then
        expect "\x7b"
        let field : Scan (String × Value) := do
          let key ← if ← atQuote then quotedScalar else plainScalar true
          flowGap
          if ← at? ":" then
            expect ":"
            flowGap
            let next ← peek
            if next == some ',' || next == some '\x7d' then return (key, .plain "")
            else return (key, ← flow depth)
          else return (key, .plain "")
        return .table (← flowItems "\x7d" field limit)
      else scalar true

/-! ### In lines -/

/-- A value on the rest of a line. -/
def inlineValue : Scan Value := do
  let next ← peek
  let v ← if next == some '[' || next == some '\x7b' then flow 128 else scalar false
  restOfLine
  return v

/-- Does an item of a list start here? -/
def startsItem (cs : List Char) : Bool :=
  match cs with
  | '-' :: rest => endsToken rest
  | _ => false

/-- The items of a list at an indentation. -/
def blockItems (indent : Nat) : Nat → Scan (List Value)
  | 0 => failure
  | n + 1 => do
      idleLines
      let cs ← ahead
      if !cs.isEmpty && indentOf cs == indent && startsItem (cs.drop indent) then
        let _ ← take (indent + 1)
        let _ ← takeWhile isBlank
        if isIdle (← ahead) then
          restOfLine
          return .plain "" :: (← blockItems indent n)
        else
          let v ← inlineValue
          return v :: (← blockItems indent n)
      else return []

def blockList (indent : Nat) : Scan Value := do
  return .list (← blockItems indent ((← ahead).length + 1))

/-- The value of a key from the lines after it. -/
def valueBelow (indent : Nat) : Scan Value := do
  idleLines
  let cs ← ahead
  let below := indentOf cs
  let content := cs.drop below
  if cs.isEmpty then return .plain ""
  else if indent ≤ below && startsItem content then blockList below
  else if indent < below then
    let _ ← take below
    inlineValue
  else return .plain ""

/-- The fields of a table at an indentation. -/
def blockFields (indent : Nat) : Nat → Scan (List (String × Value))
  | 0 => failure
  | n + 1 => do
      idleLines
      let cs ← ahead
      if cs.isEmpty || indentOf cs < indent || "...".toList.isPrefixOf cs then return []
      else if indent < indentOf cs then failure
      else
        let _ ← take indent
        let key ← if ← atQuote then quotedScalar else plainScalar false
        let _ ← takeWhile isBlank
        expect ":"
        if !endsToken (← ahead) then failure
        let _ ← takeWhile isBlank
        if isIdle (← ahead) then
          restOfLine
          let v ← valueBelow indent
          return (key, v) :: (← blockFields indent n)
        else
          let v ← inlineValue
          return (key, v) :: (← blockFields indent n)

def blockTable (indent : Nat) : Scan Value := do
  return .table (← blockFields indent ((← ahead).length + 1))

/-! ### Documents -/

/-- Passes the mark that opens a document, if there is one. -/
def opening : Scan Unit := do
  idleLines
  if (← at? "---") && endsToken ((← ahead).drop 3) then
    expect "---"
    restOfLine
    idleLines

/-- Passes the mark that closes a document, if there is one, and the lines after it. -/
def closing : Scan Unit := do
  idleLines
  if ← at? "..." then
    expect "..."
    restOfLine
    idleLines

/-- A document: a table or a list.  One that says nothing is an empty table. -/
def document : Scan Value := do
  opening
  let cs ← ahead
  let indent := indentOf cs
  let content := cs.drop indent
  let v ←
    match content with
    | [] => pure (Value.table [])
    | '[' :: _ | '\x7b' :: _ => do
        let _ ← take indent
        inlineValue
    | _ => if startsItem content then blockList indent else blockTable indent
  closing
  return v

/-- The value that a text writes. -/
def read? (text : String) : Option Value :=
  let cs := text.toList
  Scan.whole document (if cs.head? == some '\uFEFF' then cs.drop 1 else cs)

end Yaml

end Pare
