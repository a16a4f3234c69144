import Pare.Data.Value

/-!
**TOML.**

Tables of one level: keys with strings, integers, truth values and lists of them.  What else the
format has never makes sense in the settings of this library, so reading it fails.

Main definitions:

* `Pare.Toml.string`, `Pare.Toml.integer`, `Pare.Toml.value` — the values;
* `Pare.Toml.read?` — the table that a text writes.
-/

set_option relaxedAutoImplicit false
set_option autoImplicit false

namespace Pare

namespace Toml

open Scan

/-! ### Blanks -/

def blanks : Scan Unit := do
  let _ ← takeWhile fun c => c == ' ' || c == '\t'

/-- May the character stand in a comment or a string? -/
def isVisible (c : Char) : Bool := c == '\t' || (0x20 ≤ c.toNat && c.toNat != 0x7F)

def comment : Scan Unit := do
  if ← at? "#" then
    let _ ← takeWhile isVisible

def lineEnd : Scan Unit := do
  if ← at? "\r\n" then expect "\r\n" else expect "\n"

/-- Does a line end here? -/
def atLineEnd : Scan Bool := do
  let lf ← at? "\n"
  let crlf ← at? "\r\n"
  return lf || crlf

/-- Passes blanks, comments and ends of lines, up to a limit. -/
def gapUpTo : Nat → Scan Unit
  | 0 => pure ()
  | n + 1 => do
      blanks
      comment
      if ← atLineEnd then
        lineEnd
        gapUpTo n

/-- Passes blanks, comments and ends of lines. -/
def gap : Scan Unit := do gapUpTo ((← ahead).length + 1)

/-! ### Strings -/

/-- A character by a number of hexadecimal digits. -/
def codeEscape (count : Nat) : Scan Char := do
  let ds ← take count
  if ds.length != count then failure
  match natOfDigits? 16 ds with
  | some n => if n.isValidChar then return Char.ofNat n else failure
  | none => failure

/-- The character that an escape writes, after the backslash. -/
def escape : Scan Char := do
  match ← take 1 with
  | ['\x22'] => return '\x22'
  | ['\x5c'] => return '\x5c'
  | ['b'] => return '\x08'
  | ['e'] => return '\x1b'
  | ['f'] => return '\x0c'
  | ['n'] => return '\n'
  | ['r'] => return '\r'
  | ['t'] => return '\t'
  | ['x'] => codeEscape 2
  | ['u'] => codeEscape 4
  | ['U'] => codeEscape 8
  | _ => failure

/-- The rest of a string on one line, up to its closing quote; only between double quotes are there
escapes. -/
def lineTail (quote : Char) : Nat → Scan (List Char)
  | 0 => failure
  | n + 1 => do
      match ← take 1 with
      | [c] =>
          if c == quote then return []
          else if c == '\x5c' && quote == '\x22' then return (← escape) :: (← lineTail quote n)
          else if isVisible c then return c :: (← lineTail quote n)
          else failure
      | _ => failure

/-- The rest of a string over several lines, up to its closing quotes; only between double quotes
are there escapes, and a backslash there takes the end of the line and the blanks after it away. -/
def linesTail (quote : Char) : Nat → Scan (List Char)
  | 0 => failure
  | n + 1 => do
      let cs ← ahead
      let quotes := (cs.takeWhile (· == quote)).length
      if 3 ≤ quotes then
        if 5 < quotes then failure
        else return (← take quotes).drop 3
      else
        match ← take 1 with
        | [c] =>
            if c == '\x5c' && quote == '\x22' then
              let rest ← ahead
              let after := rest.dropWhile fun d => d == ' ' || d == '\t'
              if after.head? == some '\n' || "\r\n".toList.isPrefixOf after then
                let _ ← takeWhile fun d => d == ' ' || d == '\t' || d == '\n' || d == '\r'
                linesTail quote n
              else return (← escape) :: (← linesTail quote n)
            else if isVisible c || c == '\n' || c == '\r' then return c :: (← linesTail quote n)
            else failure
        | _ => failure

def string : Scan String := do
  let limit := (← ahead).length + 1
  let quote ←
    match ← peek with
    | some '\x22' => pure '\x22'
    | some '\x27' => pure '\x27'
    | _ => failure
  let three := String.ofList [quote, quote, quote]
  if ← at? three then
    expect three
    if ← atLineEnd then lineEnd
    return String.ofList (← linesTail quote limit)
  else
    let _ ← take 1
    return String.ofList (← lineTail quote limit)

/-! ### Integers -/

/-- Do single underscores stand only between digits? -/
def underscoresFit : List Char → Bool
  | [] => false
  | ['_'] => false
  | '_' :: '_' :: _ => false
  | [_] => true
  | _ :: rest => underscoresFit rest

/-- Digits in a base, with single underscores between them. -/
def digits? (base : Nat) (cs : List Char) : Option Nat :=
  if cs.head? != some '_' && underscoresFit cs then natOfDigits? base (cs.filter (· != '_'))
  else none

/-- The integer that a word writes. -/
def integer? (cs : List Char) : Option Int :=
  match cs with
  | '0' :: 'x' :: ds => (digits? 16 ds).map Int.ofNat
  | '0' :: 'o' :: ds => (digits? 8 ds).map Int.ofNat
  | '0' :: 'b' :: ds => (digits? 2 ds).map Int.ofNat
  | '-' :: ds => decimal? ds |>.map fun n => -(n : Int)
  | '+' :: ds => (decimal? ds).map Int.ofNat
  | ds => (decimal? ds).map Int.ofNat
where
  /-- A decimal number without leading zeros. -/
  decimal? (ds : List Char) : Option Nat :=
    if ds.head? == some '0' && ds.length != 1 then none else digits? 10 ds

/-- The least integer that is too great. -/
def limit : Int := Int.ofNat (Nat.pow 2 63)

/-- The integer that a word writes, if it is not too great. -/
def integer (cs : List Char) : Scan Value := do
  match integer? cs with
  | some n => if -limit ≤ n && n < limit then return .integer n else failure
  | none => failure

/-! ### Values -/

/-- May the character stand in a word? -/
def isWordChar (c : Char) : Bool := c.isAlphanum || c == '_' || c == '-' || c == '+'

/-- Values with commas between them, up to the closing bracket. -/
def itemsUpTo (item : Scan Value) : Nat → Scan (List Value)
  | 0 => failure
  | n + 1 => do
      gap
      if ← at? "]" then
        expect "]"
        return []
      let first ← item
      gap
      if ← at? "," then
        expect ","
        return first :: (← itemsUpTo item n)
      else
        expect "]"
        return [first]

/-- A value, down to a depth. -/
def value : Nat → Scan Value
  | 0 => failure
  | depth + 1 => do
      match ← peek with
      | some '\x22' | some '\x27' => return .text (← string)
      | some '[' =>
          expect "["
          return .list (← itemsUpTo (value depth) ((← ahead).length + 1))
      | _ =>
          let w ← takeWhile isWordChar
          if w == "true".toList then return .bool true
          else if w == "false".toList then return .bool false
          else integer w

/-- A key, bare or in quotes on one line. -/
def key : Scan String := do
  let limit := (← ahead).length + 1
  match ← peek with
  | some '\x22' => do
      let _ ← take 1
      return String.ofList (← lineTail '\x22' limit)
  | some '\x27' => do
      let _ ← take 1
      return String.ofList (← lineTail '\x27' limit)
  | _ => do
      let cs ← takeWhile fun c => c.isAlphanum || c == '_' || c == '-'
      if cs.isEmpty then failure else return String.ofList cs

/-- A key with its value. -/
def field : Scan (String × Value) := do
  let k ← key
  blanks
  expect "="
  blanks
  return (k, ← value 128)

/-- Keys with their values, one to a line, up to the end. -/
def fieldsUpTo : Nat → Scan (List (String × Value))
  | 0 => failure
  | n + 1 => do
      gap
      if (← ahead).isEmpty then return []
      let first ← field
      blanks
      comment
      if (← ahead).isEmpty then return [first]
      lineEnd
      return first :: (← fieldsUpTo n)

/-- The table that a text writes. -/
def read? (text : String) : Option Value :=
  let cs := text.toList
  let body := if cs.head? == some '\uFEFF' then cs.drop 1 else cs
  (Scan.whole (fieldsUpTo (body.length + 1)) body).map .table

end Toml

end Pare
