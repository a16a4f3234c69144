import Pare.Data.Value

/-!
**JSON.**

Main definitions:

* `Pare.Json.render` — a value over several lines, two spaces to a level;
* `Pare.Json.read?` — the value that a text writes.
-/

set_option relaxedAutoImplicit false
set_option autoImplicit false

namespace Pare

namespace Json

/-! ### Writing -/

/-- The last hexadecimal digit of a number. -/
def hexDigit (n : Nat) : Char := "0123456789abcdef".toList.getD (n % 16) '0'

/-- A character inside quotes. -/
def escapeChar (c : Char) : List Char :=
  if c == '\x22' then ['\x5c', '\x22']
  else if c == '\x5c' then ['\x5c', '\x5c']
  else if c == '\n' then ['\x5c', 'n']
  else if c == '\r' then ['\x5c', 'r']
  else if c == '\t' then ['\x5c', 't']
  else if c == '\x08' then ['\x5c', 'b']
  else if c == '\x0c' then ['\x5c', 'f']
  else if c.toNat < 0x20 then ['\x5c', 'u', '0', '0', hexDigit (c.toNat / 16), hexDigit c.toNat]
  else [c]

def quoted (s : String) : String :=
  String.ofList (['\x22'] ++ s.toList.flatMap escapeChar ++ ['\x22'])

def indent (level : Nat) : String := String.ofList (List.replicate (2 * level) ' ')

/-- Lines of a level between an opening and a closing sign. -/
def enclosed (level : Nat) (opening closing : String) (lines : List String) : String :=
  if lines.isEmpty then opening ++ closing
  else
    opening ++ "\n" ++ ",\n".intercalate (lines.map (indent (level + 1) ++ ·)) ++ "\n" ++
      indent level ++ closing

mutual

/-- A value at a level. -/
def renderAt (level : Nat) : Value → String
  | .null => "null"
  | .bool b => if b then "true" else "false"
  | .integer n => toString n
  | .real => "null"
  | .text s | .plain s => quoted s
  | .list items => enclosed level "[" "]" (renderItems (level + 1) items)
  | .table fields => enclosed level "\x7b" "\x7d" (renderFields (level + 1) fields)

def renderItems (level : Nat) : List Value → List String
  | [] => []
  | v :: rest => renderAt level v :: renderItems level rest

def renderFields (level : Nat) : List (String × Value) → List String
  | [] => []
  | (key, v) :: rest => (quoted key ++ ": " ++ renderAt level v) :: renderFields level rest

end

/-- A value over several lines, two spaces to a level. -/
def render (v : Value) : String := renderAt 0 v

/-! ### Reading -/

open Scan

/-- Blanks between tokens. -/
def isBlank (c : Char) : Bool := c == ' ' || c == '\n' || c == '\t' || c == '\r'

def blanks : Scan Unit := do
  let _ ← takeWhile isBlank

/-- The number of four hexadecimal digits. -/
def fourDigits : Scan Nat := do
  match natOfDigits? 16 (← take 4) with
  | some n => return n
  | none => failure

/-- A character by its code; two halves make one beyond the first plane. -/
def codeEscape : Scan Char := do
  let n ← fourDigits
  if 0xD800 ≤ n && n < 0xDC00 then
    expect "\x5cu"
    let low ← fourDigits
    if 0xDC00 ≤ low && low < 0xE000 then
      return Char.ofNat (0x10000 + (n - 0xD800) * 0x400 + (low - 0xDC00))
    else failure
  else if 0xDC00 ≤ n && n < 0xE000 then failure
  else return Char.ofNat n

/-- The character that an escape writes, after the backslash. -/
def escape : Scan Char := do
  match ← take 1 with
  | ['\x22'] => return '\x22'
  | ['\x5c'] => return '\x5c'
  | ['/'] => return '/'
  | ['b'] => return '\x08'
  | ['f'] => return '\x0c'
  | ['n'] => return '\n'
  | ['r'] => return '\r'
  | ['t'] => return '\t'
  | ['u'] => codeEscape
  | _ => failure

/-- The rest of a string, up to its closing quote. -/
def stringTail : Nat → Scan (List Char)
  | 0 => failure
  | n + 1 => do
      match ← take 1 with
      | ['\x22'] => return []
      | ['\x5c'] => return (← escape) :: (← stringTail n)
      | [c] => if c.toNat < 0x20 then failure else return c :: (← stringTail n)
      | _ => failure

def string : Scan String := do
  expect "\x22"
  return String.ofList (← stringTail ((← ahead).length + 1))

def someDigits : Scan (List Char) := do
  let ds ← takeWhile Char.isDigit
  if ds.isEmpty then failure else return ds

def number : Scan Value := do
  let negative ← at? "-"
  if negative then expect "-"
  let whole ← someDigits
  if whole.head? == some '0' && whole.length != 1 then failure
  let fraction ← at? "."
  if fraction then
    expect "."
    let _ ← someDigits
  let exponent := (← peek) == some 'e' || (← peek) == some 'E'
  if exponent then
    let _ ← take 1
    let _ ← takeWhile fun c => c == '+' || c == '-'
    let _ ← someDigits
  if fraction || exponent || (negative && whole == ['0']) then return .real
  else
    match natOfDigits? 10 whole with
    | some n => return .integer (if negative then -n else n)
    | none => failure

/-- Items with commas between them, up to a closing sign. -/
def itemsUpTo {α : Type} (close : String) (item : Scan α) : Nat → Scan (List α)
  | 0 => failure
  | n + 1 => do
      let first ← item
      blanks
      if ← at? "," then
        expect ","
        return first :: (← itemsUpTo close item n)
      else
        expect close
        return [first]

/-- Items between an opening and a closing sign. -/
def items {α : Type} (opening close : String) (item : Scan α) : Scan (List α) := do
  expect opening
  blanks
  if ← at? close then
    expect close
    return []
  else itemsUpTo close item ((← ahead).length + 1)

/-- A value, down to a depth. -/
def value : Nat → Scan Value
  | 0 => failure
  | depth + 1 => do
      blanks
      match ← peek with
      | some '\x7b' =>
          let field : Scan (String × Value) := do
            blanks
            let key ← string
            blanks
            expect ":"
            return (key, ← value depth)
          return .table (← items "\x7b" "\x7d" field)
      | some '[' => return .list (← items "[" "]" (value depth))
      | some '\x22' => return .text (← string)
      | some 't' => expect "true"; return .bool true
      | some 'f' => expect "false"; return .bool false
      | some 'n' => expect "null"; return .null
      | _ => number

/-- The greatest depth of values in one another. -/
def depthLimit : Nat := 128

/-- The value that a text writes. -/
def read? (text : String) : Option Value :=
  Scan.whole (do let v ← value depthLimit; blanks; return v) text.toList

end Json

end Pare
