import Pare.Search.Regular

/-!
**Patterns of file names.**

A pattern is a path in which a star stands for any characters of one segment, two stars for any
number of segments, a question mark for one byte, brackets for one of some characters, and braces
for one of several patterns.  A backslash takes a character as it is.

Main definitions:

* `Pare.Glob.Token` — the pieces of a pattern;
* `Pare.Glob.parse?` — the pieces of a text, if it is a pattern;
* `Pare.Glob.toRegular` — the regular expression of a pattern;
* `Pare.Glob.isMatch` — does a pattern match a path?
-/

set_option relaxedAutoImplicit false
set_option autoImplicit false

namespace Pare

namespace Glob

/-! ### Pieces -/

/-- The pieces of a pattern. -/
inductive Token where
  | literal (c : Char)
  /-- Any byte but a slash. -/
  | any
  /-- Any bytes but slashes. -/
  | anyRun
  /-- Any segments in front. -/
  | leading
  /-- Any segments at the end. -/
  | trailing
  /-- Any segments in between. -/
  | between
  /-- One of some characters, or, turned around, none of them. -/
  | oneOf (negated : Bool) (ranges : List (Char × Char))
  /-- One of several patterns. -/
  | choice (branches : List (List Token))
deriving Repr

/-! ### Reading -/

/-- The ranges of a class from its characters, the last one first; `inRange` tells whether a dash
has just opened a range. -/
def classTail (first inRange : Bool) (done : List (Char × Char)) :
    List Char → Option (List (Char × Char) × List Char)
  | [] => none
  | c :: rest =>
      if c == ']' && !first then
        some ((if inRange then ('-', '-') :: done else done).reverse, rest)
      else if c == '-' && !first && !inRange then classTail false true done rest
      else if inRange then
        match done with
        | (low, _) :: earlier =>
            if c < low then none else classTail false false ((low, c) :: earlier) rest
        | [] => none
      else classTail false false ((c, c) :: done) rest

def readClass (cs : List Char) : Option (Token × List Char) := do
  let negated := cs.head? == some '!' || cs.head? == some '^'
  let (ranges, rest) ← classTail true false [] (if negated then cs.drop 1 else cs)
  return (.oneOf negated ranges, rest)

/-- The last piece before two stars, taken together with them. -/
def widen (atEnd : Bool) : List Token → List Token
  | .leading :: done => .leading :: done
  | .trailing :: done => .trailing :: done
  | _ :: done => (if atEnd then .trailing else .between) :: done
  | [] => []

/-- The pieces after a star, the last one first, the character before what is left, and what is
left. -/
def readStar (inBraces : Bool) (previous : Option Char) (done : List Token) (cs : List Char) :
    List Token × Option Char × List Char :=
  match cs with
  | '*' :: rest =>
      let two := (Token.anyRun :: .anyRun :: done, some '*', rest)
      if done.isEmpty then
        match rest with
        | [] => ([.leading], some '*', [])
        | '/' :: rest => ([.leading], some '/', rest)
        | _ => two
      else if previous != some '/' then two
      else
        match rest with
        | [] => (widen true done, some '*', [])
        | '/' :: rest => (widen false done, some '/', rest)
        | c :: _ => if inBraces && (c == ',' || c == '\x7d') then (widen true done, some '*', rest)
            else two
  | _ => (.anyRun :: done, some '*', cs)

mutual

/-- The pieces of a pattern, the last one first, up to the end or, in braces, up to a comma or a
closing brace. -/
def readTokens : Nat → Bool → Option Char → List Token → List Char →
    Option (List Token × List Char)
  | 0, _, _, _, _ => none
  | _ + 1, inBraces, _, done, [] => if inBraces then none else some (done.reverse, [])
  | n + 1, inBraces, previous, done, c :: rest =>
      if c == '?' then readTokens n inBraces (some c) (.any :: done) rest
      else if c == '*' then
        let (done, previous, rest) := readStar inBraces previous done rest
        readTokens n inBraces previous done rest
      else if c == '[' then
        match readClass rest with
        | some (token, rest) => readTokens n inBraces (some ']') (token :: done) rest
        | none => none
      else if c == '\x7b' then
        match readBranches n (some c) rest with
        | some (branches, rest) =>
            readTokens n inBraces (some '\x7d') (.choice branches :: done) rest
        | none => none
      else if inBraces && (c == ',' || c == '\x7d') then some (done.reverse, c :: rest)
      else if c == '\x7d' then none
      else if c == '\x5c' then
        match rest with
        | d :: rest => readTokens n inBraces (some d) (.literal d :: done) rest
        | [] => none
      else readTokens n inBraces (some c) (.literal c :: done) rest

/-- The branches between braces, up to the closing one and with it. -/
def readBranches : Nat → Option Char → List Char → Option (List (List Token) × List Char)
  | 0, _, _ => none
  | n + 1, previous, cs =>
      match readTokens n true previous [] cs with
      | some (branch, ',' :: rest) =>
          match readBranches n (some ',') rest with
          | some (branches, rest) => some (branch :: branches, rest)
          | none => none
      | some (branch, _ :: rest) => some ([branch], rest)
      | _ => none

end

/-- The pieces of a text, if it is a pattern. -/
def parse? (text : String) : Option (List Token) := do
  let cs := text.toList
  let (tokens, _) ← readTokens (2 * cs.length + 2) false none [] cs
  return tokens

/-! ### Matching -/

def bytes (text : String) : List Nat := text.toUTF8.toList.map UInt8.toNat

def slash : Regular := .exactly 0x2F

/-- Any bytes on one line. -/
def anything : Regular := .many (.byte true [(0x0A, 0x0A)])

def noSlash : Regular := .byte true [(0x2F, 0x2F)]

/-- A character by its bytes. -/
def ofChar (c : Char) : Regular := .inTurn ((bytes (String.singleton c)).map .exactly)

mutual

/-- The regular expression of a piece. -/
def ofToken : Token → Regular
  | .literal c => ofChar c
  | .any => noSlash
  | .anyRun => .many noSlash
  | .leading => .oneOf [.empty, slash, .andThen anything slash]
  | .trailing => .andThen slash anything
  | .between => .oneOf [slash, .inTurn [slash, anything, slash]]
  | .oneOf negated ranges => .byte negated (ranges.map fun r => (r.1.toNat, r.2.toNat))
  | .choice branches =>
      match ofBranches branches with
      | [] => .empty
      | some_ => .oneOf some_

/-- The regular expression of some pieces in turn. -/
def ofTokens : List Token → Regular
  | [] => .empty
  | t :: rest => .andThen (ofToken t) (ofTokens rest)

/-- The regular expressions of some branches; an empty branch counts for nothing. -/
def ofBranches : List (List Token) → List Regular
  | [] => []
  | branch :: rest =>
      if branch.isEmpty then ofBranches rest else ofTokens branch :: ofBranches rest

end

/-- The regular expression of a pattern; two stars alone match everything. -/
def toRegular : List Token → Regular
  | [.leading] => anything
  | tokens => ofTokens tokens

/-- Does a pattern match a path? -/
def isMatch (tokens : List Token) (path : String) : Bool := (toRegular tokens).isMatch (bytes path)

end Glob

end Pare
