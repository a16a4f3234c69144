import Pare.Finding

/-!
**Styled text.**

Text for terminals: a style puts colour and weight around a text, if the terminal shows them, and
padding brings a text to a width.

Main definitions:

* `Pare.Color`, `Pare.Style` — the colours and weights of text;
* `Pare.Style.paint` — a text in a style;
* `Pare.padLeft`, `Pare.padRight` — a text brought to a width;
* `Pare.Severity.symbol` — the sign of a severity.
-/

set_option relaxedAutoImplicit false
set_option autoImplicit false

namespace Pare

/-- The colours of text. -/
inductive Color where
  | red | green | yellow | blue | magenta | cyan | white
deriving DecidableEq, Repr

def Color.code : Color → String
  | red => "31"
  | green => "32"
  | yellow => "33"
  | blue => "34"
  | magenta => "35"
  | cyan => "36"
  | white => "37"

/-- A colour with a weight. -/
structure Style where
  bold : Bool
  dimmed : Bool
  color : Option Color
deriving DecidableEq, Repr

namespace Style

/-- Only a colour. -/
def plain (c : Color) : Style := ⟨false, false, some c⟩

def strong (c : Color) : Style := ⟨true, false, some c⟩

def faint : Style := ⟨false, true, none⟩

/-- The codes of a style, weights first. -/
def codes (s : Style) : List String :=
  (if s.bold then ["1"] else []) ++ (if s.dimmed then ["2"] else []) ++
    (s.color.map Color.code).toList

/-- A text in a style, if styles are shown. -/
def paint (s : Style) (shown : Bool) (text : String) : String :=
  if shown then "\x1b[" ++ ";".intercalate s.codes ++ "m" ++ text ++ "\x1b[0m" else text

@[simp] theorem paint_hidden (s : Style) (text : String) : s.paint false text = text := rfl

end Style

/-! ### Widths -/

def spaces (count : Nat) : String := String.ofList (List.replicate count ' ')

/-- A text brought to a width by spaces in front. -/
def padLeft (width : Nat) (text : String) : String := spaces (width - text.length) ++ text

/-- A text brought to a width by spaces after it. -/
def padRight (width : Nat) (text : String) : String := text ++ spaces (width - text.length)

/-- A text a number of times. -/
def repeated (count : Nat) (text : String) : String := String.join (List.replicate count text)

/-! ### Signs -/

def Severity.symbol : Severity → String
  | error => "✖"
  | warning => "⚠"
  | info => "ℹ"

def Severity.style : Severity → Style
  | error => .strong .red
  | warning => .plain .yellow
  | info => .plain .blue

def Style.ofPath : Style := .strong .cyan

def Style.ofCode : Style := .plain .magenta

def Style.ofCount : Style := .strong .white

end Pare
