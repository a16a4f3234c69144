import Pare.Text.Class

/-!
**Names that need no quotes.**

A property whose key is a string can be written after a dot when the string is an identifier name
and no reserved word.

Main definitions:

* `Pare.reservedWords` — the words that cannot stand as a bare identifier;
* `Pare.isNameShaped` — does the text have the shape of an identifier name?
* `Pare.isBareName` — can the text be written after a dot?
-/

set_option relaxedAutoImplicit false
set_option autoImplicit false

namespace Pare

/-- The words that cannot stand as a bare identifier. -/
def reservedWords : List String :=
  ["await", "break", "case", "catch", "class", "const", "continue", "debugger", "default", "delete",
   "do", "else", "enum", "export", "extends", "false", "finally", "for", "function", "if",
   "implements", "import", "in", "instanceof", "interface", "let", "new", "null", "package",
   "private", "protected", "public", "return", "static", "super", "switch", "this", "throw", "true",
   "try", "typeof", "var", "void", "while", "with", "yield"]

/-- Does the text have the shape of an identifier name? -/
def isNameShaped : List Char → Bool
  | [] => false
  | c :: cs => Text.isNameStart c && cs.all Text.isNamePart

def isBareName (name : String) : Bool :=
  !reservedWords.contains name && isNameShaped name.toList

end Pare
