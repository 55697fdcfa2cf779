import Parley.Text.Numeral
import Parley.Text.Unprintable

/-!
# `Parley/Text/Quoted.lean` — text between double quotes

Messages show a text that came from outside between double quotes. A double quote and a backslash
are written with a backslash before them, the tab, the two line ends and the zero character have
letters of their own, and every other character that leaves no mark is written by its code point.
What is printable stays as it is, an apostrophe included.
-/

set_option autoImplicit false

namespace Parley.Text

/-- The form of one character between double quotes. -/
def escape (c : Char) : String :=
  match c with
  | '"' => "\\\""
  | '\\' => "\\\\"
  | '\t' => "\\t"
  | '\r' => "\\r"
  | '\n' => "\\n"
  | '\x00' => "\\0"
  | c => if isUnprintable c then "\\u\x7b" ++ hex c.toNat ++ "\x7d" else String.singleton c

def quote (s : String) : String :=
  "\"" ++ String.join (s.toList.map escape) ++ "\""

end Parley.Text
