/-
# Quoted text in messages

A message shows a text between double quotes on one line: the quote and the backslash are escaped,
tab, carriage return, line feed and the zero character have letters of their own, and every other
character that would not show is written by its number.

Key definitions: `quotedChar`, `quoted`.
-/
import Lexgen.Text.Casing
import Lexgen.Text.Hidden

namespace Lexgen.Text

/-- The hexadecimal digits of a number, lower case, without leading zeros. -/
def hexDigits (n : Nat) : String :=
  String.ofList (Nat.toDigits 16 n)

/-- How quoted text shows one character. -/
def quotedChar (c : Char) : String :=
  match c with
  | '\x00' => "\\0"
  | '\t' => "\\t"
  | '\r' => "\\r"
  | '\n' => "\\n"
  | '"' => "\\\""
  | '\\' => "\\\\"
  | c => if inIntervals hiddenIntervals c.toNat then "\\u\x7b" ++ hexDigits c.toNat ++ "\x7d"
      else c.toString

/-- A text between double quotes, on one line. -/
def quoted (s : String) : String :=
  "\"" ++ String.join (s.toList.map quotedChar) ++ "\""

end Lexgen.Text
