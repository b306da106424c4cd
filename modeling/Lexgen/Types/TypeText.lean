/-
# The text of array types

The text of a type is scanned with the rules of its quotes and brackets: between single quotes
only a backslash and the closing quote count, outside them brackets of all four kinds go one
level deeper and come back. An item type whose text has a bar outside quotes and brackets needs
parentheses before it can be made an array.

Key definitions: `Scan`, `Scan.step`, `barAtTop`, `arrayOf`.
-/
namespace Lexgen.Types

/-- Where a scan of a type text stands. -/
structure Scan where
  depth : Int := 0
  quoted : Bool := false
  escaped : Bool := false
deriving DecidableEq, Repr

namespace Scan

/-- The brackets that go one level deeper. -/
def opens (c : Char) : Bool := c == '{' || c == '(' || c == '<' || c == '['

/-- The brackets that come back one level. -/
def closes (c : Char) : Bool := c == '}' || c == ')' || c == '>' || c == ']'

/-- The scan after one more character. -/
def step (s : Scan) (c : Char) : Scan :=
  if s.quoted then
    if s.escaped then { s with escaped := false }
    else if c = '\\' then { s with escaped := true }
    else if c = '\'' then { s with quoted := false }
    else s
  else if c = '\'' then { s with quoted := true }
  else if opens c then { s with depth := s.depth + 1 }
  else if closes c then { s with depth := s.depth - 1 }
  else s

/-- Whether the scan is outside of all quotes and brackets. -/
def atTop (s : Scan) : Bool := !s.quoted && s.depth == 0

end Scan

/-- Whether a bar follows outside of all quotes and brackets. -/
def barAtTop : Scan → List Char → Bool
  | _, [] => false
  | s, c :: cs => (s.atTop && c == '|') || barAtTop (s.step c) cs

/-- The array type of an item type. -/
def arrayOf (item : String) : String :=
  if barAtTop {} item.toList then "(" ++ item ++ ")[]" else item ++ "[]"

end Lexgen.Types
