/-
# Doc comments from descriptions

A description becomes one line: its words joined by single spaces, with a backslash put between the
two characters that would close the comment. A description without words gives no comment.

Key definitions: `guardClose`, `docLine`, `docOf`.
-/
import Lexgen.Text.Blank
import Lexgen.Code.Fragment

namespace Lexgen.TypeScript

open Lexgen.Text Lexgen.Code

/-- A text in which nothing closes a comment. -/
def guardClose : List Char → List Char
  | '*' :: '/' :: rest => '*' :: '\\' :: '/' :: guardClose rest
  | c :: rest => c :: guardClose rest
  | [] => []

/-- A text as one line of a doc comment. -/
def docLine (text : String) : String :=
  String.ofList (guardClose (" ".intercalate (words text)).toList)

/-- The description to show, if it has a word. -/
def docOf (description : Option String) : Option String :=
  description.filter hasInk

/-- The comment of a declaration, if it has a description. -/
def docFragments (doc : Option String) : List Fragment :=
  doc.toList.map fun d => .doc (docLine d)

end Lexgen.TypeScript
