/-
# Names of types and entities

A type is named by joining the words of a lexicon name, each with its first letter raised: words end
at a dot, an underscore or a hyphen. The entity of a lexicon is the last dotted segment of its id in
lower case. An identifier is a name that can stand unquoted as a property key.

Key definitions: `pascal`, `entityOf`, `isIdentifier`.
-/
import Lexgen.Text.Casing

namespace Lexgen.Name

open Lexgen.Text

/-- The characters between the words of a name. -/
def isSeparator (c : Char) : Bool :=
  c == '.' || c == '_' || c == '-'

/-- A word with its first letter in upper case. -/
def raise : List Char → List Char
  | [] => []
  | c :: cs => upperChar c ++ cs

/-- The words of a name, raised and joined. -/
def pascal (s : String) : String :=
  String.ofList ((s.toList.splitOnP isSeparator).flatMap raise)

/-- The characters after the last dot. -/
def lastSegment (cs : List Char) : List Char :=
  (cs.reverse.takeWhile (· != '.')).reverse

/-- The entity of a lexicon id. -/
def entityOf (id : String) : String :=
  lower (String.ofList (lastSegment id.toList))

/-! ### Identifiers -/

/-- Whether a character can start an identifier. -/
def startsIdentifier (c : Char) : Bool :=
  c.isAlpha || c == '_' || c == '$'

/-- Whether a character can stand inside an identifier. -/
def continuesIdentifier (c : Char) : Bool :=
  c.isAlphanum || c == '_' || c == '$'

/-- An identifier is made of ASCII letters, digits, underscores and dollar signs, and does not
start with a digit. -/
def isIdentifier (s : String) : Bool :=
  match s.toList with
  | [] => false
  | c :: cs => startsIdentifier c && cs.all continuesIdentifier

end Lexgen.Name
