/-
# Finding the collection in a client module

The collection of a client module is the text between the first two quotes behind `collection:`,
blanks not counting, on the first line that has such a text. Either kind of quote opens and closes,
and there is no escape.

Key definitions: `collectionHere?`, `collectionIn?`, `collectionOf?`.
-/
import Lexgen.Text.Blank

namespace Lexgen.Routes

open Lexgen.Text

/-- The word in front of a collection. -/
def collectionWord : List Char := "collection:".toList

/-- Whether a character is a quote. -/
def isQuote (c : Char) : Bool := c == '\'' || c == '"'

/-- The text between an opening quote here and the next quote, if it is not empty. -/
def quotedHere? (cs : List Char) : Option (List Char) :=
  match cs with
  | [] => none
  | c :: rest =>
    let id := rest.takeWhile (!isQuote ·)
    let after := rest.dropWhile (!isQuote ·)
    if isQuote c && !id.isEmpty && !after.isEmpty then some id else none

/-- The collection, if the word in front of it starts here. -/
def collectionHere? (cs : List Char) : Option (List Char) :=
  if collectionWord.isPrefixOf cs then quotedHere? (dropBlank (cs.drop collectionWord.length))
  else none

/-- The first collection in the characters of a line. -/
def collectionIn? : List Char → Option (List Char)
  | [] => none
  | c :: cs => collectionHere? (c :: cs) <|> collectionIn? cs

/-- The collection named in a client module. -/
def collectionOf? (source : String) : Option String :=
  (lines source).findSome? fun line => (collectionIn? line.toList).map String.ofList

end Lexgen.Routes
