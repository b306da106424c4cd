/-
# Finding keys in the source text

To point at an entry of a document the source is searched for its key: the first place where the key
stands between double quotes with a colon behind it, blanks between them not counting. The search
goes on behind a quoted key without a colon, and knows nothing of nesting or escapes.

Key definitions: `keySpan?`.
-/
import Lexgen.Lexicon.Error
import Lexgen.Text.Blank
import Lexgen.Text.Position

namespace Lexgen.Lexicon

open Lexgen.Text

/-- Whether a colon is the first character that is not blank. -/
def beforeColon (cs : List Char) : Bool :=
  (dropBlank cs).head? == some ':'

/-- The offset of the quoted key with a colon behind it, passing over the next `skip` characters. -/
def findQuoted (quoted : List Char) : Nat → Nat → List Char → Option Nat
  | _, _, [] => none
  | skip + 1, offset, c :: cs => findQuoted quoted skip (offset + c.utf8Size) cs
  | 0, offset, c :: cs =>
    if quoted.isPrefixOf (c :: cs) then
      if beforeColon ((c :: cs).drop quoted.length) then some offset
      else findQuoted quoted (quoted.length - 1) (offset + c.utf8Size) cs
    else findQuoted quoted 0 (offset + c.utf8Size) cs

/-- The place of a key in a source text, its quotes included. -/
def keySpan? (source key : String) : Option Span :=
  let quoted := '"' :: key.toList ++ ['"']
  (findQuoted quoted 0 0 source.toList).map fun offset => ⟨offset, byteSize quoted⟩

end Lexgen.Lexicon
