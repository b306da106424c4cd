/-
# Pieces of generated code

A fragment is a line, a blank line, a one-line doc comment, or a block: a header line, a body that
stands one level deeper, and possibly a closing line.

Key definitions: `Fragment`, `Fragment.outline`.
-/
namespace Lexgen.Code

/-- A piece of generated code, without indentation. -/
inductive Fragment where
  | line (text : String)
  | blank
  | doc (text : String)
  | block (header : String) (body : List Fragment) (close : Option String)
deriving BEq, Repr, Inhabited

/-- The line of a doc comment. -/
def docComment (text : String) : String := "/** " ++ text ++ " */"

namespace Fragment

mutual

/-- The lines of a fragment with their depth, top to bottom; a blank line counts as none. -/
def outline (depth : Nat) : Fragment → List (Nat × String)
  | .line text => [(depth, text)]
  | .blank => []
  | .doc text => [(depth, docComment text)]
  | .block header body close =>
    (depth, header) :: outlineAll (depth + 1) body ++ (close.toList.map fun c => (depth, c))

/-- The lines of fragments one after the other. -/
def outlineAll (depth : Nat) : List Fragment → List (Nat × String)
  | [] => []
  | f :: fs => outline depth f ++ outlineAll depth fs

end

mutual

/-- Whether a blank line stands anywhere in the fragment. -/
def hasBlank : Fragment → Bool
  | .line _ => false
  | .blank => true
  | .doc _ => false
  | .block _ body _ => anyBlank body

/-- Whether a blank line stands anywhere in one of the fragments. -/
def anyBlank : List Fragment → Bool
  | [] => false
  | f :: fs => hasBlank f || anyBlank fs

end

end Fragment

end Lexgen.Code
