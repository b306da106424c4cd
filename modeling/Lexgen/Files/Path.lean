/-
# Paths

A path is a text; slashes divide it into steps. Several slashes count as one, and a single dot
is no step unless it is the first. A path is joined to a base by a slash, and a path from the
root stands for itself whatever the base is.

Key definitions: `Step`, `holdsNul`, `steps`, `names`, `join`, `parent?`, `fileName?`, `stem`.
-/
namespace Lexgen.Files

/-- One step of a path. -/
inductive Step where
  /-- Start from the root. -/
  | root
  /-- Stay where the path starts. -/
  | here
  /-- Go up. -/
  | up
  /-- Go to the entry of this name. -/
  | name (name : String)
deriving DecidableEq, Repr

/-- The texts between the slashes of a path. -/
def pieces (path : String) : List String := (path.toList.splitOn '/').map String.ofList

/-- Whether a path holds the character with the number zero, which no name may hold. -/
def holdsNul (path : String) : Bool := path.toList.contains '\x00'

/-- The smallest number of bytes of a path that no system call takes. -/
def longPath : Nat := 4096

/-- Whether a path starts from the root. -/
def isRooted (path : String) : Bool := path.toList.head? == some '/'

/-- The step of a piece behind the first slash. -/
def stepOf (piece : String) : Option Step :=
  if piece = "" ∨ piece = "." then none
  else if piece = ".." then some .up
  else some (.name piece)

/-- The step of a piece at the start of a path that does not start from the root. -/
def firstStep (piece : String) : Option Step :=
  if piece = "." then some .here else stepOf piece

/-- The steps of a path. -/
def steps (path : String) : List Step :=
  match pieces path with
  | [] => []
  | first :: rest =>
    (if isRooted path then [.root] else (firstStep first).toList) ++ rest.filterMap stepOf

/-- The name that a step goes to. -/
def Step.name? : Step → Option String
  | .name n => some n
  | _ => none

/-- The names on a path, all other steps left out. -/
def names (path : String) : List String := (steps path).filterMap Step.name?

/-- A path below a base. -/
def join (base path : String) : String :=
  if isRooted path then path
  else if base.isEmpty ∨ base.toList.getLast? = some '/' then base ++ path
  else base ++ "/" ++ path

/-! ### The last step -/

/-- Pieces without those at the end that are no step. -/
def dropIdleEnd (ps : List String) : List String :=
  (ps.reverse.dropWhile fun p => p == "" || p == ".").reverse

/-- A path without its last step; the root and the empty path have none. -/
def parent? (path : String) : Option String :=
  match pieces path with
  | [] => none
  | first :: rest =>
    match dropIdleEnd rest with
    | [] => if first.isEmpty then none else some ""
    | body =>
      match dropIdleEnd body.dropLast with
      | [] => some (if first.isEmpty then "/" else first)
      | before => some ("/".intercalate (first :: before))

/-- The name of the last step, if it goes to a name. -/
def fileName? (path : String) : Option String := (steps path).getLast?.bind Step.name?

/-- A file name up to its last dot, unless that is its first character. -/
def stem (name : String) : String :=
  match (name.toList.reverse.dropWhile (· != '.')).drop 1 with
  | [] => name
  | before => String.ofList before.reverse

/-- Steps without the file extension of the last one. -/
def dropExtension (ss : List Step) : List Step :=
  match ss.getLast? with
  | some (.name n) => ss.dropLast ++ (stepOf (stem n)).toList
  | _ => ss

end Lexgen.Files
