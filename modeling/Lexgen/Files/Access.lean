/-
# Access to files

Five operations are all that the program asks of the system: the kind of what a path leads to,
the content of a file, the names in a directory, a new directory, and a file put whole in its
place. Everything else is made of these. A file tree offers them as well, so that a run can be
followed step by step.

Key definitions: `Access`, `readText`, `isThere`, `isFile`, `makeDirectories`, `store`.
-/
import Lexgen.Files.Tree

namespace Lexgen.Files

/-- The operations on files. -/
class Access (m : Type → Type) where
  /-- The kind of what a path leads to. -/
  kind : String → m (Except Fault Kind)
  /-- The content of a file. -/
  read : String → m (Except Fault ByteArray)
  /-- The names in a directory. -/
  list : String → m (Except Fault (List String))
  /-- Make a directory. -/
  makeDirectory : String → m (Except Fault Unit)
  /-- Put a file whole in its place. -/
  replace : String → ByteArray → m (Except Fault Unit)

/-- The step of a tree that a change makes, if it succeeds. -/
def changing (change : Tree → Except Fault Tree) : StateM Tree (Except Fault Unit) := fun t =>
  match change t with
  | .ok t' => (.ok (), t')
  | .error e => (.error e, t)

instance : Access (StateM Tree) where
  kind path := fun t => (t.kind path, t)
  read path := fun t => (t.read path, t)
  list path := fun t => (t.list path, t)
  makeDirectory path := changing (·.makeDirectory path)
  replace path content := changing (·.replace path content)

variable {m : Type → Type} [Monad m] [Access m]

/-! ### Questions -/

/-- Whether a path leads to anything. -/
def isThere (path : String) : m Bool := do
  match ← Access.kind path with
  | .ok _ => return true
  | .error _ => return false

/-- Whether a path leads to a file. -/
def isFile (path : String) : m Bool := do
  match ← Access.kind path with
  | .ok k => return k == .file
  | .error _ => return false

/-- Whether a path leads to a directory. -/
def isDirectory (path : String) : m Bool := do
  match ← Access.kind path with
  | .ok k => return k == .directory
  | .error _ => return false

/-- The text of a file. -/
def readText (path : String) : m (Except Fault String) := do
  match ← Access.read path with
  | .error e => return .error e
  | .ok content =>
    match String.fromUTF8? content with
    | some text => return .ok text
    | none => return .error .notText

/-! ### Directories -/

/-- Make a directory, or be content with one that is there. -/
def ensureDirectory (path : String) : m (Except Fault Unit) := do
  match ← Access.makeDirectory path with
  | .ok () => return .ok ()
  | .error e =>
    if ← isDirectory path then return .ok () else return .error e

/-- Make a directory and those above it; `fuel` is at least the number of steps of the path. -/
def makeDirectoriesFrom : Nat → String → m (Except Fault Unit)
  | 0, _ => return .ok ()
  | fuel + 1, path => do
    if path.isEmpty then return .ok ()
    match ← ensureDirectory path with
    | .error .notFound =>
      match parent? path with
      | none => return .error .notFound
      | some above =>
        match ← makeDirectoriesFrom fuel above with
        | .error e => return .error e
        | .ok () => ensureDirectory path
    | answer => return answer

/-- Make a directory and those above it that are missing. -/
def makeDirectories (path : String) : m (Except Fault Unit) :=
  makeDirectoriesFrom ((steps path).length + 1) path

/-! ### Storing a file -/

/-- Whether a file that was written took the place of something. -/
inductive Written where
  | created
  | overwritten
deriving DecidableEq, Repr

/-- The directory that a file goes to. -/
def directoryOf (path : String) : String :=
  match parent? path with
  | none => "."
  | some above => if above.isEmpty then "." else above

end Lexgen.Files
