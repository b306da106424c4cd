/-
# File trees

A file tree holds files and directories at locations, a location being the names on the way from the
root. Paths lead from the working directory, or from the root, to a location. What may go wrong goes
wrong step by step: everything before the last step has to be a directory.

Key definitions: `Item`, `Tree`, `Tree.walk`, `Tree.kind`, `Tree.read`, `Tree.list`,
`Tree.makeDirectory`, `Tree.replace`.
Key theorems: `Tree.item?_put`.
-/
import Lexgen.Data.Entries
import Lexgen.Files.Fault
import Lexgen.Files.Path

namespace Lexgen.Files

/-- What stands at a location. -/
inductive Item where
  | file (content : ByteArray)
  | directory

/-- The names on the way from the root. -/
abbrev Location := List String

/-- Files and directories at locations other than the root, and the working directory. -/
structure Tree where
  items : List (Location × Item) := []
  here : Location := []

/-- What an operation needs to know about an item. -/
inductive Kind where
  | file
  | directory
deriving DecidableEq, Repr

/-- The kind of an item. -/
def Item.kind : Item → Kind
  | .file _ => .file
  | .directory => .directory

/-- The greatest number of bytes of a name. -/
def maxName : Nat := 255

/-- Replace or add the item at a location. -/
def putItem (place : Location) (item : Item) : List (Location × Item) → List (Location × Item)
  | [] => [(place, item)]
  | e :: rest => if e.1 = place then (place, item) :: rest else e :: putItem place item rest

/-- After putting an item, its location has it and all others keep theirs. -/
theorem lookup_putItem (place : Location) (item : Item) (x : Location) :
    ∀ es : List (Location × Item),
      (putItem place item es).lookup x = if x = place then some item else es.lookup x
  | [] => by simp [putItem, Data.lookup_cons_ite]
  | (k, v) :: rest => by
    have ih := lookup_putItem place item x rest
    unfold putItem
    split
    · next hk => subst hk; rw [Data.lookup_cons_ite, Data.lookup_cons_ite]; split <;> rfl
    · next hk => rw [Data.lookup_cons_ite, Data.lookup_cons_ite, ih]; split <;> grind

namespace Tree

/-- What stands at a location; at the root there is always a directory. -/
def item? (t : Tree) (place : Location) : Option Item :=
  if place = [] then some .directory else t.items.lookup place

/-- The tree with an item put at a location. -/
def put (t : Tree) (place : Location) (item : Item) : Tree :=
  { t with items := putItem place item t.items }

/-- Putting an item changes what stands at its location only. -/
@[simp] theorem item?_put (t : Tree) (place : Location) (item : Item) (x : Location)
    (h : place ≠ []) :
    (t.put place item).item? x = if x = place then some item else t.item? x := by
  unfold item? put
  by_cases hx : x = []
  · subst hx; simp [Ne.symm h]
  · simp only [hx, if_false, lookup_putItem]

/-- The tree without anything at or below a location. -/
def remove (t : Tree) (place : Location) : Tree :=
  { t with items := t.items.filter fun e => !place.isPrefixOf e.1 }

/-! ### Following paths -/

/-- The location that pieces of a path lead to from a location, on directories only. -/
def walk (t : Tree) : Location → List String → Except Fault Location
  | place, [] => .ok place
  | place, p :: ps =>
    match t.item? place with
    | none => .error .notFound
    | some (.file _) => .error .notDirectory
    | some .directory =>
      if p = "" ∨ p = "." then walk t place ps
      else if p = ".." then walk t place.dropLast ps
      else if maxName < p.utf8ByteSize then .error .nameTooLong
      else walk t (place ++ [p]) ps

/-- The location that pieces of a path lead to. -/
def follow (t : Tree) (path : String) (ps : List String) : Except Fault Location :=
  if holdsNul path then .error .nulInPath
  else if path.isEmpty then .error .notFound
  else if longPath ≤ path.utf8ByteSize then .error .nameTooLong
  else t.walk (if isRooted path then [] else t.here) ps

/-- The item that a path leads to. -/
def lookup (t : Tree) (path : String) : Except Fault Item := do
  match t.item? (← t.follow path (pieces path)) with
  | none => .error .notFound
  | some item => .ok item

/-! ### Reading -/

/-- The kind of what a path leads to. -/
def kind (t : Tree) (path : String) : Except Fault Kind := (t.lookup path).map Item.kind

/-- The content of the file that a path leads to. -/
def read (t : Tree) (path : String) : Except Fault ByteArray := do
  match ← t.lookup path with
  | .file content => .ok content
  | .directory => .error .isDirectory

/-- The name of a location right below another. -/
def nameBelow? (place below : Location) : Option String :=
  match place.isPrefixOf? below with
  | some [name] => some name
  | _ => none

/-- The names in the directory that a path leads to. -/
def list (t : Tree) (path : String) : Except Fault (List String) := do
  let place ← t.follow path (pieces path)
  match t.item? place with
  | none => .error .notFound
  | some (.file _) => .error .notDirectory
  | some .directory => .ok (t.items.filterMap fun e => nameBelow? place e.1)

/-! ### Writing -/

/-- The pieces of a path without empty ones at the end. -/
def targetPieces (path : String) : List String :=
  ((pieces path).reverse.dropWhile (· == "")).reverse

/-- Whether the last piece of a path names an entry. -/
def namesEntry (ps : List String) : Bool :=
  match ps.getLast? with
  | none => false
  | some p => p != "." && p != ".."

/-- Make a directory where nothing is yet, in a directory that is there. -/
def makeDirectory (t : Tree) (path : String) : Except Fault Tree := do
  let ps := targetPieces path
  let place ← t.follow path ps
  if !namesEntry ps || (t.item? place).isSome then .error .exists
  else .ok (t.put place .directory)

/-- Put a file in the place of another or of nothing, in a directory that is there. -/
def replace (t : Tree) (path : String) (content : ByteArray) : Except Fault Tree := do
  if holdsNul path then .error .invalidTarget
  let ps := targetPieces path
  let place ← t.follow path ps
  if !namesEntry ps then .error .busy
  else if (pieces path).getLast? = some "" then .error .notDirectory
  else match t.item? place with
    | some .directory => .error .isDirectory
    | _ => .ok (t.put place (.file content))

end Tree

end Lexgen.Files
