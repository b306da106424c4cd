/-
# Lifting repeated objects

An anonymous object whose full text occurs at least twice among all anonymous objects of a
lexicon gets a name and is declared once, below the definitions. Its name is made from where it
was first met and, if that is taken, a number. Everywhere else the object is written in place.

Occurrences are listed from the outside in; lifted objects are declared from the inside out, at the
first place where they are written.

Key definitions: `occurrences`, `repeatedObjects`, `freshName`, `Naming.ofDrafts`,
`Naming.write`, `Lifted`, `Naming.lift`.
-/
import Lexgen.Types.Draft
import Lexgen.Name.Casing

namespace Lexgen.Types

open Lexgen.TypeScript Lexgen.Name

/-! ### Occurrences of anonymous objects -/

/-- An anonymous object: its full text, and the name that it would be given here. -/
structure Occurrence where
  key : String
  candidate : String
deriving DecidableEq, Repr

/-- What is added to the name of a property for the items of an array. -/
def itemEnding : String := "_item"

mutual

/-- The anonymous objects in a shape, from the outside in. The shape is that of the property `name`
of the object called `owner`. -/
def occurrences (owner name : String) : Shape → List Occurrence
  | .text _ => []
  | .union _ => []
  | .array item => occurrences owner (name ++ itemEnding) item
  | .object doc properties =>
    ⟨(Shape.object doc properties).inline, owner ++ pascal name⟩ ::
      propertyOccurrences (owner ++ pascal name) properties

/-- The anonymous objects in the properties of the object called `owner`. -/
def propertyOccurrences (owner : String) : List (Property × Shape) → List Occurrence
  | [] => []
  | (p, s) :: rest => occurrences owner p.name s ++ propertyOccurrences owner rest

end

/-- The anonymous objects in a draft. -/
def Draft.occurrences : Draft → List Occurrence
  | .interface name _ _ properties => propertyOccurrences name properties
  | .alias name _ shape => Types.occurrences name "" shape

/-! ### Names for repeated objects -/

/-- The first occurrences of the objects that occur at least twice, in order, `seen` being the full
texts of the objects met before. -/
def firstOfRepeated (all : List Occurrence) : List String → List Occurrence → List Occurrence
  | _, [] => []
  | seen, o :: rest =>
    if seen.contains o.key then firstOfRepeated all seen rest
    else if 2 ≤ all.countP (·.key == o.key) then o :: firstOfRepeated all (o.key :: seen) rest
    else firstOfRepeated all (o.key :: seen) rest

/-- The first occurrences of the objects that occur at least twice, in order. -/
def repeatedObjects (all : List Occurrence) : List Occurrence := firstOfRepeated all [] all

/-- The candidate itself, or the candidate with the least number from 2 up that is not taken. -/
def freshName (taken : List String) (candidate : String) : String :=
  if taken.contains candidate then
    let numbered := (List.range (taken.length + 1)).map fun n => candidate ++ toString (n + 2)
    (numbered.find? (!taken.contains ·)).getD candidate
  else candidate

/-- An object that is declared by itself. -/
structure Lifted where
  name : String
  doc : Option String
  properties : List (Property × Shape)
deriving Repr

/-- The full text of a lifted object. -/
def Lifted.key (o : Lifted) : String := (Shape.object o.doc o.properties).inline

/-- The names given to objects, by their full text. -/
abbrev Naming := List (String × String)

/-- Name objects one after the other, keeping clear of the names taken. -/
def nameAll (taken : List String) : List Occurrence → Naming
  | [] => []
  | o :: rest =>
    let name := freshName taken o.candidate
    (o.key, name) :: nameAll (name :: taken) rest

namespace Naming

/-- The names for the objects that are repeated in some drafts. -/
def ofDrafts (drafts : List Draft) : Naming :=
  nameAll (drafts.map Draft.name) (repeatedObjects (drafts.flatMap Draft.occurrences))

/-! ### Writing types -/

mutual

/-- The text of a shape, the objects with names being written by name. -/
def write (n : Naming) : Shape → String
  | .text type => type
  | .union types => unionText types
  | .array item => arrayOf (write n item)
  | .object doc properties =>
    match n.lookup (Shape.object doc properties).inline with
    | some name => name
    | none => inlineObject (requiredFirst (writeMembers n properties))

/-- The members of an object, in order. -/
def writeMembers (n : Naming) : List (Property × Shape) → List Member
  | [] => []
  | (p, s) :: rest => p.member (write n s) :: writeMembers n rest

end

/-! ### Lifting objects -/

mutual

/-- The objects that a shape is the first to need, from the inside out, and the full texts of the
objects declared up to here. -/
def lift (n : Naming) (declared : List String) : Shape → List Lifted × List String
  | .text _ => ([], declared)
  | .union _ => ([], declared)
  | .array item => lift n declared item
  | .object doc properties =>
    let key := (Shape.object doc properties).inline
    match n.lookup key with
    | none => liftMembers n declared properties
    | some name =>
      if declared.contains key then ([], declared)
      else
        let (inner, declared) := liftMembers n (key :: declared) properties
        (inner ++ [⟨name, doc, properties⟩], declared)

/-- The objects that the properties of an object are the first to need. -/
def liftMembers (n : Naming) (declared : List String) :
    List (Property × Shape) → List Lifted × List String
  | [] => ([], declared)
  | (_, s) :: rest =>
    let (first, declared) := lift n declared s
    let (others, declared) := liftMembers n declared rest
    (first ++ others, declared)

end

/-- The interface of a lifted object. -/
def interface (n : Naming) (o : Lifted) : Interface :=
  ⟨o.name, o.doc, requiredFirst (n.writeMembers o.properties)⟩

end Naming

/-! ### Drafts -/

/-- The name of the member that tells records apart. -/
def discriminantName : String := "$type"

/-- The member that tells a record from others. -/
def discriminantMember (value : String) : Member :=
  ⟨discriminantName, stringLiteral value, none, false⟩

namespace Draft

/-- The declaration of a draft. -/
def write (n : Naming) : Draft → Declaration
  | .interface name doc discriminant properties =>
    .interface ⟨name, doc, (discriminant.toList.map discriminantMember) ++
      requiredFirst (n.writeMembers properties)⟩
  | .alias name doc shape => .alias ⟨name, n.write shape, doc⟩

/-- The objects that a draft is the first to need. -/
def lift (n : Naming) (declared : List String) : Draft → List Lifted × List String
  | .interface _ _ _ properties => n.liftMembers declared properties
  | .alias _ _ shape => n.lift declared shape

/-- The objects that several drafts need, each once. -/
def liftAll (n : Naming) (declared : List String) : List Draft → List Lifted
  | [] => []
  | d :: rest =>
    let (first, declared) := d.lift n declared
    first ++ liftAll n declared rest

end Draft

end Lexgen.Types
