/-
# Type declarations

An object type has members, each with a name, the text of its type, a description and a mark that
tells whether it may be left out. A declaration is an interface or a type alias. A union keeps each
member type once, in order of first mention.

Key definitions: `Member`, `inlineObject`, `Union`, `Interface`, `Alias`, `Declaration`.
-/
import Lexgen.TypeScript.Literal
import Lexgen.TypeScript.Doc

namespace Lexgen.TypeScript

open Lexgen.Code

/-! ### Members of object types -/

/-- A member of an object type. -/
structure Member where
  name : String
  type : String
  doc : Option String := none
  optional : Bool := false
deriving DecidableEq, Repr

namespace Member

/-- Key, mark and type, without an end. -/
def signature (m : Member) : String :=
  propertyKey m.name ++ (if m.optional then "?" else "") ++ ": " ++ m.type

/-- The member as a line of an interface, below its comment. -/
def fragments (m : Member) : List Fragment :=
  docFragments m.doc ++ [.line (m.signature ++ ";")]

end Member

/-- Members as an object type on one line. -/
def inlineObject (members : List Member) : String :=
  if members.isEmpty then "\x7b\x7d"
  else "\x7b " ++ "; ".intercalate (members.map Member.signature) ++ " \x7d"

/-! ### Unions -/

/-- The member types of a union, each once. -/
structure Union where
  members : List String := []
deriving DecidableEq, Repr

namespace Union

/-- Add a member type unless it is there. -/
def add (u : Union) (type : String) : Union :=
  if u.members.contains type then u else ⟨u.members ++ [type]⟩

/-- The union of several types. -/
def ofTypes (types : List String) : Union :=
  types.foldl add {}

/-- The union of the literals of several texts. -/
def ofStrings (values : List String) : Union :=
  ofTypes (values.map stringLiteral)

/-- The text of a union, or `fallback` if it has no member. -/
def textOr (u : Union) (fallback : String) : String :=
  if u.members.isEmpty then fallback else " | ".intercalate u.members

/-- The text of a union; without members it is the empty type. -/
def text (u : Union) : String := u.textOr "never"

end Union

/-! ### Declarations -/

/-- A named object type. -/
structure Interface where
  name : String
  doc : Option String := none
  members : List Member := []
deriving DecidableEq, Repr

/-- The fragments of an interface. -/
def Interface.fragments (i : Interface) : List Fragment :=
  docFragments i.doc ++
    if i.members.isEmpty then [.line ("export interface " ++ i.name ++ " \x7b\x7d")]
    else [.block ("export interface " ++ i.name ++ " \x7b") (i.members.flatMap Member.fragments)
      (some "\x7d")]

/-- A name for a type. -/
structure Alias where
  name : String
  type : String
  doc : Option String := none
deriving DecidableEq, Repr

/-- The fragments of a type alias. -/
def Alias.fragments (a : Alias) : List Fragment :=
  docFragments a.doc ++ [.line ("export type " ++ a.name ++ " = " ++ a.type ++ ";")]

/-- A declaration at the top of a types module. -/
inductive Declaration where
  | interface (i : Interface)
  | alias (a : Alias)
deriving DecidableEq, Repr

namespace Declaration

/-- The declared name. -/
def name : Declaration → String
  | .interface i => i.name
  | .alias a => a.name

/-- The fragments of a declaration. -/
def fragments : Declaration → List Fragment
  | .interface i => i.fragments
  | .alias a => a.fragments

end Declaration

end Lexgen.TypeScript
