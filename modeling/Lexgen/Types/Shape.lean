/-
# Shapes of types

A shape is the type of a schema after its references have been resolved: a fixed text, a union of
fixed texts, an array, or an anonymous object. The properties of an object stand in the order of the
document; where they are written, the required ones come first. Written out in full on one line, an
object has a text that serves as its identity.

Key definitions: `Property`, `Shape`, `requiredFirst`, `Shape.inline`.
-/
import Lexgen.Types.Leaf
import Lexgen.Types.TypeText

namespace Lexgen.Types

open Lexgen.TypeScript

/-- A property of an object, apart from its type. -/
structure Property where
  name : String
  doc : Option String := none
  optional : Bool := false
deriving DecidableEq, Repr

/-- The member that a property with a type becomes. -/
def Property.member (p : Property) (type : String) : Member := ⟨p.name, type, p.doc, p.optional⟩

/-- The type of a schema with its references resolved. -/
inductive Shape where
  | text (type : String)
  | union (types : List String)
  | array (item : Shape)
  | object (doc : Option String) (properties : List (Property × Shape))
deriving Repr, Inhabited

/-- Members with those first that may not be left out. -/
def requiredFirst (members : List Member) : List Member :=
  members.filter (!·.optional) ++ members.filter (·.optional)

/-- The text of a union of types. -/
def unionText (types : List String) : String := (Union.ofTypes types).textOr anyType

namespace Shape

mutual

/-- The text of a shape, with every object written out in place. -/
def inline : Shape → String
  | .text type => type
  | .union types => unionText types
  | .array item => arrayOf (inline item)
  | .object _ properties => inlineObject (requiredFirst (inlineMembers properties))

/-- The members of an object, in order, with every object in them written out in place. -/
def inlineMembers : List (Property × Shape) → List Member
  | [] => []
  | (p, s) :: rest => p.member (inline s) :: inlineMembers rest

end

end Shape

end Lexgen.Types
