/-
# From schemas to shapes

Resolving a schema looks up every reference in it. A reference into another document gives the type
of which nothing is known; a local one must name a definition and gives its type name. Schemas are
visited depth first and properties in their order, and the first local reference that names no
definition is the error, with the path on which it was met.

Key definitions: `Target`, `Target.ofReference`, `resolveRef`, `resolve`, `resolveProperties`.
-/
import Lexgen.Types.Shape
import Lexgen.Lexicon.Basic

namespace Lexgen.Types

open Lexgen.Lexicon Lexgen.TypeScript

/-- What a reference says: a document, which may be left out, and a definition. -/
structure Target where
  document : String
  definition : String
deriving DecidableEq, Repr

namespace Target

/-- A reference names a definition behind its first number sign; without one it names the main
definition of a document. -/
def ofReference (reference : String) : Target :=
  let cs := reference.toList
  match cs.dropWhile (· != '#') with
  | [] => ⟨reference, Lexicon.mainName⟩
  | _ :: definition => ⟨String.ofList (cs.takeWhile (· != '#')), String.ofList definition⟩

/-- Whether the target is a definition of the lexicon itself. -/
def isLocal (t : Target) (l : Lexicon) : Bool := t.document.isEmpty || t.document == l.id

end Target

/-- The type that a reference stands for. -/
def resolveRef (l : Lexicon) (reference location : String) : Except Error String :=
  let target := Target.ofReference reference
  if !target.isLocal l then .ok anyType
  else if (l.get? target.definition).isNone then .error (.unresolvedRef reference location)
  else .ok (l.typeName target.definition)

/-- The types that several references stand for. -/
def resolveRefs (l : Lexicon) (location : String) : List String → Except Error (List String)
  | [] => .ok []
  | reference :: rest => do
    let type ← resolveRef l reference location
    return type :: (← resolveRefs l location rest)

/-- The property that a declared property becomes. -/
def propertyOf (required : List String) (name : String) (s : Schema) : Property :=
  ⟨name, docOf s.description, !required.contains name⟩

mutual

/-- The shape of a schema that was met at a location. -/
def resolve (l : Lexicon) (location : String) : Schema → Except Error Shape
  | ⟨f, ps, it⟩ =>
    match f.dollarRef <|> f.ref with
    | some reference => Shape.text <$> resolveRef l reference location
    | none =>
      match f.keyword with
      | some .array => Shape.array <$> resolveItems l (location ++ "[]") it
      | some .union => Shape.union <$> resolveRefs l location f.refs
      | _ =>
        if (Schema.mk f ps it).isShape then
          Shape.object (docOf f.description) <$> resolveProperties l location f.required ps
        else .ok (.text (leafType f))

/-- The shape of the items of an array; nothing may be known of them. -/
def resolveItems (l : Lexicon) (location : String) : Option Schema → Except Error Shape
  | none => .ok (.text anyType)
  | some s => resolve l location s

/-- The properties of an object with their shapes, in order. -/
def resolveProperties (l : Lexicon) (location : String) (required : List String) :
    List (String × Schema) → Except Error (List (Property × Shape))
  | [] => .ok []
  | (name, s) :: rest => do
    let shape ← resolve l (location ++ "." ++ name) s
    return (propertyOf required name s, shape) :: (← resolveProperties l location required rest)

end

end Lexgen.Types
