/-
# Value schemas

A schema describes a value: a type keyword, the properties of an object, the items of an array, the
references and literals it is made of, and further facets that only bound the values.

Key definitions: `Keyword`, `Facets`, `Schema`, `Schema.reference?`, `Schema.isShape`,
`Schema.Distinct`.
-/
import Lexgen.Json.Value

namespace Lexgen.Lexicon

open Lexgen.Json

/-- The type keyword of a schema. -/
inductive Keyword where
  | null | boolean | integer | number | string | bytes | cidLink | blob | array | object | params
  | ref | union | token | unknown
  | other (word : String)
deriving DecidableEq, Repr

namespace Keyword

/-- The keywords that have a meaning of their own, as they are written. -/
def known : List (String × Keyword) := [
  ("null", null), ("boolean", boolean), ("integer", integer), ("number", number),
  ("string", string), ("bytes", bytes), ("cid-link", cidLink), ("blob", blob), ("array", array),
  ("object", object), ("params", params), ("ref", ref), ("union", union), ("token", token),
  ("unknown", unknown)]

/-- The keyword of a word. -/
def ofWord (word : String) : Keyword := (known.lookup word).getD (other word)

/-- The word of a keyword. -/
def word : Keyword → String
  | null => "null"
  | boolean => "boolean"
  | integer => "integer"
  | number => "number"
  | string => "string"
  | bytes => "bytes"
  | cidLink => "cid-link"
  | blob => "blob"
  | array => "array"
  | object => "object"
  | params => "params"
  | ref => "ref"
  | union => "union"
  | token => "token"
  | unknown => "unknown"
  | other w => w

end Keyword

/-- All that a schema says apart from its properties and items. Bounds on numbers are doubles, given
by their bits. -/
structure Facets where
  keyword : Option Keyword := none
  description : Option String := none
  required : List String := []
  dollarRef : Option String := none
  ref : Option String := none
  refs : List String := []
  literals : List Value := []
  knownValues : List String := []
  format : Option String := none
  minLength : Option Nat := none
  maxLength : Option Nat := none
  minGraphemes : Option Nat := none
  maxGraphemes : Option Nat := none
  minimum : Option UInt64 := none
  maximum : Option UInt64 := none
  fallback : Option Value := none
  const : Option Value := none
deriving BEq, Repr, Inhabited

/-- A value schema. -/
inductive Schema where
  | mk (facets : Facets) (properties : List (String × Schema)) (items : Option Schema)
deriving Repr, Inhabited

namespace Schema

/-- A schema that says nothing. -/
def blank : Schema := ⟨{}, [], none⟩

/-- What the schema says apart from its properties and items. -/
def facets : Schema → Facets
  | ⟨f, _, _⟩ => f

/-- The properties, in order. -/
def properties : Schema → List (String × Schema)
  | ⟨_, ps, _⟩ => ps

/-- The schema of the items. -/
def items : Schema → Option Schema
  | ⟨_, _, it⟩ => it

/-- The description of the values. -/
def description (s : Schema) : Option String := s.facets.description

/-- Whether a property must be present. -/
def isRequired (s : Schema) (name : String) : Bool := s.facets.required.contains name

/-- What the schema refers to; `$ref` goes before `ref`. -/
def reference? (s : Schema) : Option String := s.facets.dollarRef <|> s.facets.ref

/-- Whether the type keyword is that of an object. -/
def isObject (s : Schema) : Bool :=
  s.facets.keyword == some .object || s.facets.keyword == some .params

/-- Whether the schema is an object with declared properties. -/
def isShape (s : Schema) : Bool :=
  !s.properties.isEmpty && (s.facets.keyword.isNone || s.isObject)

mutual

/-- At every level no property is declared twice. -/
def Distinct : Schema → Prop
  | ⟨_, ps, it⟩ => (ps.map Prod.fst).Nodup ∧ AllDistinct ps ∧ ItemsDistinct it

/-- The schema of the items, if there is one, declares no property twice. -/
def ItemsDistinct : Option Schema → Prop
  | none => True
  | some s => Distinct s

/-- The schemas of some properties declare no property twice. -/
def AllDistinct : List (String × Schema) → Prop
  | [] => True
  | (_, s) :: rest => Distinct s ∧ AllDistinct rest

end

end Schema

end Lexgen.Lexicon
