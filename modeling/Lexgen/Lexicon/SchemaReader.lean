/-
# Reading schemas

A schema is an object of nineteen fields, none of which is needed, or the list of these fields.
Properties may be `null`, alone or all together: such a property has a schema that says nothing.

Key definitions: `readFacet`, `readSchema`.
-/
import Lexgen.Lexicon.Schema
import Lexgen.Lexicon.Decoding
import Lexgen.Data.Entries

namespace Lexgen.Lexicon

open Lexgen.Json Lexgen.Data

/-- The fields of a schema, in order. -/
def schemaSlots : List FieldSlot := [
  ⟨"type", false⟩, ⟨"description", false⟩, ⟨"properties", true⟩, ⟨"items", false⟩,
  ⟨"required", true⟩, ⟨"$ref", false⟩, ⟨"ref", false⟩, ⟨"refs", true⟩, ⟨"enum", true⟩,
  ⟨"knownValues", true⟩, ⟨"format", false⟩, ⟨"minLength", false⟩, ⟨"maxLength", false⟩,
  ⟨"minGraphemes", false⟩, ⟨"maxGraphemes", false⟩, ⟨"minimum", false⟩, ⟨"maximum", false⟩,
  ⟨"default", false⟩, ⟨"const", false⟩]

/-- The name of the structure in messages. -/
def schemaStruct : String := "SchemaField"

/-- Read a field other than the properties and the items. Unknown fields change nothing. -/
def readFacet (f : Facets) (name : String) (v : Value) : Except Mismatch Facets :=
  match name with
  | "type" => do
    return { f with keyword := (← readOptional readText v).map Keyword.ofWord }
  | "description" => do return { f with description := ← readOptional readText v }
  | "required" => do return { f with required := ← readSequence readText v }
  | "$ref" => do return { f with dollarRef := ← readOptional readText v }
  | "ref" => do return { f with ref := ← readOptional readText v }
  | "refs" => do return { f with refs := ← readSequence readText v }
  | "enum" => do return { f with literals := ← readSequence .ok v }
  | "knownValues" => do return { f with knownValues := ← readSequence readText v }
  | "format" => do return { f with format := ← readOptional readText v }
  | "minLength" => do return { f with minLength := ← readOptional readUnsigned v }
  | "maxLength" => do return { f with maxLength := ← readOptional readUnsigned v }
  | "minGraphemes" => do return { f with minGraphemes := ← readOptional readUnsigned v }
  | "maxGraphemes" => do return { f with maxGraphemes := ← readOptional readUnsigned v }
  | "minimum" => do return { f with minimum := ← readOptional readDouble v }
  | "maximum" => do return { f with maximum := ← readOptional readDouble v }
  | "default" => do return { f with fallback := ← readOptional .ok v }
  | "const" => do return { f with const := ← readOptional .ok v }
  | _ => .ok f

namespace Schema

/-- The schema with other facets. -/
def withFacets : Schema → Facets → Schema
  | ⟨_, ps, it⟩, f => ⟨f, ps, it⟩

/-- The schema with other properties. -/
def withProperties : Schema → List (String × Schema) → Schema
  | ⟨f, _, it⟩, ps => ⟨f, ps, it⟩

/-- The schema with another schema of the items. -/
def withItems : Schema → Option Schema → Schema
  | ⟨f, ps, _⟩, it => ⟨f, ps, it⟩

end Schema

/-- Read a field that cannot hold a schema. -/
def readPlain (s : Schema) (name : String) (v : Value) : Except Mismatch Schema :=
  if name = "properties" then
    if v == .null then .ok (s.withProperties []) else mismatch v .map
  else if name = "items" then
    if v == .null then .ok (s.withItems none) else mismatch v (.struct schemaStruct)
  else do return s.withFacets (← readFacet s.facets name v)

mutual

/-- Read a schema. -/
def readSchema : Value → Except Mismatch Schema
  | .object members => readSchemaMembers Schema.blank members
  | .array items => readSchemaElements items.length 0 Schema.blank schemaSlots items
  | v => mismatch v (.struct schemaStruct)

/-- Read one field into a schema. -/
def readSchemaField (s : Schema) (name : String) : Value → Except Mismatch Schema
  | .object members =>
    if name = "properties" then do return s.withProperties (← readProperties [] members)
    else if name = "items" then do
      return s.withItems (some (← readSchemaMembers Schema.blank members))
    else do return s.withFacets (← readFacet s.facets name (.object members))
  | .array items =>
    if name = "items" then do
      return s.withItems
        (some (← readSchemaElements items.length 0 Schema.blank schemaSlots items))
    else readPlain s name (.array items)
  | v => readPlain s name v

/-- Read the members of an object into a schema. -/
def readSchemaMembers (s : Schema) : List (String × Value) → Except Mismatch Schema
  | [] => .ok s
  | (name, v) :: rest => do
    let s ← readSchemaField s name v
    readSchemaMembers s rest

/-- Read the elements of a list of `total` elements into the fields from the index `i` on. -/
def readSchemaElements (total i : Nat) (s : Schema) (slots : List FieldSlot) :
    List Value → Except Mismatch Schema
  | [] =>
    match lacking? schemaStruct schemaSlots.length i slots with
    | some e => .error e
    | none => .ok s
  | v :: vs =>
    match slots with
    | [] => .error (.tooLong total)
    | slot :: slots => do
      let s ← readSchemaField s slot.name v
      readSchemaElements total (i + 1) s slots vs

/-- Read properties after those read so far. -/
def readProperties (ps : List (String × Schema)) :
    List (String × Value) → Except Mismatch (List (String × Schema))
  | [] => .ok ps
  | (name, .null) :: rest => readProperties (putEntry name Schema.blank ps) rest
  | (name, v) :: rest => do
    let s ← readSchema v
    readProperties (putEntry name s ps) rest

end

end Lexgen.Lexicon
