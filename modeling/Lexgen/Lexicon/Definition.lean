/-
# Definitions

The type of a definition tells what it is: a record, one of three kinds of operation, or otherwise a
plain value schema.

Key definitions: `Definition`, `Definition.classify`, `Definition.kind`, `Definition.typeWord`.
-/
import Lexgen.Lexicon.SchemaReader

namespace Lexgen.Lexicon

open Lexgen.Json

/-! ### The parts of definitions -/

/-- What an operation takes or gives. -/
structure Body where
  encoding : String := ""
  description : Option String := none
  schema : Option Schema := none
deriving Repr

/-- What a subscription sends. -/
structure Message where
  description : Option String := none
  schema : Option Schema := none
deriving Repr

/-- An error that an operation may answer with. -/
structure NamedError where
  name : String
  description : Option String := none
deriving DecidableEq, Repr

/-- A stored kind of record. -/
structure Record where
  description : Option String := none
  key : Option String := none
  schema : Option Schema := none
deriving Repr

/-- An operation that reads. -/
structure Query where
  description : Option String := none
  parameters : Option Schema := none
  output : Option Body := none
  errors : List NamedError := []
deriving Repr

/-- An operation that writes. -/
structure Procedure where
  description : Option String := none
  parameters : Option Schema := none
  input : Option Body := none
  output : Option Body := none
  errors : List NamedError := []
deriving Repr

/-- An operation that sends messages as they come. -/
structure Subscription where
  description : Option String := none
  parameters : Option Schema := none
  message : Option Message := none
  errors : List NamedError := []
deriving Repr

/-- A definition of a lexicon. -/
inductive Definition where
  | record (r : Record)
  | query (q : Query)
  | procedure (p : Procedure)
  | subscription (s : Subscription)
  | schema (s : Schema)
deriving Repr

/-- The coarse kinds of definitions. -/
inductive Kind where
  | record
  | query
  | procedure
  | subscription
  | schema
deriving DecidableEq, Repr

/-- The word for a kind. -/
def Kind.word : Kind → String
  | .record => "record"
  | .query => "query"
  | .procedure => "procedure"
  | .subscription => "subscription"
  | .schema => "schema"

/-! ### Reading -/

/-- How the body of an operation is read. -/
def bodyLayout : Layout Body where
  struct := "IoBlock"
  slots := [⟨"encoding", true⟩, ⟨"description", false⟩, ⟨"schema", false⟩]
  start := {}
  readField b name v :=
    match name with
    | "encoding" => do return { b with encoding := ← readText v }
    | "description" => do return { b with description := ← readOptional readText v }
    | "schema" => do return { b with schema := ← readOptional readSchema v }
    | _ => .ok b

/-- How the message of a subscription is read. -/
def messageLayout : Layout Message where
  struct := "MessageBlock"
  slots := [⟨"description", false⟩, ⟨"schema", false⟩]
  start := {}
  readField m name v :=
    match name with
    | "description" => do return { m with description := ← readOptional readText v }
    | "schema" => do return { m with schema := ← readOptional readSchema v }
    | _ => .ok m

/-- How an error is read, its name being missing at first. -/
def errorLayout : Layout (Option String × Option String) where
  struct := "ErrorSpec"
  slots := [⟨"name", false⟩, ⟨"description", false⟩]
  start := (none, none)
  readField e name v :=
    match name with
    | "name" => do return (some (← readText v), e.2)
    | "description" => do return (e.1, ← readOptional readText v)
    | _ => .ok e

/-- An error of an operation. -/
def readNamedError (v : Value) : Except Mismatch NamedError := do
  match ← errorLayout.read v with
  | (some name, description) => .ok ⟨name, description⟩
  | (none, _) => .error (.missingField "name")

/-- Read a member of a record definition. Members that it does not know change nothing. -/
def readRecordField (r : Record) (name : String) (v : Value) : Except Mismatch Record :=
  match name with
  | "description" => do return { r with description := ← readOptional readText v }
  | "key" => do return { r with key := ← readOptional readText v }
  | "record" => do return { r with schema := ← readOptional readSchema v }
  | _ => .ok r

/-- Read a member of a query definition. -/
def readQueryField (q : Query) (name : String) (v : Value) : Except Mismatch Query :=
  match name with
  | "description" => do return { q with description := ← readOptional readText v }
  | "parameters" => do return { q with parameters := ← readOptional readSchema v }
  | "output" => do return { q with output := ← readOptional bodyLayout.read v }
  | "errors" => do return { q with errors := ← readSequence readNamedError v }
  | _ => .ok q

/-- Read a member of a procedure definition. -/
def readProcedureField (p : Procedure) (name : String) (v : Value) : Except Mismatch Procedure :=
  match name with
  | "description" => do return { p with description := ← readOptional readText v }
  | "parameters" => do return { p with parameters := ← readOptional readSchema v }
  | "input" => do return { p with input := ← readOptional bodyLayout.read v }
  | "output" => do return { p with output := ← readOptional bodyLayout.read v }
  | "errors" => do return { p with errors := ← readSequence readNamedError v }
  | _ => .ok p

/-- Read a member of a subscription definition. -/
def readSubscriptionField (s : Subscription) (name : String) (v : Value) :
    Except Mismatch Subscription :=
  match name with
  | "description" => do return { s with description := ← readOptional readText v }
  | "parameters" => do return { s with parameters := ← readOptional readSchema v }
  | "message" => do return { s with message := ← readOptional messageLayout.read v }
  | "errors" => do return { s with errors := ← readSequence readNamedError v }
  | _ => .ok s

namespace Definition

/-- Read the members of a definition of the given type. -/
def ofMembers (type : String) (members : List (String × Value)) : Except Mismatch Definition :=
  match type with
  | "record" => do return record (← members.foldlM (fun r m => readRecordField r m.1 m.2) {})
  | "query" => do return query (← members.foldlM (fun q m => readQueryField q m.1 m.2) {})
  | "procedure" => do
    return procedure (← members.foldlM (fun p m => readProcedureField p m.1 m.2) {})
  | "subscription" => do
    return subscription (← members.foldlM (fun s m => readSubscriptionField s m.1 m.2) {})
  | _ => do return schema (← readSchemaMembers Schema.blank members)

/-- The definition in a JSON value, or the reason why there is none. -/
def classify (v : Value) : Except String Definition :=
  match v with
  | .object members =>
    match (members.lookup "type").bind Value.string? with
    | none => .error "missing string field `type`"
    | some type => (ofMembers type members).mapError Mismatch.message
  | _ => .error "definition must be an object"

/-- The coarse kind of a definition. -/
def kind : Definition → Kind
  | record _ => .record
  | query _ => .query
  | procedure _ => .procedure
  | subscription _ => .subscription
  | schema _ => .schema

/-- Whether the definition is an operation. -/
def isOperation (d : Definition) : Bool :=
  d.kind == .query || d.kind == .procedure || d.kind == .subscription

/-- The word that a definition was declared with. -/
def typeWord : Definition → String
  | schema s => (s.facets.keyword.map Keyword.word).getD (Kind.word .schema)
  | d => d.kind.word

/-- The description of a definition. -/
def description : Definition → Option String
  | record r => r.description
  | query q => q.description
  | procedure p => p.description
  | subscription s => s.description
  | schema s => s.description

end Definition

end Lexgen.Lexicon
