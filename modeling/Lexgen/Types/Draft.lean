/-
# The declarations of definitions, drafted

Every definition of a lexicon contributes a block of declarations: a record or a schema one of its
own name, an operation one for each of its parts, named after the operation and the part. A draft is
such a declaration with shapes in place of type texts. The primary definition comes first and the
others follow in the order of the document.

Key definitions: `Draft`, `draftsOf`, `allDrafts`.
-/
import Lexgen.Types.Resolution

namespace Lexgen.Types

open Lexgen.Lexicon Lexgen.TypeScript

/-- A declaration whose types are not written yet. -/
inductive Draft where
  /-- An interface; the value of its discriminant is given if it has one. -/
  | interface (name : String) (doc discriminant : Option String)
      (properties : List (Property × Shape))
  | alias (name : String) (doc : Option String) (shape : Shape)
deriving Repr

/-- The declared name. -/
def Draft.name : Draft → String
  | .interface name .. => name
  | .alias name .. => name

/-- The name of a definition as records and tokens of other documents refer to it. -/
def qualifiedName (l : Lexicon) (name : String) : String :=
  if name = Lexicon.mainName then l.id else l.id ++ "#" ++ name

/-- The interface of the properties of a schema. -/
def interfaceOf (l : Lexicon) (name location : String) (doc discriminant : Option String)
    (s : Schema) : Except Error Draft :=
  Draft.interface name (docOf doc) discriminant <$>
    resolveProperties l location s.facets.required s.properties

/-- A schema under a name: an interface if it is an object with properties, an alias otherwise. -/
def declareSchema (l : Lexicon) (name location : String) (doc : Option String) (s : Schema) :
    Except Error Draft :=
  if s.isShape && s.reference?.isNone then interfaceOf l name location doc none s
  else Draft.alias name (docOf doc) <$> resolve l location s

/-! ### The blocks of definitions -/

/-- The interface of a record: its discriminant and the properties of its schema. -/
def recordDraft (l : Lexicon) (name : String) (r : Record) : Except Error Draft :=
  let doc := (r.schema.bind (·.description)) <|> r.description
  interfaceOf l (l.typeName name) name doc (some (qualifiedName l name))
    (r.schema.getD Schema.blank)

/-- The interface of parameters, if there are any. -/
def parameterDrafts (l : Lexicon) (name : String) (parameters : Option Schema) :
    Except Error (List Draft) :=
  match parameters with
  | none => .ok []
  | some s =>
    if s.properties.isEmpty then .ok []
    else do
      return [← interfaceOf l (l.typeName name ++ "Params") (name ++ ".parameters") s.description
        none s]

/-- The declaration of a part of an operation, if the part has a schema. -/
def partDrafts (l : Lexicon) (name part location : String) (description : Option String)
    (schema : Option Schema) : Except Error (List Draft) :=
  match schema with
  | none => .ok []
  | some s => do
    return [← declareSchema l (l.typeName name ++ part) (name ++ "." ++ location)
      (s.description <|> description) s]

/-- The declaration of what an operation takes. -/
def inputDrafts (l : Lexicon) (name : String) (b : Option Body) : Except Error (List Draft) :=
  partDrafts l name "Input" "input" (b.bind (·.description)) (b.bind (·.schema))

/-- The declaration of what an operation gives. -/
def outputDrafts (l : Lexicon) (name : String) (b : Option Body) : Except Error (List Draft) :=
  partDrafts l name "Output" "output" (b.bind (·.description)) (b.bind (·.schema))

/-- The declaration of what a subscription sends. -/
def messageDrafts (l : Lexicon) (name : String) (m : Option Message) :
    Except Error (List Draft) :=
  partDrafts l name "Message" "message" (m.bind (·.description)) (m.bind (·.schema))

/-- The union of the names of errors, if there are any. -/
def errorDrafts (l : Lexicon) (name : String) (errors : List NamedError) : List Draft :=
  if errors.isEmpty then []
  else [.alias (l.typeName name ++ "Error") none
    (.text (Union.ofStrings (errors.map NamedError.name)).text)]

/-- The declaration of a value schema. A token stands for its own name. -/
def schemaDraft (l : Lexicon) (name : String) (s : Schema) : Except Error Draft :=
  if s.facets.keyword = some .token then
    .ok (.alias (l.typeName name) (docOf s.description)
      (.text (stringLiteral (qualifiedName l name))))
  else declareSchema l (l.typeName name) name s.description s

/-- The block of a definition. -/
def draftsOf (l : Lexicon) (name : String) : Definition → Except Error (List Draft)
  | .record r => do return [← recordDraft l name r]
  | .query q => do
    let params ← parameterDrafts l name q.parameters
    let output ← outputDrafts l name q.output
    return params ++ output ++ errorDrafts l name q.errors
  | .procedure p => do
    let params ← parameterDrafts l name p.parameters
    let input ← inputDrafts l name p.input
    let output ← outputDrafts l name p.output
    return params ++ input ++ output ++ errorDrafts l name p.errors
  | .subscription s => do
    let params ← parameterDrafts l name s.parameters
    let message ← messageDrafts l name s.message
    return params ++ message ++ errorDrafts l name s.errors
  | .schema s => do return [← schemaDraft l name s]

/-- The blocks of several definitions, one after the other. -/
def blocks (l : Lexicon) : List (String × Definition) → Except Error (List Draft)
  | [] => .ok []
  | (name, d) :: rest => do
    let block ← draftsOf l name d
    return block ++ (← blocks l rest)

/-- The drafts of a lexicon, the primary definition first. -/
def allDrafts (l : Lexicon) : Except Error (List Draft) := do
  let (name, d) ← l.primary
  blocks l ((name, d) :: l.supporting name)

end Lexgen.Types
