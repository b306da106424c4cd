/-
# The client module of a record lexicon

A client module exports six helpers around one collection: create, fetch and list its public
records, and write, fetch and list its private ones. Each helper makes a client for the current
user and hands the collection over to one of its methods.

Key definitions: `Client`, `Client.ofLexicon`, `Client.functions`, `Client.module`,
`Client.render`.
-/
import Lexgen.Lexicon.Basic
import Lexgen.TypeScript.Function
import Lexgen.TypeScript.Module
import Lexgen.TypeScript.Value

namespace Lexgen

open Lexgen.Name Lexgen.TypeScript Lexgen.Code

/-- A client module to be written: the names of its collection and where it imports from. -/
structure Client where
  entity : Entity
  /-- The module of the repository client, seen from the client module. -/
  sdkImport : String := "../sdk/atproto"
  /-- The directory of the types modules, seen from the client module. -/
  typesDir : String := "../types"
deriving DecidableEq, Repr

namespace Client

open Lexgen.Lexicon (Error Definition)

/-- The client of a lexicon whose primary definition is a record with a schema. -/
def ofLexicon (l : Lexicon) : Except Error Client := do
  match ← l.primary with
  | (_, .record r) =>
    if r.schema.isNone then .error (.missingRecordSchema l.id) else .ok { entity := l.entity }
  | (_, d) => .error (.notARecord l.id d.typeWord)

/-- The text without slashes at its end. -/
def dropSlashes (s : String) : String :=
  String.ofList (s.toList.reverse.dropWhile (· == '/')).reverse

/-- The types module of the collection, seen from the client module. -/
def typesImport (c : Client) : String := dropSlashes c.typesDir ++ "/" ++ c.entity.typesModule

/-- The values that come from the module of the repository client. -/
def sdkValues : List String := ["HabitatClient", "getDefaultAgent", "getUserDid"]

/-- The types that come from the module of the repository client. -/
def sdkTypes : List String := ["GetRecordResponse", "ListRecordsResponse", "PutRecordResponse"]

/-- The package of the wire types. -/
def wirePackage : String := "@atproto/api"

/-- The types of the answers about public records. -/
def wireTypes : List String :=
  ["ComAtprotoRepoCreateRecord", "ComAtprotoRepoGetRecord", "ComAtprotoRepoListRecords"]

/-- Everything that the client module imports. -/
def imports (c : Client) : Imports :=
  let i := Imports.empty.addValues c.sdkImport sdkValues
  let i := i.addTypes c.sdkImport sdkTypes
  let i := i.addTypes wirePackage wireTypes
  i.addType c.typesImport c.entity.typeName

/-! ### The helpers -/

/-- What tells one helper from another. -/
structure Helper where
  name : String
  doc : String
  /-- The method of the repository client. -/
  method : String
  /-- The parameters handed over next to the collection. -/
  arguments : List String
  params : List Param
  result : String
deriving DecidableEq, Repr

/-- The call that a helper returns. -/
def call (c : Client) (h : Helper) : Fragment :=
  (h.arguments.foldl ObjectLiteral.shorthand
    (ObjectLiteral.string {} "collection" c.entity.collection)).call
    ("return client." ++ h.method ++ "<" ++ c.entity.typeName ++ ">") ";"

/-- The function of a helper. -/
def function (c : Client) (h : Helper) : Function where
  name := h.name
  doc := some h.doc
  isAsync := true
  params := h.params
  result := some h.result
  body := [
    .line "const agent = getDefaultAgent();",
    .line "const did = getUserDid();",
    .line "const client = new HabitatClient(agent, did);",
    c.call h]

/-- The six helpers, in the order of the module. -/
def helpers (c : Client) : List Helper :=
  let e := c.entity
  let record : Param := ⟨"record", e.typeName, false⟩
  let key : Param := ⟨"rkey", "string", false⟩
  [ { name := e.createName
      doc := "Create a " ++ e.collection ++ " record."
      method := "createRecord"
      arguments := ["record"]
      params := [record]
      result := "Promise<ComAtprotoRepoCreateRecord.Response>" },
    { name := e.getName
      doc := "Fetch one " ++ e.collection ++ " record by key."
      method := "getRecord"
      arguments := ["rkey"]
      params := [key]
      result := "Promise<ComAtprotoRepoGetRecord.Response>" },
    { name := e.listName
      doc := "List " ++ e.collection ++ " records."
      method := "listRecords"
      arguments := []
      params := []
      result := "Promise<ComAtprotoRepoListRecords.Response>" },
    { name := e.putPrivateName
      doc := "Write a private " ++ e.collection ++ " record."
      method := "putPrivateRecord"
      arguments := ["rkey", "record"]
      params := [record, { key with optional := true }]
      result := "Promise<PutRecordResponse>" },
    { name := e.getPrivateName
      doc := "Fetch one private " ++ e.collection ++ " record by key."
      method := "getPrivateRecord"
      arguments := ["rkey"]
      params := [key]
      result := "Promise<GetRecordResponse<" ++ e.typeName ++ ">>" },
    { name := e.listPrivateName
      doc := "List private " ++ e.collection ++ " records."
      method := "listPrivateRecords"
      arguments := []
      params := []
      result := "Promise<ListRecordsResponse<" ++ e.typeName ++ ">>" }]

/-- The functions of the module. -/
def functions (c : Client) : List Function := c.helpers.map c.function

/-! ### The module -/

/-- The line that marks a client module as generated. -/
def marker (id : String) : String :=
  "// Generated client helpers for " ++ id ++ ". Do not edit by hand."

/-- The client module. -/
def module (c : Client) : Module where
  header := [marker c.entity.collection]
  imports := Import.ofImports c.imports
  body := c.functions.map Function.fragments

/-- The text of the client module. -/
def render (c : Client) : String := c.module.render

/-- The file name of the client module. -/
def fileName (c : Client) : String := c.entity.clientFile

end Client

end Lexgen
