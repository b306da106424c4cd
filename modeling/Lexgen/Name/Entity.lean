/-
# The names around one collection

From the id of a collection follow the entity, its type name, the names of the six helper functions
of its client module and the names of its two generated files. The entity can be read back from the
name of the client file.

Key definitions: `Entity`, `Entity.ofId`, `entityOfClientFile`.
-/
import Lexgen.Name.Casing
import Lexgen.Name.Inflection

namespace Lexgen.Name

open Lexgen.Text

/-- A collection with the names that its helpers and files are built from. -/
structure Entity where
  /-- The id as written. -/
  collection : String
  /-- The last segment of the id, in lower case. -/
  base : String
  /-- The name of the record type. -/
  typeName : String
  /-- The name of many records. -/
  pluralName : String
deriving DecidableEq, Repr

/-- The end of the name of a client module, before its file extension. -/
def clientEnding : String := "_client"

/-- The end of the name of a types module, before its file extension. -/
def typesEnding : String := "_types"

/-- The file extension of generated modules, with its dot. -/
def moduleExtension : String := ".ts"

namespace Entity

/-- The names that follow from the id of a collection. -/
def ofId (id : String) : Entity where
  collection := id
  base := entityOf id
  typeName := pascal (entityOf id)
  pluralName := pascal (pluralOf (entityOf id))

/-- The helper that creates a record. -/
def createName (e : Entity) : String := "create" ++ e.typeName ++ "Record"

/-- The helper that fetches a record. -/
def getName (e : Entity) : String := "get" ++ e.typeName ++ "Record"

/-- The helper that lists records. -/
def listName (e : Entity) : String := "list" ++ e.pluralName

/-- The helper that writes a private record. -/
def putPrivateName (e : Entity) : String := "putPrivate" ++ e.typeName ++ "Record"

/-- The helper that fetches a private record. -/
def getPrivateName (e : Entity) : String := "getPrivate" ++ e.typeName ++ "Record"

/-- The helper that lists private records. -/
def listPrivateName (e : Entity) : String := "listPrivate" ++ e.pluralName

/-- The file name of the client module. -/
def clientFile (e : Entity) : String := e.base ++ clientEnding ++ moduleExtension

/-- The types module, without a file extension. -/
def typesModule (e : Entity) : String := e.base ++ typesEnding

end Entity

/-- The text without an ending, if it has it. -/
def withoutEnding (ending : String) (cs : List Char) : List Char :=
  (ending.toList.isSuffixOf? cs).getD cs

/-- The entity that the name of a client file stands for. -/
def entityOfClientFile (file : String) : String :=
  lower (String.ofList (withoutEnding clientEnding (withoutEnding moduleExtension file.toList)))

end Lexgen.Name
