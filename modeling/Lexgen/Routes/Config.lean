/-
# The route configuration

The route configuration lists the collections of the client modules, each once, in the order in
which they were first met. The collection of a client module is the one in the manifest, or the
first that its text names, or the known lexicon of its entity.

Key definitions: `Known`, `Source`, `RouteConfig`, `RouteConfig.resolve`, `RouteConfig.add`,
`RouteConfig.render`.
-/
import Lexgen.Client.Manifest
import Lexgen.Name.Entity
import Lexgen.Routes.Collection
import Lexgen.TypeScript.Module
import Lexgen.TypeScript.Value

namespace Lexgen.Routes

open Lexgen.Data Lexgen.Files Lexgen.Project Lexgen.TypeScript

/-! ### Known lexicons -/

/-- Lexicon ids by entity. -/
abbrev Known := Sorted String

/-- The lexicons that are known in every project. -/
def builtIn : Known :=
  .ofList [("event", "community.lexicon.calendar.event"), ("note", "dev.eagraf.note")]

/-- The known lexicons of a project with lexicons of its own, which count in lower case. -/
def knownWith (own : Sorted String) : Known :=
  builtIn.insertAll (own.entries.map fun e => (Text.lower e.1, e.2))

/-! ### Resolving client modules -/

/-- Where a collection was found. -/
inductive Source where
  | manifest
  | module
  | known
deriving DecidableEq, Repr

/-- The collections found so far, and where to look. -/
structure RouteConfig where
  manifest : Manifest := .empty
  known : Known := builtIn
  collections : List String := []

namespace RouteConfig

/-- The collection of a client module, and where it was found. -/
def resolve (r : RouteConfig) (file text : String) : Option (String × Source) :=
  (r.manifest.collection? file).map (·, .manifest) <|>
  (collectionOf? text).map (·, .module) <|>
  (r.known.get? (Name.entityOfClientFile file)).map (·, .known)

/-- The collections with one that may be new. -/
def addNew (ids : List String) (id : String) : List String :=
  if id ∈ ids then ids else ids ++ [id]

/-- Add the collection of a client module, if it is found. -/
def add (r : RouteConfig) (file text : String) : RouteConfig :=
  match r.resolve file text with
  | some (id, _) => { r with collections := addNew r.collections id }
  | none => r

/-! ### The module -/

/-- The name of the list of collections. -/
def listName : String := "DATA_ROUTE_LEXICONS"

/-- The name of the configuration. -/
def configName : String := "DATA_ROUTE_CONFIG"

/-- The module of the route configuration. -/
def module (r : RouteConfig) : Module where
  header := [
    "// Generated by pac routegen. Do not edit by hand.",
    "// Lexicon collections exposed to the data debugger."]
  body := [
    (Constant.array listName (ArrayLiteral.ofStrings r.collections true)).fragments,
    (Constant.object configName (ObjectLiteral.expression {} "lexicons" listName) true).fragments]

/-- The text of the route configuration. -/
def render (r : RouteConfig) : String := r.module.render

/-! ### Client modules in files -/

variable {m : Type → Type} [Monad m] [Access m]

/-- Add the client module in a file, and say where its collection was found. -/
def addFile (r : RouteConfig) (path : String) :
    ExceptT Problem m (RouteConfig × Option Source) := do
  let text ← orProblem (.unreadableClient path) (readText (m := m) path)
  let file := (fileName? path).getD ""
  return (r.add file text, (r.resolve file text).map Prod.snd)

end RouteConfig

/-! ### Finding client modules -/

variable {m : Type → Type} [Monad m] [Access m]

/-- Whether a name is that of a client module. -/
def isClientFile (name : String) : Bool :=
  (Name.clientEnding ++ Name.moduleExtension).toList.isSuffixOf name.toList

/-- The paths of all client modules in a directory, in the order of their names. A directory that is
missing has none. -/
def clientFiles (directory : String) : ExceptT Problem m (List String) := do
  if ← isThere (m := m) directory then
    let found ← orProblem (.unreadableDirectory directory) (Access.list (m := m) directory)
    let names := (NameSet.ofNames (found.filter isClientFile)).names
    let files ← (names.map (join directory)).filterM fun path => isFile (m := m) path
    return files
  else return []

end Lexgen.Routes
