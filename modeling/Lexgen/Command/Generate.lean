/-
# The commands

Three commands generate modules: the types module of a lexicon, the client module of a record
lexicon together with the manifest, and the route configuration of the client modules.

Key definitions: `TypesOptions`, `ClientOptions`, `RoutesOptions`, `planTypes`, `planClient`,
`planRoutes`.
-/
import Lexgen.Client.Module
import Lexgen.Command.Plan
import Lexgen.Project.Config
import Lexgen.Routes.Config
import Lexgen.Types.Module

namespace Lexgen.Command

open Lexgen.Files Lexgen.Project Lexgen.Routes

variable {m : Type → Type} [Monad m] [Access m]

/-- The lexicon in a file. -/
def readLexicon (path : String) : m (Except Lexicon.Error Lexicon) := do
  match ← readText path with
  | .ok text => return Lexicon.parse text
  | .error fault => return .error (.unreadableFile path fault.message)

/-- The lexicon in a file, as the first stage of a command. -/
def lexiconIn (path : String) : ExceptT Failure m Lexicon := do
  lexiconStep .parse (← readLexicon (m := m) path)

/-! ### Types -/

/-- What the command for types is asked for. -/
structure TypesOptions where
  lexicon : String
  output : Option String := none
  dryRun : Bool := false
deriving DecidableEq, Repr

/-- The file name of the types module of a lexicon in a file. -/
def typesFileOf (path : String) : String :=
  stem ((fileName? path).getD "") ++ Name.typesEnding ++ Name.moduleExtension

/-- The path of the types module: the one that is asked for, or next to the lexicon. -/
def typesPath (o : TypesOptions) : Except Problem String :=
  match o.output with
  | none => .ok (join ((parent? o.lexicon).getD "") (typesFileOf o.lexicon))
  | some path =>
    match fileName? path with
    | none => .error (.noFileName path)
    | some name => .ok (join ((parent? path).getD "") name)

/-- The plan for a types module. -/
def planTypes (o : TypesOptions) : ExceptT Failure m Plan := do
  let l ← lexiconIn (m := m) o.lexicon
  let text ← lexiconStep .emit (Types.generate l)
  let path ← projectStep .write (ExceptT.mk (pure (typesPath o)))
  return { source := l.id, outputs := [⟨path, text⟩] }

/-! ### Clients -/

/-- What the command for clients is asked for. -/
structure ClientOptions where
  lexicon : String
  root : String := "."
  dryRun : Bool := false
deriving DecidableEq, Repr

/-- Refuse a project without the module of the repository client. -/
def requireSdk (path : String) : ExceptT Problem m Unit := do
  if ← isFile (m := m) path then return () else throw (.noSdk path)

/-- The warnings about a client module that used to serve another collection. -/
def collectionWarnings (t : Manifest) (c : Client) : List String :=
  match t.collection? c.fileName with
  | none => []
  | some previous =>
    if previous = c.entity.collection then []
    else [c.fileName ++ " previously served " ++ previous ++ ", now " ++ c.entity.collection]

/-- The plan for a client module and the manifest with it. -/
def planClient (o : ClientOptions) : ExceptT Failure m Plan := do
  let config ← projectStep .parse (Config.load (m := m) o.root)
  projectStep .write (requireSdk (m := m) (config.sdkPath o.root))
  let l ← lexiconIn (m := m) o.lexicon
  let c ← lexiconStep .emit (Client.ofLexicon l)
  let c := { c with sdkImport := config.sdkImport, typesDir := config.typesDir }
  let api := config.apiDir o.root
  let t ← projectStep .write (Manifest.load (m := m) api)
  return {
    source := c.entity.collection
    warnings := collectionWarnings t c
    outputs := [
      ⟨join api c.fileName, c.render⟩,
      ⟨join api Manifest.fileName, (t.insert c.fileName c.entity.collection).render⟩] }

/-! ### Routes -/

/-- What the command for routes is asked for. -/
structure RoutesOptions where
  /-- The client modules; if there are none, all in the directory of client modules. -/
  files : List String := []
  root : String := "."
  output : Option String := none
  dryRun : Bool := false
deriving DecidableEq, Repr

/-- Add the client modules in several files; the paths of those without a collection come along. -/
def addFiles (r : RouteConfig) : List String → ExceptT Problem m (RouteConfig × List String)
  | [] => return (r, [])
  | path :: paths => do
    let (r, source) ← r.addFile (m := m) path
    let (r, skipped) ← addFiles r paths
    return (r, if source.isNone then path :: skipped else skipped)

/-- The plan for a route configuration. -/
def planRoutes (o : RoutesOptions) : ExceptT Failure m Plan := do
  let config ← projectStep .parse (Config.load (m := m) o.root)
  let api := config.apiDir o.root
  let files ← if o.files.isEmpty then projectStep .parse (clientFiles (m := m) api)
    else pure o.files
  let manifest ← projectStep .parse (Manifest.load (m := m) api)
  let start : RouteConfig := { manifest, known := knownWith config.lexicons }
  let (r, skipped) ← projectStep .write (addFiles (m := m) start files)
  return {
    source := toString files.length ++ " client module(s)"
    collections := r.collections
    warnings := skipped.map fun path => "no collection id found in " ++ path ++ ", skipped"
    outputs := [⟨o.output.getD (config.routesPath o.root), r.render⟩] }

end Lexgen.Command
