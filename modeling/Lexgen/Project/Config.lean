/-
# The configuration of a project

A project may have a file of settings, with the table `paths` that says where things are and the
table `lexicons` that gives the lexicon of an entity. What is not set has a default, and unknown
settings are refused. The paths may also be given as a list.

Key definitions: `Layout`, `Config`, `Config.ofToml`, `Config.load`, `Config.sdkImport`,
`Config.typesDir`.
-/
import Lexgen.Data.Sorted
import Lexgen.Project.Specifier
import Lexgen.Project.Store
import Lexgen.Toml.Reader

namespace Lexgen.Project

open Lexgen.Data Lexgen.Files

/-- Where things are in a project. -/
structure Layout where
  /-- The module of the repository client. -/
  sdk : String := "src/sdk/atproto.ts"
  /-- The directory of the client modules. -/
  api : String := "src/api"
  /-- The directory of the types modules. -/
  types : String := "src/types"
  /-- The module of the route configuration. -/
  routes : String := "src/config/data_routes.ts"
deriving DecidableEq, Repr

namespace Layout

/-- The names of the settings, in order. -/
def settingNames : List String := ["sdk", "api", "types", "route_config"]

/-- Change the setting of a name. -/
def set? (l : Layout) (name path : String) : Option Layout :=
  match name with
  | "sdk" => some { l with sdk := path }
  | "api" => some { l with api := path }
  | "types" => some { l with types := path }
  | "route_config" => some { l with routes := path }
  | _ => none

/-- The layout with the settings of a table. -/
def ofEntries (entries : Toml.Table) : Option Layout :=
  entries.foldlM (fun l e => e.2.string?.bind (l.set? e.1)) {}

/-- The layout with settings by name or, in a list, by place. -/
def ofValue : Toml.Value → Option Layout
  | .array items => ofEntries (settingNames.zip items)
  | v => v.entries?.bind ofEntries

end Layout

/-- The configuration of a project. -/
structure Config where
  layout : Layout := {}
  /-- Lexicon ids by entity. -/
  lexicons : Sorted String := .empty
deriving DecidableEq

namespace Config

/-- The file of settings in the root of a project. -/
def fileName : String := "pac.toml"

/-- The configuration with one more setting. -/
def set? (c : Config) (name : String) (v : Toml.Value) : Option Config :=
  match name with
  | "paths" => (Layout.ofValue v).map fun l => { c with layout := l }
  | "lexicons" =>
    (v.entries?.bind Toml.Table.strings?).map fun es => { c with lexicons := .ofList es }
  | _ => none

/-- The configuration that a TOML text sets. -/
def ofToml (text : String) : Option Config :=
  (Toml.parse text).bind fun entries => entries.foldlM (fun c e => c.set? e.1 e.2) {}

/-! ### Places -/

/-- The path of the repository client. -/
def sdkPath (c : Config) (root : String) : String := join root c.layout.sdk

/-- The directory of the client modules. -/
def apiDir (c : Config) (root : String) : String := join root c.layout.api

/-- The path of the route configuration. -/
def routesPath (c : Config) (root : String) : String := join root c.layout.routes

/-- The repository client, seen from a client module. -/
def sdkImport (c : Config) : String := specifierOf c.layout.api c.layout.sdk

/-- The directory of the types modules, seen from a client module. -/
def typesDir (c : Config) : String := specifierOf c.layout.api c.layout.types

/-- The configuration of the project in a directory. -/
def load {m : Type → Type} [Monad m] [Access m] (root : String) : ExceptT Problem m Config :=
  readSettings (join root fileName) {} ofToml

end Config

end Lexgen.Project
