/-
# The manifest of client modules

The manifest lies next to the client modules and says which collection each of them serves. It is a
TOML text with one line for each client module, in the order of their names.

Key definitions: `Manifest`, `Manifest.insert`, `Manifest.collection?`, `Manifest.ofToml`,
`Manifest.render`, `Manifest.load`.
-/
import Lexgen.Data.Sorted
import Lexgen.Project.Store
import Lexgen.Toml.Reader
import Lexgen.Toml.Writer

namespace Lexgen

open Lexgen.Data Lexgen.Files Lexgen.Project

/-- The collection of each client module, by file name. -/
structure Manifest where
  collections : Sorted String := .empty
deriving DecidableEq

namespace Manifest

/-- The manifest of no client modules. -/
def empty : Manifest := {}

/-- The file name of the manifest. -/
def fileName : String := "clients.toml"

/-- The collection of a client module. -/
def collection? (t : Manifest) (file : String) : Option String := t.collections.get? file

/-- Set the collection of a client module. -/
def insert (t : Manifest) (file collection : String) : Manifest :=
  ⟨t.collections.insert file collection⟩

/-- The line that starts a manifest. -/
def marker : String :=
  "# Generated by pac clientgen. Maps client modules to lexicon collections.\n"

/-- The line of a client module. -/
def line (e : String × String) : String :=
  Toml.writeString e.1 ++ " = " ++ Toml.writeString e.2 ++ "\n"

/-- The text of a manifest. -/
def render (t : Manifest) : String := marker ++ String.join (t.collections.entries.map line)

/-- The manifest that a TOML text holds. -/
def ofToml (text : String) : Option Manifest :=
  ((Toml.parse text).bind Toml.Table.strings?).map fun es => ⟨.ofList es⟩

/-- The manifest in a directory, empty if it is missing. -/
def load {m : Type → Type} [Monad m] [Access m] (directory : String) :
    ExceptT Problem m Manifest :=
  readSettings (join directory fileName) empty ofToml

end Manifest

end Lexgen
