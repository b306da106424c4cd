/-
# Modules

A module is made of sections with one empty line between them: the lines of the header comment, the
statements for imports, and each declaration by itself.

Key definitions: `Import`, `Import.ofImports`, `Module`, `Module.render`.
-/
import Lexgen.TypeScript.Literal
import Lexgen.Text.Blank
import Lexgen.Code.Writer
import Lexgen.Code.Imports

namespace Lexgen.TypeScript

open Lexgen.Code Lexgen.Text

/-- An import statement. Without names the module is only run. -/
structure Import where
  source : String
  names : List String := []
  typeOnly : Bool := false
deriving DecidableEq, Repr

namespace Import

/-- The line of an import statement. -/
def text (i : Import) : String :=
  if i.names.isEmpty then "import " ++ stringLiteral i.source ++ ";"
  else "import " ++ (if i.typeOnly then "type " else "") ++ "\x7b " ++ ", ".intercalate i.names ++
    " \x7d from " ++ stringLiteral i.source ++ ";"

/-- The fragments of an import statement. -/
def fragments (i : Import) : List Fragment := [.line i.text]

/-- The statements for one module: the values first, then the types. -/
def ofSymbols (source : String) (s : Symbols) : List Import :=
  (if s.values.entries.isEmpty then [] else [⟨source, s.values.names, false⟩]) ++
  (if s.types.entries.isEmpty then [] else [⟨source, s.types.names, true⟩])

/-- The statements for collected imports, module by module. -/
def ofImports (i : Imports) : List Import :=
  i.modules.entries.flatMap fun e => ofSymbols e.1 e.2

end Import

/-- Code given as it stands, line by line. -/
def rawCode (code : String) : List Fragment := (lines code).map .line

/-- A module with its header lines, its imports and its declarations. -/
structure Module where
  header : List String := []
  imports : List Import := []
  body : List (List Fragment) := []

/-- The text without line feeds at its end. -/
def dropLineFeeds (s : String) : String :=
  String.ofList (s.toList.reverse.dropWhile (· == '\n')).reverse

namespace Module

/-- Whether the module has no section at all. -/
def isEmpty (m : Module) : Bool := m.header.isEmpty && m.imports.isEmpty && m.body.isEmpty

/-- The writer after the header, the imports and the declarations, each followed by a blank line. -/
def write (m : Module) (w : Writer) : Writer :=
  let w := (m.header.foldl Writer.line w).blank
  let w := (m.imports.foldl (fun w i => w.putAll i.fragments) w).blank
  m.body.foldl (fun w fragments => (w.putAll fragments).blank) w

/-- The text of a module: it ends with one line feed, and an empty module is an empty text. -/
def render (m : Module) (indent : Indent := Indent.standard) : String :=
  let text := dropLineFeeds (m.write (Writer.start indent)).text
  if text.isEmpty then "" else text ++ "\n"

end Module

end Lexgen.TypeScript
