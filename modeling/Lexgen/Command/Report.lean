/-
# Reports

A report tells from what which files were generated. After a preview it shows the files themselves.

Key definitions: `Outcome`, `Report`, `Report.warningLines`, `Report.lines`.
-/
import Lexgen.Files.Access
import Lexgen.Text.Blank

namespace Lexgen.Command

open Lexgen.Files

/-- What became of a generated file. -/
inductive Outcome where
  | written (how : Written)
  | preview (text : String)
deriving DecidableEq, Repr

/-- Whether a file was only shown. -/
def Outcome.isPreview : Outcome → Bool
  | .preview _ => true
  | .written _ => false

/-- What a command did. -/
structure Report where
  /-- What the files were generated from. -/
  source : String
  /-- The collections of a route configuration. -/
  collections : List String := []
  warnings : List String := []
  /-- The generated files by path. -/
  files : List (String × Outcome) := []
deriving DecidableEq, Repr

namespace Report

/-- The line between the parts of a preview. -/
def divider (title : String) : String := "── " ++ title ++ " ──"

/-- The lines that show a file that was not written. -/
def previewLines : String × Outcome → List String
  | (path, .preview text) => [divider path, Text.trimEnd text]
  | _ => []

/-- The line of a file that was written. -/
def fileLine? : String × Outcome → Option String
  | (path, .written .created) => some ("  + " ++ path)
  | (path, .written .overwritten) => some ("  ~ " ++ path)
  | _ => none

/-- Whether any file was not written. -/
def isPreview (r : Report) : Bool := r.files.any (·.2.isPreview)

/-- The line that counts the files of a preview. -/
def summary (r : Report) : String :=
  toString r.files.length ++ " file(s) would be generated from " ++ r.source

/-- The lines that list collections. -/
def collectionLines (ids : List String) : List String :=
  if ids.isEmpty then []
  else ("Collections (" ++ toString ids.length ++ "):") :: ids.map ("  - " ++ ·)

/-- The lines of a report. -/
def lines (r : Report) : List String :=
  if r.isPreview then r.files.flatMap previewLines ++ [divider "Summary", r.summary]
  else ("Source: " ++ r.source) :: collectionLines r.collections ++
    "Generated:" :: r.files.filterMap fileLine?

/-- The lines of the warnings. -/
def warningLines (r : Report) : List String := r.warnings.map ("warning: " ++ ·)

end Report

end Lexgen.Command
