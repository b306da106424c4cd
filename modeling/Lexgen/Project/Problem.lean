/-
# What goes wrong in a project

Key definitions: `Problem`, `Problem.message`.
-/
import Lexgen.Files.Fault

namespace Lexgen.Project

open Lexgen.Files (Fault)

/-- A problem with the files of a project. -/
inductive Problem where
  /-- A file of settings cannot be read. -/
  | unreadable (path : String) (fault : Fault)
  /-- A file of settings is no TOML, or not the right settings. -/
  | malformed (path : String)
  | unreadableDirectory (path : String) (fault : Fault)
  | unreadableClient (path : String) (fault : Fault)
  /-- The directory of a file to be written cannot be made. -/
  | noDirectory (path : String) (fault : Fault)
  | unwritable (path : String) (fault : Fault)
  /-- The path given for a file to be written names no file. -/
  | noFileName (path : String)
  /-- The module of the repository client is not there. -/
  | noSdk (path : String)
deriving DecidableEq, Repr

/-- The wording of a problem. -/
def Problem.message : Problem → String
  | .unreadable path fault => "failed to read '" ++ path ++ "': " ++ fault.message
  | .malformed path => "failed to parse '" ++ path ++ "': TOML parse error"
  | .unreadableDirectory path fault =>
    "failed to read directory '" ++ path ++ "': " ++ fault.message
  | .unreadableClient path fault =>
    "failed to read client module '" ++ path ++ "': " ++ fault.message
  | .noDirectory path fault => "failed to create directory '" ++ path ++ "': " ++ fault.message
  | .unwritable path fault => "failed to write '" ++ path ++ "': " ++ fault.message
  | .noFileName path => "output path '" ++ path ++ "' has no file name"
  | .noSdk path =>
    "project not initialized: SDK file not found: " ++ path ++ " (run 'pac init' first)"

end Lexgen.Project
