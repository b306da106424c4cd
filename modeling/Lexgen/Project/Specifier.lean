/-
# Module specifiers

A module specifier leads from the directory of the importing module to the imported one: up out
of the names that the two do not share, and down again. It starts with a dot.

Key definitions: `dropShared`, `specifier`, `specifierOf`.
-/
import Lexgen.Files.Path

namespace Lexgen.Project

open Lexgen.Files

/-- Two ways without the names that they start with in common. -/
def dropShared : List String → List String → List String × List String
  | a :: as, b :: bs => if a = b then dropShared as bs else (a :: as, b :: bs)
  | as, bs => (as, bs)

/-- The specifier that leads from one way of names to another. -/
def specifier (source target : List String) : String :=
  match dropShared source target with
  | ([], []) => "."
  | ([], down) => "./" ++ "/".intercalate down
  | (up, down) => "/".intercalate (up.map (fun _ => "..") ++ down)

/-- The specifier of a module, without its file extension, seen from a directory. -/
def specifierOf (directory module : String) : String :=
  specifier (names directory) ((dropExtension (steps module)).filterMap Step.name?)

end Lexgen.Project
