/-
# Names imported from modules

While code is put together the names that it takes from other modules are collected: modules in the
order of their first mention, and under each module the names used as values and the names used only
as types, both as sorted sets.

Key definitions: `Symbols`, `Imports`, `Imports.addValue`, `Imports.addType`.
-/
import Lexgen.Data.Entries
import Lexgen.Data.Sorted

namespace Lexgen.Code

open Lexgen.Data

/-- The names taken from one module. -/
structure Symbols where
  values : NameSet := Sorted.empty
  types : NameSet := Sorted.empty

/-- Modules with the names taken from them, in order of first mention. -/
structure Imports where
  modules : Ordered Symbols := Ordered.empty

namespace Imports

/-- Nothing imported. -/
def empty : Imports := {}

/-- Take a name from a module as a value. -/
def addValue (i : Imports) (module name : String) : Imports :=
  ⟨i.modules.update module {} fun s => { s with values := s.values.insert name () }⟩

/-- Take a name from a module as a type only. -/
def addType (i : Imports) (module name : String) : Imports :=
  ⟨i.modules.update module {} fun s => { s with types := s.types.insert name () }⟩

/-- Take several names from a module as values. -/
def addValues (i : Imports) (module : String) (names : List String) : Imports :=
  names.foldl (fun i n => i.addValue module n) i

/-- Take several names from a module as types only. -/
def addTypes (i : Imports) (module : String) (names : List String) : Imports :=
  names.foldl (fun i n => i.addType module n) i

/-- The number of modules. -/
def size (i : Imports) : Nat := i.modules.entries.length

end Imports

end Lexgen.Code
