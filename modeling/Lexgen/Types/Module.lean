/-
# The types module of a lexicon

All declarations of a lexicon: those of its definitions, then the lifted interfaces. They are
refused if two definitions declare the same name, or if no definition declares anything.

Key definitions: `firstRepeated?`, `declarations`, `moduleOf`, `generate`.
-/
import Lexgen.Types.Lifting
import Lexgen.TypeScript.Module

namespace Lexgen.Types

open Lexgen.TypeScript Lexgen.Lexicon

/-- The first name that stands in a list for the second time, `seen` holding the names before it. -/
def firstRepeatedFrom? (seen : List String) : List String → Option String
  | [] => none
  | name :: rest =>
    if seen.contains name then some name else firstRepeatedFrom? (name :: seen) rest

/-- The first name that stands in a list for the second time. -/
def firstRepeated? (names : List String) : Option String := firstRepeatedFrom? [] names

/-- The declarations of drafts, followed by the interfaces of the lifted objects. -/
def declare (drafts : List Draft) : List Declaration :=
  let n := Naming.ofDrafts drafts
  drafts.map (Draft.write n) ++
    (Draft.liftAll n [] drafts).map fun o => .interface (n.interface o)

/-- The declarations of a lexicon, in the order of the module. -/
def declarations (l : Lexicon) : Except Error (List Declaration) := do
  let drafts ← allDrafts l
  match firstRepeated? (drafts.map Draft.name) with
  | some name => .error (.duplicateType l.id name)
  | none => if drafts.isEmpty then .error (.noTypes l.id) else .ok (declare drafts)

/-- The line that marks a types module as generated. -/
def marker (id : String) : String :=
  "// Generated TypeScript types for " ++ id ++ ". Do not edit by hand."

/-- The module of some declarations. -/
def moduleOf (id : String) (ds : List Declaration) : Module where
  header := [marker id]
  body := ds.map Declaration.fragments

/-- The text of the types module of a lexicon. -/
def generate (l : Lexicon) : Except Error String := do
  return (moduleOf l.id (← declarations l)).render

/-- The file name of the types module of a lexicon. -/
def fileName (l : Lexicon) : String := l.entity.typesModule ++ Name.moduleExtension

end Lexgen.Types
