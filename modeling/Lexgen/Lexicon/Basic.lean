/-
# Lexicons

A lexicon is a document whose definitions are all classified. One of them is the primary one: `main`
if it exists, otherwise the first of the highest kind among records, queries, procedures and
subscriptions. The others support it.

Key definitions: `Lexicon`, `Lexicon.ofDocument`, `Lexicon.typeName`, `Lexicon.primary`,
`Lexicon.supporting`.
-/
import Lexgen.Lexicon.Definition
import Lexgen.Lexicon.Document
import Lexgen.Name.Entity

namespace Lexgen

open Lexgen.Data Lexgen.Name
open Lexgen.Lexicon (Definition Document Kind)

/-- A lexicon with its definitions, in the order of the document. -/
structure Lexicon where
  id : String
  description : Option String
  defs : Ordered Definition

namespace Lexicon

/-- The name of the definition that is primary whenever it exists. -/
def mainName : String := "main"

/-- Classify the definitions of a document, one after the other. -/
def classifyAll (source : String) :
    List (String × Json.Value) → Except Error (List (String × Definition))
  | [] => .ok []
  | (name, v) :: rest =>
    match Definition.classify v with
    | .error reason => .error (.invalidDefinition name reason (keySpan? source name))
    | .ok d => do return (name, d) :: (← classifyAll source rest)

/-- Classifying keeps the names. -/
theorem names_of_classifyAll {source : String} :
    ∀ {raw : List (String × Json.Value)} {defs : List (String × Definition)},
      classifyAll source raw = .ok defs → defs.map Prod.fst = raw.map Prod.fst
  | [], defs, h => by cases h; rfl
  | (name, v) :: rest, defs, h => by
    unfold classifyAll at h
    split at h
    · cases h
    · next d hd =>
      cases hr : classifyAll source rest with
      | error e => simp [hr, bind, Except.bind] at h
      | ok ds =>
        simp only [hr, bind, Except.bind, pure, Except.pure, Except.ok.injEq] at h
        subst h
        simp [names_of_classifyAll hr]

/-- The lexicon of a document, unless a definition is not what its type asks for. -/
def ofDocument (doc : Document) : Except Error Lexicon :=
  match h : classifyAll doc.source doc.defs.entries with
  | .error e => .error e
  | .ok defs => .ok ⟨doc.id, doc.description, defs, names_of_classifyAll h ▸ doc.defs.nodup⟩

/-- The lexicon in a JSON text. -/
def parse (text : String) : Except Error Lexicon := do
  ofDocument (← Document.parse text)

/-- The lexicon in a JSON text given by its bytes. -/
def ofBytes (bytes : ByteArray) : Except Error Lexicon := do
  ofDocument (← Document.ofBytes bytes)

/-- The names that follow from the id. -/
def entity (l : Lexicon) : Entity := Entity.ofId l.id

/-- The type name of a definition; the main one is named after the entity. -/
def typeName (l : Lexicon) (name : String) : String :=
  if name = mainName then l.entity.typeName else pascal name

/-- The definition under a name. -/
def get? (l : Lexicon) (name : String) : Option Definition := l.defs.get? name

/-! ### The primary definition -/

/-- The kinds that can be primary without being called main, highest first. -/
def primaryKinds : List Kind := [.record, .query, .procedure, .subscription]

/-- The primary definition with its name. -/
def primary? (l : Lexicon) : Option (String × Definition) :=
  match l.get? mainName with
  | some d => some (mainName, d)
  | none => primaryKinds.findSome? fun k => l.defs.entries.find? fun e => e.2.kind == k

/-- The primary definition, which emission starts from. -/
def primary (l : Lexicon) : Except Error (String × Definition) :=
  match l.primary? with
  | some p => .ok p
  | none => .error (.noPrimary l.id)

/-- The definitions under other names, in order. -/
def supporting (l : Lexicon) (primaryName : String) : List (String × Definition) :=
  l.defs.entries.filter fun e => e.1 != primaryName

end Lexicon

end Lexgen
