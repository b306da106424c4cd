/-
# Lexicon documents

A document is a JSON object with the supported version, an id that is not blank, and a non-empty
object of definitions, which are kept as they stand and in their order. The first of these that is
missing decides the error.

Key definitions: `Document`, `Document.parse`, `Document.ofBytes`.
Key theorems: `Document.parse_eq_ok_iff`.
-/
import Lexgen.Lexicon.Source
import Lexgen.Json.Reader
import Lexgen.Json.Printer
import Lexgen.Name.Casing

namespace Lexgen.Lexicon

open Lexgen.Json Lexgen.Data Lexgen.Text

/-- A document with its raw definitions. -/
structure Document where
  id : String
  description : Option String
  defs : Ordered Value
  /-- The text that the document was read from. -/
  source : String

namespace Document

/-- The only version of documents that is supported. -/
def version : Int := 1

/-- The error for text that is not JSON. -/
def malformed (text : String) (f : Fault) : Error :=
  .malformed (f.message text) (offsetOf text (f.place text))

/-- The text of a version that is not the supported one. -/
def wrongVersion? (root : Value) : Option String :=
  match root.member? "lexicon" with
  | some (.number (.integer n)) => if n = version then none else some (toString n)
  | some other => some other.text
  | none => some "none"

/-- The id of a document, if it is a text that is not blank. -/
def id? (root : Value) : Option String :=
  ((root.member? "id").bind Value.string?).filter hasInk

/-- The definitions of a document, if there are any. -/
def defs? (root : Value) : Option (List (String × Value)) :=
  match root.member? "defs" with
  | some (.object members) => if members.isEmpty then none else some members
  | _ => none

/-- The document in a JSON text. -/
def parse (text : String) : Except Error Document := do
  let root ← (Json.parse text).mapError (malformed text)
  match wrongVersion? root with
  | some found => .error (.unsupportedVersion found (keySpan? text "lexicon"))
  | none =>
    match id? root with
    | none => .error (.missingId (keySpan? text "id"))
    | some id =>
      match defs? root with
      | none => .error (.missingDefs (keySpan? text "defs"))
      | some defs =>
        .ok ⟨id, (root.member? "description").bind Value.string?, Ordered.ofList defs, text⟩

/-- A document is read exactly if it has the supported version, an id and definitions. -/
theorem parse_eq_ok_iff {text : String} {doc : Document} : parse text = .ok doc ↔
    ∃ root id defs, Json.parse text = .ok root ∧ wrongVersion? root = none ∧
      id? root = some id ∧ defs? root = some defs ∧
      doc = ⟨id, (root.member? "description").bind Value.string?, Ordered.ofList defs, text⟩ := by
  constructor
  · intro h
    unfold parse at h
    cases hroot : Json.parse text with
    | error fault =>
      rw [hroot] at h
      cases h
    | ok root =>
      rw [hroot] at h
      dsimp only [Except.mapError, bind, Except.bind] at h
      split at h
      · cases h
      next hversion =>
      split at h
      · cases h
      next id hid =>
      split at h
      · cases h
      next defs hdefs =>
      cases h
      exact ⟨root, id, defs, rfl, hversion, hid, hdefs, rfl⟩
  · rintro ⟨root, id, defs, hroot, hversion, hid, hdefs, rfl⟩
    unfold parse
    rw [hroot]
    dsimp only [Except.mapError, bind, Except.bind]
    rw [hversion, hid, hdefs]

/-- What reading a text that is not UTF-8 fails with. -/
def notUtf8 : String := "stream did not contain valid UTF-8"

/-- The document in a JSON text given by its bytes. -/
def ofBytes (bytes : ByteArray) : Except Error Document :=
  match String.fromUTF8? bytes with
  | none => .error (.unreadableInput notUtf8)
  | some text => parse text

/-- The entity that a document describes. -/
def entity (d : Document) : String := Name.entityOf d.id

end Document

end Lexgen.Lexicon
