/-
# Why a lexicon is refused

Every way in which reading a lexicon or emitting its modules can fail, with its wording, its
diagnostic code, a hint where there is one, and a label that points at the offending bytes where
they are known.

Key definitions: `Error`, `Error.message`, `Error.code`, `Error.help?`, `Error.label?`.
-/
namespace Lexgen.Lexicon

/-- A range of bytes of the source text. -/
structure Span where
  offset : Nat
  length : Nat
deriving DecidableEq, Repr

/-- A labelled range of the source text. -/
structure Label where
  text : String
  span : Span
deriving DecidableEq, Repr

/-- A reason to refuse a lexicon. -/
inductive Error where
  /-- A lexicon file cannot be read. -/
  | unreadableFile (path cause : String)
  /-- The input cannot be read. -/
  | unreadableInput (cause : String)
  /-- The text is not JSON; the problem stands at the offset. -/
  | malformed (problem : String) (offset : Nat)
  /-- The version of the document is not the supported one. -/
  | unsupportedVersion (found : String) (span : Option Span)
  /-- The id is missing, blank or no string. -/
  | missingId (span : Option Span)
  /-- The definitions are missing, empty or no object. -/
  | missingDefs (span : Option Span)
  /-- A definition is not what its type asks for. -/
  | invalidDefinition (name reason : String) (span : Option Span)
  /-- No definition can be the primary one. -/
  | noPrimary (id : String)
  /-- The primary definition is not a record. -/
  | notARecord (id kind : String)
  /-- The primary record has no schema. -/
  | missingRecordSchema (id : String)
  /-- A local reference names no definition. -/
  | unresolvedRef (reference location : String)
  /-- Two declarations have the same name. -/
  | duplicateType (id name : String)
  /-- No definition declares a type. -/
  | noTypes (id : String)
deriving DecidableEq, Repr

namespace Error

/-- The wording of an error. -/
def message : Error → String
  | unreadableFile path _ => "failed to read '" ++ path ++ "'"
  | unreadableInput _ => "failed to read lexicon input"
  | malformed _ _ => "malformed lexicon JSON"
  | unsupportedVersion found _ => "unsupported lexicon version: " ++ found ++ " (expected 1)"
  | missingId _ => "missing required field: id"
  | missingDefs _ => "missing or empty required field: defs"
  | invalidDefinition name reason _ => "invalid definition '" ++ name ++ "': " ++ reason
  | noPrimary id => "no primary definition found in '" ++ id ++ "'"
  | notARecord id kind => "primary definition of '" ++ id ++ "' is a " ++ kind ++ ", not a record"
  | missingRecordSchema id => "record definition of '" ++ id ++ "' has no record schema"
  | unresolvedRef reference location =>
    "unresolvable reference '" ++ reference ++ "' in '" ++ location ++ "'"
  | duplicateType id name =>
    "lexicon '" ++ id ++ "' declares the type '" ++ name ++ "' more than once"
  | noTypes id => "lexicon '" ++ id ++ "' yields no emittable type declarations"

/-- The diagnostic code of an error. -/
def code (e : Error) : String :=
  "pac::lexicon::" ++ match e with
    | unreadableFile .. | unreadableInput .. => "read_failed"
    | malformed .. => "malformed_json"
    | unsupportedVersion .. => "unsupported_version"
    | missingId .. => "missing_id"
    | missingDefs .. => "missing_defs"
    | invalidDefinition .. => "invalid_definition"
    | noPrimary .. => "no_primary_definition"
    | notARecord .. => "not_a_record"
    | missingRecordSchema .. => "missing_record_schema"
    | unresolvedRef .. => "unresolved_ref"
    | duplicateType .. => "duplicate_type_name"
    | noTypes .. => "no_emittable_type"

/-- A hint at what to do about an error. -/
def help? : Error → Option String
  | malformed .. => some "check that the lexicon file is valid JSON"
  | unsupportedVersion .. =>
    some "only lexicon documents declaring `\"lexicon\": 1` are supported"
  | missingId .. =>
    some "add a non-empty dotted identifier, e.g. `\"id\": \"com.example.note\"`"
  | missingDefs .. => some "a lexicon needs at least one definition, usually `main`"
  | noPrimary .. =>
    some "add a `main` definition or a single record, query, procedure or subscription"
  | notARecord .. => some "client helpers can only be generated for record lexicons"
  | missingRecordSchema .. => some "add a `record` object describing the record's properties"
  | unresolvedRef .. => some "local references must name a definition of the same lexicon"
  | duplicateType .. =>
    some "rename one of the definitions; `main` is named after the last segment of the id"
  | unreadableFile .. | unreadableInput .. | invalidDefinition .. | noTypes .. => none

/-- The part of the source that an error points at. -/
def label? : Error → Option Label
  | malformed problem offset => some ⟨problem, ⟨offset, 0⟩⟩
  | unsupportedVersion _ span => span.map (Label.mk "unsupported version")
  | missingId span => span.map (Label.mk "expected a non-empty string")
  | missingDefs span => span.map (Label.mk "expected a non-empty object")
  | invalidDefinition _ _ span => span.map (Label.mk "defined here")
  | _ => none

/-- The text of the failed read behind an error. -/
def cause? : Error → Option String
  | unreadableFile _ cause => some cause
  | unreadableInput cause => some cause
  | _ => none

end Error

end Lexgen.Lexicon
