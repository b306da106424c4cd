/-
# Types of values without structure

A schema without properties, items and references has the type of its keyword, unless it fixes the
value by a literal, or for texts and numbers lists the possible literals.

Key definitions: `keywordType`, `literalType?`, `leafType`.
-/
import Lexgen.Lexicon.Schema
import Lexgen.Json.Printer
import Lexgen.TypeScript.Declaration

namespace Lexgen.Types

open Lexgen.Lexicon Lexgen.TypeScript Lexgen.Json

/-- The type of values of which nothing is known. -/
def anyType : String := "any"

/-- The type of a keyword. -/
def keywordType : Keyword → String
  | .string | .token => "string"
  | .integer | .number => "number"
  | .boolean => "boolean"
  | .null => "null"
  | .bytes => "Uint8Array"
  | .cidLink => "\x7b $link: string \x7d"
  | .object | .params => "Record<string, any>"
  | .array => "any[]"
  | .blob | .unknown | .ref | .union | .other _ => anyType

/-- The literal type of a text, a number or a truth value. -/
def literalType? : Value → Option String
  | .string s => some (stringLiteral s)
  | .number n => some n.text
  | .bool b => some (if b then "true" else "false")
  | _ => none

/-- Whether the possible literals of a schema with this keyword make up its type. -/
def listsLiterals (k : Keyword) : Bool := k == .string || k == .integer || k == .number

/-- The type of a schema without structure. -/
def leafType (f : Facets) : String :=
  match f.keyword with
  | none => anyType
  | some k =>
    match f.const.bind literalType? with
    | some literal => literal
    | none =>
      if !f.literals.isEmpty && listsLiterals k then
        (Union.ofTypes (f.literals.filterMap literalType?)).textOr (keywordType k)
      else keywordType k

end Lexgen.Types
