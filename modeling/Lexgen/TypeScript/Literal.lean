/-
# String literals and property keys

A string literal stands between single quotes. The backslash, the single quote, the line feed and
the carriage return are escaped, every other character stands for itself, so a literal is one line.
A property key is bare if it is an identifier and a string literal otherwise. `decodeLiteral?` reads
a literal back.

Key definitions: `escapeChar`, `stringLiteral`, `propertyKey`, `decodeLiteral?`.
-/
import Lexgen.Name.Casing

namespace Lexgen.TypeScript

open Lexgen.Name

/-- How a character is written inside a string literal. -/
def escapeChar (c : Char) : List Char :=
  match c with
  | '\\' => ['\\', '\\']
  | '\'' => ['\\', '\'']
  | '\n' => ['\\', 'n']
  | '\r' => ['\\', 'r']
  | c => [c]

/-- The string literal of a text. -/
def stringLiteral (s : String) : String :=
  String.ofList ('\'' :: s.toList.flatMap escapeChar ++ ['\''])

/-- A name as a property key. -/
def propertyKey (name : String) : String :=
  if isIdentifier name then name else stringLiteral name

/-! ### Reading a literal back -/

/-- The text of a literal after its opening quote, with what follows the closing quote. -/
def decodeBody? : List Char → Option (List Char × List Char)
  | [] => none
  | '\'' :: rest => some ([], rest)
  | '\\' :: c :: rest =>
    let shown := if c = 'n' then '\n' else if c = 'r' then '\r' else c
    (decodeBody? rest).map fun r => (shown :: r.1, r.2)
  | c :: rest => (decodeBody? rest).map fun r => (c :: r.1, r.2)

/-- The text that a string literal stands for. -/
def decodeLiteral? (literal : String) : Option String :=
  match literal.toList with
  | '\'' :: rest =>
    match decodeBody? rest with
    | some (cs, []) => some (String.ofList cs)
    | _ => none
  | _ => none

end Lexgen.TypeScript
