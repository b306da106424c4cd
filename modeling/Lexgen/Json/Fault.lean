/-
# Faults in JSON text

A fault says what is wrong and where reading stopped: the characters that were not read yet, and how
many bytes of them were looked at. Its place is computed from the whole text.

Key definitions: `Problem`, `Problem.message`, `Fault`, `Fault.place`, `Fault.message`.
-/
import Lexgen.Text.Position

namespace Lexgen.Json

open Lexgen.Text

/-- What can be wrong with a JSON text. -/
inductive Problem where
  | endInValue
  | endInList
  | endInObject
  | endInString
  | noValue
  | noWord
  | noListEnd
  | noObjectEnd
  | noColon
  | noKey
  | trailingComma
  | trailingText
  | controlCharacter
  | badEscape
  | loneSurrogate
  | brokenPair
  | badNumber
  | numberTooLarge
  | tooDeep
deriving DecidableEq, Repr

/-- The wording of a problem. -/
def Problem.message : Problem → String
  | .endInValue => "EOF while parsing a value"
  | .endInList => "EOF while parsing a list"
  | .endInObject => "EOF while parsing an object"
  | .endInString => "EOF while parsing a string"
  | .noValue => "expected value"
  | .noWord => "expected ident"
  | .noListEnd => "expected `,` or `]`"
  | .noObjectEnd => "expected `,` or `\x7d`"
  | .noColon => "expected `:`"
  | .noKey => "key must be a string"
  | .trailingComma => "trailing comma"
  | .trailingText => "trailing characters"
  | .controlCharacter => "control character (\\u0000-\\u001F) found while parsing a string"
  | .badEscape => "invalid escape"
  | .loneSurrogate => "lone leading surrogate in hex escape"
  | .brokenPair => "unexpected end of hex escape"
  | .badNumber => "invalid number"
  | .numberTooLarge => "number out of range"
  | .tooDeep => "recursion limit exceeded"

/-- A problem and where it was met. -/
structure Fault where
  problem : Problem
  /-- The characters that were not read. -/
  rest : List Char
  /-- The number of their bytes that were looked at. -/
  ahead : Nat := 0
deriving DecidableEq, Repr

namespace Fault

/-- The number of bytes read or looked at, at most the size of the text. -/
def bytes (f : Fault) (text : String) : Nat :=
  let size := byteSize text.toList
  min (size - byteSize f.rest + f.ahead) size

/-- The place of a fault in the text. -/
def place (f : Fault) (text : String) : Place := placeAfter text (f.bytes text)

/-- The message for a fault. -/
def message (f : Fault) (text : String) : String :=
  let p := f.place text
  f.problem.message ++ " at line " ++ toString p.line ++ " column " ++ toString p.column

end Fault

end Lexgen.Json
