/-
# Reading TOML strings

A string stands between single or double quotes, one of them or three of them on each side.
Between double quotes a backslash starts an escape. A string between three quotes may hold line
feeds, and up to two quotes right in front of its end belong to it.

Key definitions: `isVisible`, `readEscape`, `lineString`, `blockString`, `readString`,
`readLineString`.
-/
import Lexgen.Text.Hex

namespace Lexgen.Toml

open Lexgen.Text

/-! ### Characters and line ends -/

/-- Whether a character stands between the words of a line. -/
def isGap (c : Char) : Bool := c == ' ' || c == '\t'

/-- Whether a character may stand in a comment and, if it is no mark, in a string. -/
def isVisible (c : Char) : Bool := c == '\t' || (0x20 ≤ c.toNat && c.toNat != 0x7F)

/-- The text behind the end of a line. -/
def lineEnd? : List Char → Option (List Char)
  | '\n' :: rest => some rest
  | '\r' :: '\n' :: rest => some rest
  | _ => none

/-! ### Escapes -/

/-- The character with the number that the next digits make. -/
def readCode (digits : Nat) (cs : List Char) : Option (Char × List Char) :=
  if digits ≤ cs.length then
    match hexNumber? (cs.take digits) with
    | some n => if n.isValidChar then some (Char.ofNat n, cs.drop digits) else none
    | none => none
  else none

/-- The character of an escape, after its backslash. -/
def readEscape : List Char → Option (Char × List Char)
  | [] => none
  | c :: rest =>
    match c with
    | '"' => some ('"', rest)
    | '\\' => some ('\\', rest)
    | 'b' => some ('\x08', rest)
    | 't' => some ('\t', rest)
    | 'n' => some ('\n', rest)
    | 'f' => some ('\x0c', rest)
    | 'r' => some ('\r', rest)
    | 'e' => some ('\x1b', rest)
    | 'x' => readCode 2 rest
    | 'u' => readCode 4 rest
    | 'U' => readCode 8 rest
    | _ => none

/-- Whether a backslash between these quotes starts an escape. -/
def escapes (quote : Char) : Bool := quote == '"'

/-! ### One line -/

/-- The characters of a string on one line and the text behind its closing quote; `fuel` is more
than the number of characters left. -/
def lineString (quote : Char) : Nat → List Char → Option (List Char × List Char)
  | 0, _ => none
  | _ + 1, [] => none
  | fuel + 1, c :: rest =>
    if c = quote then some ([], rest)
    else if c = '\\' && escapes quote then do
      let (c, rest) ← readEscape rest
      let (body, rest) ← lineString quote fuel rest
      some (c :: body, rest)
    else if isVisible c then do
      let (body, rest) ← lineString quote fuel rest
      some (c :: body, rest)
    else none

/-! ### Several lines -/

/-- The quotes at the end of a string and the text behind the three that close it, if it ends
here. -/
def blockEnd? (quote : Char) (cs : List Char) : Option (List Char × List Char) :=
  let run := (cs.takeWhile (· == quote)).length
  if run < 3 then none
  else
    let own := min (run - 3) 2
    some (List.replicate own quote, cs.drop (3 + own))

/-- The text from its first character that is neither a gap nor a line end; `fuel` is at least the
number of characters left. -/
def skipLines : Nat → List Char → List Char
  | 0, cs => cs
  | fuel + 1, cs =>
    match lineEnd? (cs.dropWhile isGap) with
    | some rest => skipLines fuel rest
    | none => cs.dropWhile isGap

/-- What follows a backslash at the end of a line: the next text, on whatever line it is. -/
def continuation? (cs : List Char) : Option (List Char) :=
  (lineEnd? (cs.dropWhile isGap)).map fun rest => skipLines rest.length rest

/-- The characters of a string between three quotes and the text behind it; `fuel` is more than the
number of characters left. -/
def blockString (quote : Char) : Nat → List Char → Option (List Char × List Char)
  | 0, _ => none
  | _ + 1, [] => none
  | fuel + 1, c :: rest =>
    match blockEnd? quote (c :: rest) with
    | some ending => some ending
    | none =>
      if c = '\\' && escapes quote then
        match continuation? rest with
        | some rest => blockString quote fuel rest
        | none => do
          let (c, rest) ← readEscape rest
          let (body, rest) ← blockString quote fuel rest
          some (c :: body, rest)
      else if isVisible c || (lineEnd? (c :: rest)).isSome then do
        let (body, rest) ← blockString quote fuel rest
        some (c :: body, rest)
      else none

/-! ### Strings -/

/-- A string, `single` if only one quote may stand on each side. -/
def readQuoted (single : Bool) (cs : List Char) : Option (String × List Char) :=
  match cs with
  | [] => none
  | quote :: rest =>
    if quote = '"' ∨ quote = '\'' then
      if [quote, quote].isPrefixOf rest then
        if single then none
        else
          let rest := rest.drop 2
          let rest := (lineEnd? rest).getD rest
          (blockString quote (rest.length + 1) rest).map fun r => (String.ofList r.1, r.2)
      else (lineString quote (rest.length + 1) rest).map fun r => (String.ofList r.1, r.2)
    else none

/-- A string of any form. -/
def readString (cs : List Char) : Option (String × List Char) := readQuoted false cs

/-- A string with one quote on each side, as keys are written. -/
def readLineString (cs : List Char) : Option (String × List Char) := readQuoted true cs

end Lexgen.Toml
