/-
# Reading TOML text

A text is a list of lines: settings, headers of tables and headers of list items, with blank
lines and comments between them. A setting belongs to the table of the last header before it.

Key definitions: `readKey`, `readValue`, `Line`, `readLines`, `assemble`, `parse`.
-/
import Lexgen.Toml.Scalar
import Lexgen.Toml.StringReader
import Lexgen.Toml.Table

namespace Lexgen.Toml

/-! ### Between the words -/

/-- The text behind a gap. -/
def skipGap (cs : List Char) : List Char := cs.dropWhile isGap

/-- The text behind a comment, if it starts with one. -/
def skipComment : List Char → List Char
  | '#' :: rest => rest.dropWhile isVisible
  | cs => cs

/-- The text behind gaps, comments and line ends; `fuel` is at least the number of characters
left. -/
def skipFillerFrom : Nat → List Char → List Char
  | 0, cs => cs
  | fuel + 1, cs =>
    match lineEnd? (skipComment (skipGap cs)) with
    | some rest => skipFillerFrom fuel rest
    | none => skipComment (skipGap cs)

/-- The text behind gaps, comments and line ends. -/
def skipFiller (cs : List Char) : List Char := skipFillerFrom cs.length cs

/-! ### Keys -/

/-- Whether a character may stand in a name without quotes. -/
def isBareChar (c : Char) : Bool := c.isAlphanum || c == '-' || c == '_'

/-- One name of a key. -/
def readName (cs : List Char) : Option (String × List Char) :=
  match cs.takeWhile isBareChar with
  | [] => readLineString cs
  | name => some (String.ofList name, cs.dropWhile isBareChar)

/-- The names of a key up to what follows it, fewer than `fuel` many. -/
def readKeyFrom : Nat → List Char → Option (Key × List Char)
  | 0, _ => none
  | fuel + 1, cs => do
    let (name, rest) ← readName (skipGap cs)
    match skipGap rest with
    | '.' :: rest => do
      let (key, rest) ← readKeyFrom fuel rest
      some (⟨name :: key.parents, key.name⟩, rest)
    | rest => some (⟨[], name⟩, rest)

/-- The largest number of names in a key, and the deepest nesting of lists and tables. -/
def maxDepth : Nat := 80

/-- A key with the gaps around it. -/
def readKey (cs : List Char) : Option (Key × List Char) := readKeyFrom maxDepth cs

/-! ### Values -/

/-- A setting, with what `skip` skips on both sides of its equals sign. -/
def readSetting (skip : List Char → List Char) (value : List Char → Option (Value × List Char))
    (cs : List Char) : Option ((Key × Value) × List Char) := do
  let (key, rest) ← readKey cs
  match skip rest with
  | '=' :: rest => do
    let (v, rest) ← value (skip rest)
    some ((key, v), rest)
  | _ => none

/-- The items up to a closing mark, with commas between them and perhaps one behind them; `fuel` is
more than the number of characters left. -/
def readItems {α : Type} (close : Char) (item : List Char → Option (α × List Char)) :
    Nat → List Char → Option (List α × List Char)
  | 0, _ => none
  | fuel + 1, cs =>
    match skipFiller cs with
    | [] => none
    | c :: rest =>
      if c = close then some ([], rest)
      else do
        let (x, rest) ← item (c :: rest)
        match skipFiller rest with
        | [] => none
        | c :: rest =>
          if c = close then some ([x], rest)
          else if c = ',' then do
            let (xs, rest) ← readItems close item fuel rest
            some (x :: xs, rest)
          else none

/-- A value that holds no other values. -/
def readSimple (cs : List Char) : Option (Value × List Char) :=
  match readString cs with
  | some (text, rest) => some (.string text, rest)
  | none => readScalar cs

/-- A value, in which lists and tables nest at most `depth` deep. -/
def readValue : Nat → List Char → Option (Value × List Char)
  | 0, cs => readSimple cs
  | depth + 1, cs =>
    match cs with
    | '[' :: rest => do
      let (items, rest) ← readItems ']' (readValue depth) (rest.length + 1) rest
      some (.array items, rest)
    | '{' :: rest => do
      let setting := readSetting skipFiller (readValue depth)
      let (settings, rest) ← readItems '}' setting (rest.length + 1) rest
      let entries ← tableOf settings
      some (.table entries, rest)
    | cs => readSimple cs

/-! ### Lines -/

/-- A line that says something. -/
inductive Line where
  | setting (key : Key) (value : Value)
  /-- The header of a table. -/
  | table (key : Key)
  /-- The header of a list item. -/
  | item (key : Key)

/-- A line from its first word on. -/
def readLine (cs : List Char) : Option (Line × List Char) :=
  match cs with
  | '[' :: '[' :: rest => do
    let (key, rest) ← readKey rest
    match rest with
    | ']' :: ']' :: rest => some (.item key, rest)
    | _ => none
  | '[' :: rest => do
    let (key, rest) ← readKey rest
    match rest with
    | ']' :: rest => some (.table key, rest)
    | _ => none
  | cs => do
    let ((key, v), rest) ← readSetting skipGap (readValue maxDepth) cs
    some (.setting key v, rest)

/-- All lines that say something; `fuel` is more than the number of characters left. -/
def readLines : Nat → List Char → Option (List Line)
  | 0, _ => none
  | fuel + 1, cs =>
    match skipFiller cs with
    | [] => some []
    | cs => do
      let (line, rest) ← readLine cs
      match skipComment (skipGap rest) with
      | [] => some [line]
      | rest => do
        let rest ← lineEnd? rest
        let lines ← readLines fuel rest
        some (line :: lines)

/-- Add lines to a table, the settings to the part of it at `place`. -/
def assemble : List String → List (String × Node) → List Line → Option (List (String × Node))
  | _, entries, [] => some entries
  | place, entries, .setting key v :: lines => do
    assemble place (← within place (put key.parents key.name v) entries) lines
  | _, entries, .table key :: lines => do
    assemble key.path (← openTable key entries) lines
  | _, entries, .item key :: lines => do
    assemble key.path (← openItem key entries) lines

/-- The text behind a byte order mark, if it starts with one. -/
def dropMark : List Char → List Char
  | '\uFEFF' :: rest => rest
  | cs => cs

/-- The table that a text holds. -/
def parse (text : String) : Option Table := do
  let cs := dropMark text.toList
  let lines ← readLines (cs.length + 1) cs
  let entries ← assemble [] [] lines
  some (finish entries)

end Lexgen.Toml
