/-
# Reading JSON text

A text holds one value between blanks. Lists and objects nest at most 127 deep. A key that is
written twice in an object keeps its first place and its last value.

Key definitions: `readString`, `readValue`, `parse`.
-/
import Lexgen.Json.NumberReader
import Lexgen.Text.Hex
import Lexgen.Data.Entries

namespace Lexgen.Json

open Lexgen.Data Lexgen.Text

/-- The four blank characters of JSON. -/
def isSpace (c : Char) : Bool := c == ' ' || c == '\t' || c == '\n' || c == '\r'

/-- The text from its first character that is not blank. -/
def skipSpace (cs : List Char) : List Char := cs.dropWhile isSpace

/-! ### Strings -/

/-- The number of four hexadecimal digits at the front of a text. It is a fault if the text has
fewer than four bytes. -/
def readHex (cs : List Char) : Except Fault (Nat × List Char) :=
  match cs with
  | a :: b :: c :: d :: rest =>
    match hexNumber? [a, b, c, d] with
    | some n => .ok (n, rest)
    | none => .error ⟨.badEscape, cs, 4⟩
  | short =>
    if Text.byteSize short < 4 then .error ⟨.endInString, [], 0⟩ else .error ⟨.badEscape, cs, 4⟩

/-- The character of an escape by number, after its `u`. Beyond the first 65536 code points an
escape consists of two. -/
def readUnicode (cs : List Char) : Except Fault (Char × List Char) := do
  let (high, rest) ← readHex cs
  if 0xDC00 ≤ high ∧ high ≤ 0xDFFF then .error ⟨.loneSurrogate, rest, 0⟩
  else if high < 0xD800 ∨ 0xDBFF < high then .ok (Char.ofNat high, rest)
  else match rest with
    | [] => .error ⟨.endInString, [], 0⟩
    | '\\' :: [] => .error ⟨.endInString, [], 0⟩
    | '\\' :: 'u' :: rest =>
      let (low, rest) ← readHex rest
      if low < 0xDC00 ∨ 0xDFFF < low then .error ⟨.loneSurrogate, rest, 0⟩
      else .ok (Char.ofNat ((high - 0xD800) * 0x400 + (low - 0xDC00) + 0x10000), rest)
    | '\\' :: rest => .error ⟨.brokenPair, rest, 1⟩
    | rest => .error ⟨.brokenPair, rest, 1⟩

/-- The character of an escape, after its backslash. -/
def readEscape : List Char → Except Fault (Char × List Char)
  | [] => .error ⟨.endInString, [], 0⟩
  | c :: rest =>
    match c with
    | '"' | '\\' | '/' => .ok (c, rest)
    | 'b' => .ok ('\x08', rest)
    | 'f' => .ok ('\x0c', rest)
    | 'n' => .ok ('\n', rest)
    | 'r' => .ok ('\r', rest)
    | 't' => .ok ('\t', rest)
    | 'u' => readUnicode rest
    | _ => .error ⟨.badEscape, c :: rest, 1⟩

/-- The characters of a string after its opening quote, `fuel` being at least their number. -/
def stringBody : Nat → List Char → Except Fault (List Char × List Char)
  | 0, rest => .error ⟨.endInString, rest, 0⟩
  | fuel + 1, cs =>
    match cs with
    | [] => .error ⟨.endInString, [], 0⟩
    | '"' :: rest => .ok ([], rest)
    | '\\' :: rest => do
      let (c, rest) ← readEscape rest
      let (body, rest) ← stringBody fuel rest
      .ok (c :: body, rest)
    | c :: rest =>
      if c.toNat < 0x20 then .error ⟨.controlCharacter, cs, 1⟩
      else do
        let (body, rest) ← stringBody fuel rest
        .ok (c :: body, rest)

/-- A string after its opening quote. -/
def readString (cs : List Char) : Except Fault (String × List Char) := do
  let (body, rest) ← stringBody (cs.length + 1) cs
  .ok (String.ofList body, rest)

/-! ### Values -/

/-- The rest of a word of which the first letter has been read. -/
def readWord (v : Value) : List Char → List Char → Except Fault (Value × List Char)
  | [], rest => .ok (v, rest)
  | _ :: _, [] => .error ⟨.endInValue, [], 0⟩
  | e :: word, c :: rest =>
    if c = e then readWord v word rest else .error ⟨.noWord, c :: rest, 1⟩

/-- The items of a list from the one that starts here, `fuel` being at least the number of
characters left. -/
def readItems (item : List Char → Except Fault (Value × List Char)) :
    Nat → List Char → Except Fault (List Value × List Char)
  | 0, rest => .error ⟨.endInList, rest, 1⟩
  | fuel + 1, cs => do
    let (v, rest) ← item cs
    match skipSpace rest with
    | [] => .error ⟨.endInList, [], 1⟩
    | ']' :: rest => .ok ([v], rest)
    | ',' :: rest =>
      match skipSpace rest with
      | [] => .error ⟨.endInValue, [], 1⟩
      | ']' :: rest => .error ⟨.trailingComma, ']' :: rest, 1⟩
      | rest => do
        let (vs, rest) ← readItems item fuel rest
        .ok (v :: vs, rest)
    | rest => .error ⟨.noListEnd, rest, 1⟩

/-- A list after its opening bracket. -/
def readList (item : List Char → Except Fault (Value × List Char)) (cs : List Char) :
    Except Fault (Value × List Char) :=
  match skipSpace cs with
  | [] => .error ⟨.endInList, [], 1⟩
  | ']' :: rest => .ok (.array [], rest)
  | rest => do
    let (vs, rest) ← readItems item rest.length rest
    .ok (.array vs, rest)

/-- The colon between a key and its value. -/
def readColon (cs : List Char) : Except Fault (Unit × List Char) :=
  match skipSpace cs with
  | [] => .error ⟨.endInObject, [], 1⟩
  | ':' :: rest => .ok ((), rest)
  | rest => .error ⟨.noColon, rest, 1⟩

/-- The members of an object from the opening quote of a key on, after those in `members`; `fuel` is
at least the number of characters left. -/
def readMembers (item : List Char → Except Fault (Value × List Char)) :
    Nat → List (String × Value) → List Char → Except Fault ((List (String × Value)) × List Char)
  | 0, _, rest => .error ⟨.endInObject, rest, 1⟩
  | fuel + 1, members, cs =>
    match cs with
    | '"' :: rest => do
      let (key, rest) ← readString rest
      let (_, rest) ← readColon rest
      let (v, rest) ← item rest
      let members := putEntry key v members
      match skipSpace rest with
      | [] => .error ⟨.endInObject, [], 1⟩
      | '}' :: rest => .ok (members, rest)
      | ',' :: rest =>
        match skipSpace rest with
        | [] => .error ⟨.endInValue, [], 1⟩
        | '}' :: rest => .error ⟨.trailingComma, '}' :: rest, 1⟩
        | rest => readMembers item fuel members rest
      | rest => .error ⟨.noObjectEnd, rest, 1⟩
    | rest => .error ⟨.noKey, rest, 1⟩

/-- An object after its opening brace. -/
def readObject (item : List Char → Except Fault (Value × List Char)) (cs : List Char) :
    Except Fault (Value × List Char) :=
  match skipSpace cs with
  | [] => .error ⟨.endInObject, [], 1⟩
  | '}' :: rest => .ok (.object [], rest)
  | rest => do
    let (members, rest) ← readMembers item rest.length [] rest
    .ok (.object members, rest)

/-- A value that is neither a list nor an object, from its first character on. -/
def readScalar (cs : List Char) : Except Fault (Value × List Char) :=
  match cs with
  | [] => .error ⟨.endInValue, [], 1⟩
  | 'n' :: rest => readWord .null ['u', 'l', 'l'] rest
  | 't' :: rest => readWord (.bool true) ['r', 'u', 'e'] rest
  | 'f' :: rest => readWord (.bool false) ['a', 'l', 's', 'e'] rest
  | '"' :: rest => do
    let (s, rest) ← readString rest
    .ok (.string s, rest)
  | c :: _ =>
    if c = '-' ∨ c.isDigit then do
      let (n, rest) ← readNumber cs
      .ok (.number n, rest)
    else .error ⟨.noValue, cs, 1⟩

/-- A value after blanks, in which lists and objects nest at most `depth` deep. -/
def readValue : Nat → List Char → Except Fault (Value × List Char)
  | 0, cs =>
    match skipSpace cs with
    | '[' :: rest => .error ⟨.tooDeep, '[' :: rest, 1⟩
    | '{' :: rest => .error ⟨.tooDeep, '{' :: rest, 1⟩
    | rest => readScalar rest
  | depth + 1, cs =>
    match skipSpace cs with
    | '[' :: rest => readList (readValue depth) rest
    | '{' :: rest => readObject (readValue depth) rest
    | rest => readScalar rest

/-- The deepest nesting of lists and objects. -/
def maxDepth : Nat := 127

/-- The value that a text holds. -/
def parse (text : String) : Except Fault Value := do
  let (v, rest) ← readValue maxDepth text.toList
  match skipSpace rest with
  | [] => .ok v
  | rest => .error ⟨.trailingText, rest, 1⟩

end Lexgen.Json
