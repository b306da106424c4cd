/-
# Upper and lower case

`upperChar` gives the full upper case of one character, which may be several characters, and
`lower` the lower case of a text. Lowering is per character with two exceptions: the dotted
capital I keeps its dot as a mark of its own, and a capital sigma becomes a final sigma at the
end of a word, that is when a cased character comes before it and none after it, skipping the
characters that do not count.

Key definitions: `upperChar`, `lowerChar`, `lower`.
-/
import Lexgen.Text.Casing.Table

namespace Lexgen.Text

/-- Whether a code point lies in one of the intervals. -/
def inIntervals (table : List (Nat × Nat)) (n : Nat) : Bool :=
  table.any fun i => i.1 ≤ n && n ≤ i.2

/-- The image of a code point under a table of runs; a code point in no run is its own image. -/
def mapCode (table : List CaseRange) (n : Nat) : Nat :=
  match table.find? (·.holds n) with
  | some r => r.image n
  | none => n

/-- The full upper case of a character. -/
def upperChar (c : Char) : List Char :=
  match upperExpansions.lookup c.toNat with
  | some codes => codes.map Char.ofNat
  | none => [Char.ofNat (mapCode upperRanges c.toNat)]

/-- The full lower case of a character that stands alone. -/
def lowerChar (c : Char) : List Char :=
  if c = 'İ' then ['i', '\u0307'] else [Char.ofNat (mapCode lowerRanges c.toNat)]

/-! ### Lower case of a text -/

/-- Whether the first character that counts is a cased one. -/
def meetsCased (cs : List Char) : Bool :=
  match cs.dropWhile (fun c => inIntervals caseIgnorableIntervals c.toNat) with
  | [] => false
  | c :: _ => inIntervals casedIntervals c.toNat

/-- Whether a sigma with these neighbours, those before it nearest first, ends a word. -/
def endsWord (before after : List Char) : Bool :=
  meetsCased before && !meetsCased after

/-- The lower case of the rest of a text, of which `before` has been read, nearest first. -/
def lowerFrom : List Char → List Char → List Char
  | _, [] => []
  | before, c :: after =>
    (if c = 'Σ' then [if endsWord before after then 'ς' else 'σ'] else lowerChar c)
      ++ lowerFrom (c :: before) after

/-- The lower case of a text. -/
def lower (s : String) : String :=
  String.ofList (lowerFrom [] s.toList)

end Lexgen.Text
