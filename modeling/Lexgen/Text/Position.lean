/-
# Places in a text

Offsets count UTF-8 bytes. The place after some bytes has a line, counted from one, and a
column, the number of bytes since the last line feed, which is zero right after a line feed.
`offsetOf` goes back from a place to the byte in front of it.

Key definitions: `byteSize`, `Place`, `placeAfter`, `offsetOf`.
-/
namespace Lexgen.Text

/-- The number of UTF-8 bytes of some characters. -/
def byteSize : List Char → Nat
  | [] => 0
  | c :: cs => c.utf8Size + byteSize cs

@[simp] theorem byteSize_nil : byteSize [] = 0 := rfl

@[simp] theorem byteSize_cons (c : Char) (cs : List Char) :
    byteSize (c :: cs) = c.utf8Size + byteSize cs := rfl

@[simp] theorem byteSize_append : ∀ a b : List Char, byteSize (a ++ b) = byteSize a + byteSize b
  | [], b => (Nat.zero_add _).symm
  | c :: a, b => by
    rw [List.cons_append, byteSize, byteSize, byteSize_append a b, Nat.add_assoc]

theorem byteSize_le_of_suffix {a b : List Char} (h : a <:+ b) : byteSize a ≤ byteSize b := by
  obtain ⟨front, rfl⟩ := h
  rw [byteSize_append]
  omega

theorem byteSize_le_of_prefix {a b : List Char} (h : a <+: b) : byteSize a ≤ byteSize b := by
  obtain ⟨rest, rfl⟩ := h
  rw [byteSize_append]
  omega

/-- Every character has bytes. -/
theorem byteSize_eq_zero_iff {cs : List Char} : byteSize cs = 0 ↔ cs = [] := by
  cases cs with
  | nil => simp
  | cons c cs =>
    have := c.utf8Size_pos
    simp only [byteSize_cons, List.cons_ne_nil, iff_false]
    omega

/-- The same text has one front with a given number of bytes. -/
theorem eq_of_byteSize_eq {a b c d : List Char} (h : a ++ b = c ++ d)
    (hsize : byteSize a = byteSize c) : a = c ∧ b = d := by
  rcases List.append_eq_append_iff.mp h with ⟨more, rfl, rfl⟩ | ⟨more, rfl, rfl⟩
  · have hmore : more = [] := byteSize_eq_zero_iff.mp (by rw [byteSize_append] at hsize; omega)
    simp [hmore]
  · have hmore : more = [] := byteSize_eq_zero_iff.mp (by rw [byteSize_append] at hsize; omega)
    simp [hmore]

/-- A line counted from one and a number of bytes on it. -/
structure Place where
  line : Nat
  column : Nat
deriving DecidableEq, Repr

/-- The place that some more bytes of a text lead to. A character whose first byte is among them
counts with those of its bytes that are. -/
def advance (place : Place) : Nat → List Char → Place
  | 0, _ => place
  | _ + 1, [] => place
  | n + 1, c :: cs =>
    if c = '\n' then advance ⟨place.line + 1, 0⟩ n cs
    else advance ⟨place.line, place.column + min c.utf8Size (n + 1)⟩ (n + 1 - c.utf8Size) cs
  termination_by _ cs => cs.length

/-- The place after the first bytes of a text. -/
def placeAfter (text : String) (bytes : Nat) : Place :=
  advance ⟨1, 0⟩ bytes text.toList

/-! ### Back to offsets -/

/-- The lines of a text together with their line feeds; the last may have none, and no line follows
the last line feed. -/
def fullLines : List Char → List (List Char)
  | [] => []
  | c :: cs =>
    if c = '\n' then [c] :: fullLines cs
    else match fullLines cs with
      | [] => [[c]]
      | line :: rest => (c :: line) :: rest

/-- The offset of the byte in front of a place, at most the size of the text. -/
def offsetOf (text : String) (place : Place) : Nat :=
  let start := byteSize ((fullLines text.toList).take (place.line - 1)).flatten
  min (start + (place.column - 1)) (byteSize text.toList)

end Lexgen.Text
