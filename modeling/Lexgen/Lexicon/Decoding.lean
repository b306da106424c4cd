/-
# Reading structures from JSON

A structure is read from an object, whose members are visited in their order and whose unknown
members are passed over, or from a list that holds the fields in the order of their declaration. The
first member that does not fit decides the error.

Key definitions: `Mismatch`, `Mismatch.message`, `Layout`, `Layout.read`.
-/
import Lexgen.Json.Printer
import Lexgen.Text.Quoted

namespace Lexgen.Lexicon

open Lexgen.Json Lexgen.Text

/-! ### What does not fit -/

/-- What a value is expected to be. -/
inductive Expected where
  | string
  | sequence
  | map
  | unsigned
  | double
  | struct (name : String)
deriving DecidableEq, Repr

/-- The wording of an expectation. -/
def Expected.text : Expected → String
  | .string => "a string"
  | .sequence => "a sequence"
  | .map => "a map"
  | .unsigned => "u64"
  | .double => "f64"
  | .struct name => "struct " ++ name

/-- What a value is, as messages name it. -/
def describe : Value → String
  | .null => "null"
  | .bool b => "boolean `" ++ (if b then "true" else "false") ++ "`"
  | .number (.integer n) => "integer `" ++ toString n ++ "`"
  | .number (.double bits) => "floating point `" ++ doubleText bits ++ "`"
  | .string s => "string " ++ quoted s
  | .array _ => "sequence"
  | .object _ => "map"

/-- Why a value does not fit. -/
inductive Mismatch where
  /-- The value is of another kind. -/
  | wrongType (got : String) (want : Expected)
  /-- An integer is below zero. -/
  | negative (n : Int)
  /-- A field is missing in an object. -/
  | missingField (name : String)
  /-- A list ends before a field that has no default. -/
  | tooShort (length : Nat) (struct : String) (fields : Nat)
  /-- A list has more elements than there are fields. -/
  | tooLong (length : Nat)
deriving DecidableEq, Repr

/-- The wording of a mismatch. -/
def Mismatch.message : Mismatch → String
  | wrongType got want => "invalid type: " ++ got ++ ", expected " ++ want.text
  | negative n => "invalid value: integer `" ++ toString n ++ "`, expected u64"
  | missingField name => "missing field `" ++ name ++ "`"
  | tooShort length struct fields =>
    "invalid length " ++ toString length ++ ", expected struct " ++ struct ++ " with " ++
      toString fields ++ " elements"
  | tooLong length =>
    "invalid length " ++ toString length ++ ", expected fewer elements in array"

/-- The mismatch of a value of the wrong kind. -/
def mismatch {α : Type} (v : Value) (want : Expected) : Except Mismatch α :=
  .error (.wrongType (describe v) want)

/-! ### Plain values -/

/-- A text. -/
def readText : Value → Except Mismatch String
  | .string s => .ok s
  | v => mismatch v .string

/-- Anything but `null`, which stands for a missing value. -/
def readOptional {α : Type} (read : Value → Except Mismatch α) : Value → Except Mismatch (Option α)
  | .null => .ok none
  | v => some <$> read v

/-- A list. -/
def readSequence {α : Type} (read : Value → Except Mismatch α) :
    Value → Except Mismatch (List α)
  | .array items => items.mapM read
  | v => mismatch v .sequence

/-- A number without sign. -/
def readUnsigned : Value → Except Mismatch Nat
  | .number (.integer n) => if n < 0 then .error (.negative n) else .ok n.toNat
  | v => mismatch v .unsigned

/-- The double nearest to an integer. -/
def doubleOfInt (n : Int) : Float :=
  let f := n.natAbs.toUInt64.toFloat
  if n < 0 then -f else f

/-- The bits of a double. Integers are rounded. -/
def readDouble : Value → Except Mismatch UInt64
  | .number (.integer n) => .ok (doubleOfInt n).toBits
  | .number (.double bits) => .ok bits
  | v => mismatch v .double

/-! ### Structures -/

/-- A field of a structure: whether a list may end before it. -/
structure FieldSlot where
  name : String
  hasDefault : Bool := false
deriving DecidableEq, Repr

/-- What a list that ends before the given fields, the first of which has the index, lacks. -/
def lacking? (struct : String) (count : Nat) : Nat → List FieldSlot → Option Mismatch
  | _, [] => none
  | i, slot :: slots =>
    if slot.hasDefault then lacking? struct count (i + 1) slots
    else some (.tooShort i struct count)

/-- How a structure is read: its fields in order, and how one field is read into what has been read
so far. -/
structure Layout (α : Type) where
  struct : String
  slots : List FieldSlot
  start : α
  readField : α → String → Value → Except Mismatch α

namespace Layout

variable {α : Type}

/-- Read the members of an object into a structure. -/
def readMembers (l : Layout α) (members : List (String × Value)) : Except Mismatch α :=
  members.foldlM (fun a m => l.readField a m.1 m.2) l.start

/-- Read the elements of a list into the fields from the given index on. -/
def readPositions (l : Layout α) (total : Nat) :
    Nat → α → List FieldSlot → List Value → Except Mismatch α
  | i, a, slots, [] =>
    match lacking? l.struct l.slots.length i slots with
    | some e => .error e
    | none => .ok a
  | _, _, [], _ :: _ => .error (.tooLong total)
  | i, a, slot :: slots, v :: vs => do
    l.readPositions total (i + 1) (← l.readField a slot.name v) slots vs

/-- Read a structure from an object or a list. -/
def read (l : Layout α) : Value → Except Mismatch α
  | .object members => l.readMembers members
  | .array items => l.readPositions items.length 0 l.start l.slots items
  | v => mismatch v (.struct l.struct)

end Layout

end Lexgen.Lexicon
