/-
# Putting TOML tables together

A table takes shape entry by entry, and how it came about decides what may still be added. A
table that a header names is complete with its own lines, although headers may add tables inside
it. A table that only stands on the way to another header may get a header of its own once. A
table made by dotted keys takes more dotted keys but no header. No name is given a value twice.

Key definitions: `Key`, `Origin`, `Node`, `put`, `openTable`, `openItem`, `Node.toValue`.
-/
import Lexgen.Data.Entries
import Lexgen.Toml.Value

namespace Lexgen.Toml

open Lexgen.Data

/-- A key: the tables on the way and the name in the last of them. -/
structure Key where
  parents : List String
  name : String
deriving DecidableEq, Repr

/-- All names of a key. -/
def Key.path (k : Key) : List String := k.parents ++ [k.name]

/-- How a table came about. -/
inductive Origin where
  /-- It has a header. -/
  | header
  /-- It stands on the way to a header. -/
  | implied
  /-- It stands on the way of a dotted key. -/
  | dotted
deriving DecidableEq, Repr

/-- What a name stands for while its table is put together. -/
inductive Node where
  | value (v : Value)
  | table (origin : Origin) (entries : List (String × Node))
  /-- A list of tables with one header each; only the last is still open. -/
  | tables (earlier : List Table) (last : List (String × Node))

mutual

/-- The value of a finished node. -/
def Node.toValue : Node → Value
  | .value v => v
  | .table _ entries => .table (finish entries)
  | .tables earlier last => .array (earlier.map .table ++ [.table (finish last)])

/-- The table of finished entries. -/
def finish : List (String × Node) → Table
  | [] => []
  | (name, n) :: rest => (name, n.toValue) :: finish rest

end

/-- Replace what a name stands for, unless that is refused. -/
def alter (name : String) (f : Option Node → Option Node) (entries : List (String × Node)) :
    Option (List (String × Node)) :=
  (f (entries.lookup name)).map fun n => putEntry name n entries

/-- What a new value makes of a name. -/
def newValue (v : Value) : Option Node → Option Node
  | none => some (.value v)
  | some _ => none

/-- Give the name in the table at the end of a dotted way a value. -/
def put : List String → String → Value → List (String × Node) → Option (List (String × Node))
  | [], name, v, entries => alter name (newValue v) entries
  | p :: ps, name, v, entries => alter p (fun
    | none => (put ps name v []).map (.table .dotted)
    | some (.table origin inner) =>
      if origin = .dotted ∨ (origin = .implied ∧ ps ≠ []) then
        (put ps name v inner).map (.table origin)
      else none
    | some _ => none) entries

/-- Change the table at the end of a way of headers. -/
def within : List String → (List (String × Node) → Option (List (String × Node))) →
    List (String × Node) → Option (List (String × Node))
  | [], f, entries => f entries
  | p :: ps, f, entries => alter p (fun
    | none => (within ps f []).map (.table .implied)
    | some (.table origin inner) => (within ps f inner).map (.table origin)
    | some (.tables earlier last) => (within ps f last).map (.tables earlier)
    | some (.value _) => none) entries

/-- What the header of a table makes of its name. -/
def newTable : Option Node → Option Node
  | none => some (.table .header [])
  | some (.table .implied inner) => some (.table .header inner)
  | some _ => none

/-- What the header of a list item makes of its name. -/
def newItem : Option Node → Option Node
  | none => some (.tables [] [])
  | some (.tables earlier last) => some (.tables (earlier ++ [finish last]) [])
  | some _ => none

/-- Open the table of a header. -/
def openTable (k : Key) (entries : List (String × Node)) : Option (List (String × Node)) :=
  within k.parents (alter k.name newTable) entries

/-- Open the next item of a list of tables. -/
def openItem (k : Key) (entries : List (String × Node)) : Option (List (String × Node)) :=
  within k.parents (alter k.name newItem) entries

/-- The table that some settings make. -/
def tableOf (settings : List (Key × Value)) : Option Table :=
  (settings.foldlM (fun entries s => put s.1.parents s.1.name s.2 entries) []).map finish

end Lexgen.Toml
