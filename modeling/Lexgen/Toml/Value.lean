/-
# TOML values

Texts, lists and tables keep what they hold. A date or time keeps its normal form; a number or a
truth value keeps its spelling.

Key definitions: `Value`, `Table`, `Value.string?`, `Value.entries?`, `Table.strings?`.
-/
namespace Lexgen.Toml

/-- A TOML value. -/
inductive Value where
  | string (text : String)
  /-- A date, a time or both, in normal form. -/
  | moment (text : String)
  /-- A number or a truth value, as it is spelled. -/
  | plain (word : String)
  | array (items : List Value)
  | table (entries : List (String × Value))
deriving Repr, Inhabited

/-- The entries of a table, in the order of the text. -/
abbrev Table := List (String × Value)

/-- The text of a value that is one. -/
def Value.string? : Value → Option String
  | .string text => some text
  | _ => none

/-- The name under which the text of a date or time stands where a table is asked for. -/
def momentName : String := "$__toml_private_datetime"

/-- The entries of a value that is a table, or a date or time taken as one. -/
def Value.entries? : Value → Option Table
  | .table entries => some entries
  | .moment text => some [(momentName, .string text)]
  | _ => none

/-- The entries of a table in which every value is a text. -/
def Table.strings? (entries : Table) : Option (List (String × String)) :=
  entries.mapM fun e => e.2.string?.map (e.1, ·)

end Lexgen.Toml
