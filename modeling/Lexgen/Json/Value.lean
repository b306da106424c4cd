/-
# JSON values

A number is an integer or a double, the double given by its 64 bits. The members of an object keep
the order in which they were written.

Key definitions: `Number`, `Value`, `Value.member?`.
-/
namespace Lexgen.Json

/-- A number: an integer that fits 64 bits, or a double. -/
inductive Number where
  | integer (value : Int)
  | double (bits : UInt64)
deriving DecidableEq, Repr

/-- A JSON value. -/
inductive Value where
  | null
  | bool (b : Bool)
  | number (n : Number)
  | string (s : String)
  | array (items : List Value)
  | object (members : List (String × Value))
deriving BEq, Repr, Inhabited

namespace Value

/-- The member of an object under a name. -/
def member? (v : Value) (name : String) : Option Value :=
  match v with
  | .object members => members.lookup name
  | _ => none

/-- The text of a string value. -/
def string? : Value → Option String
  | .string s => some s
  | _ => none

end Value

end Lexgen.Json
