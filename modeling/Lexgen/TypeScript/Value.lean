/-
# Array and object literals, and constants

Array literals separate their elements by commas; object literals end every property with one when
they are written over several lines. A constant is exported with such a literal.

Key definitions: `ArrayLiteral`, `ObjectLiteral`, `Constant`.
-/
import Lexgen.TypeScript.Literal
import Lexgen.Code.Fragment

namespace Lexgen.TypeScript

open Lexgen.Code

/-- An array literal, with the texts of its elements. -/
structure ArrayLiteral where
  elements : List String := []
  asConst : Bool := false
deriving DecidableEq, Repr

/-- Elements as lines, each but the last with a comma. -/
def elementLines : List String → List Fragment
  | [] => []
  | [e] => [.line e]
  | e :: rest => .line (e ++ ",") :: elementLines rest

namespace ArrayLiteral

/-- The literals of several texts. -/
def ofStrings (values : List String) (asConst : Bool := false) : ArrayLiteral :=
  ⟨values.map stringLiteral, asConst⟩

/-- What closes the literal. -/
def close (a : ArrayLiteral) : String := if a.asConst then "] as const" else "]"

/-- The literal on one line. -/
def inline (a : ArrayLiteral) : String := "[" ++ ", ".intercalate a.elements ++ a.close

end ArrayLiteral

/-- An object literal, with the texts of its properties. -/
structure ObjectLiteral where
  properties : List String := []
deriving DecidableEq, Repr

namespace ObjectLiteral

/-- Add a property whose value is a text. -/
def string (o : ObjectLiteral) (key value : String) : ObjectLiteral :=
  ⟨o.properties ++ [propertyKey key ++ ": " ++ stringLiteral value]⟩

/-- Add a property whose value is an expression. -/
def expression (o : ObjectLiteral) (key value : String) : ObjectLiteral :=
  ⟨o.properties ++ [propertyKey key ++ ": " ++ value]⟩

/-- Add the variable of a name under this name. -/
def shorthand (o : ObjectLiteral) (name : String) : ObjectLiteral :=
  ⟨o.properties ++ [name]⟩

/-- The properties as lines. -/
def lines (o : ObjectLiteral) : List Fragment := o.properties.map fun p => .line (p ++ ",")

/-- A call with the object as its only argument. -/
def call (o : ObjectLiteral) (callee ending : String) : Fragment :=
  if o.properties.isEmpty then .line (callee ++ "(\x7b\x7d)" ++ ending)
  else .block (callee ++ "(\x7b") o.lines (some ("\x7d)" ++ ending))

/-- The literal on one line. -/
def inline (o : ObjectLiteral) : String :=
  if o.properties.isEmpty then "\x7b\x7d"
  else "\x7b " ++ ", ".intercalate o.properties ++ " \x7d"

end ObjectLiteral

/-- An exported constant. -/
inductive Constant where
  | array (name : String) (value : ArrayLiteral)
  | object (name : String) (value : ObjectLiteral) (asConst : Bool)
deriving DecidableEq, Repr

/-- The fragments of a constant; an empty literal stays on its line. -/
def Constant.fragments : Constant → List Fragment
  | .array name value =>
    let head := "export const " ++ name ++ " = "
    if value.elements.isEmpty then [.line (head ++ value.inline ++ ";")]
    else [.block (head ++ "[") (elementLines value.elements) (some (value.close ++ ";"))]
  | .object name value asConst =>
    let head := "export const " ++ name ++ " = \x7b"
    let tail := if asConst then "\x7d as const;" else "\x7d;"
    if value.properties.isEmpty then [.line (head ++ tail)]
    else [.block head value.lines (some tail)]

end Lexgen.TypeScript
