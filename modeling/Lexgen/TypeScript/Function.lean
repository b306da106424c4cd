/-
# Exported functions

Key definitions: `Param`, `Function`, `Function.signature`.
-/
import Lexgen.TypeScript.Doc

namespace Lexgen.TypeScript

open Lexgen.Code

/-- A parameter of a function. -/
structure Param where
  name : String
  type : String
  optional : Bool := false
deriving DecidableEq, Repr

/-- The parameter as it stands in the signature. -/
def Param.text (p : Param) : String :=
  p.name ++ (if p.optional then "?" else "") ++ ": " ++ p.type

/-- An exported function. -/
structure Function where
  name : String
  doc : Option String := none
  isAsync : Bool := false
  params : List Param := []
  result : Option String := none
  body : List Fragment := []
deriving BEq, Repr

namespace Function

/-- The opening line of a function. -/
def signature (f : Function) : String :=
  "export " ++ (if f.isAsync then "async " else "") ++ "function " ++ f.name ++ "(" ++
    ", ".intercalate (f.params.map Param.text) ++ ")" ++
    (match f.result with
    | some type => ": " ++ type
    | none => "") ++ " \x7b"

/-- The fragments of a function. -/
def fragments (f : Function) : List Fragment :=
  docFragments f.doc ++ [.block f.signature f.body (some "\x7d")]

end Function

end Lexgen.TypeScript
