/-
# JSON text

Values are written without blanks. In strings the quote, the backslash and the control
characters are escaped and nothing else. A double is written with its shortest digits, as a
plain decimal with at least one digit after the point when the exponent of its leading digit
lies between -5 and 15, and with an exponent otherwise.

Key definitions: `Number.text`, `quote`, `Value.text`.
-/
import Lexgen.Json.Value
import Lexgen.Json.Shortest

namespace Lexgen.Json

/-! ### Numbers -/

/-- The layout of digits whose leading one has the exponent `e`. -/
def layout (digits : String) (e : Int) : String :=
  let ds := digits.toList
  if e < -5 ∨ 15 < e then
    let mantissa := match ds with
      | [] => []
      | [d] => [d]
      | d :: rest => d :: '.' :: rest
    String.ofList mantissa ++ "e" ++ (if e < 0 then "-" else "+") ++ toString e.natAbs
  else if e < 0 then
    "0." ++ String.ofList (List.replicate (e.natAbs - 1) '0') ++ digits
  else
    let whole := e.natAbs + 1
    let front := ds.take whole ++ List.replicate (whole - ds.length) '0'
    let back := ds.drop whole
    String.ofList front ++ "." ++ (if back.isEmpty then "0" else String.ofList back)

/-- The text of a double, given by its bits. -/
def doubleText (bits : UInt64) : String :=
  let sign := if bits.toNat / Nat.pow 2 63 = 1 then "-" else ""
  match Binary.ofBits bits with
  | none => sign ++ "0.0"
  | some b =>
    let d := b.shortest
    let digits := toString d.digits
    sign ++ layout digits (d.exponent + digits.length - 1)

/-- The text of a number. -/
def Number.text : Number → String
  | .integer n => toString n
  | .double bits => doubleText bits

/-! ### Strings and values -/

/-- The two lower case hexadecimal digits of a number below 256. -/
def hexPair (n : Nat) : String :=
  String.ofList [Nat.digitChar (n / 16 % 16), Nat.digitChar (n % 16)]

/-- How a character is written inside a string. -/
def escape (c : Char) : String :=
  match c with
  | '"' => "\\\""
  | '\\' => "\\\\"
  | '\x08' => "\\b"
  | '\t' => "\\t"
  | '\n' => "\\n"
  | '\x0c' => "\\f"
  | '\r' => "\\r"
  | c => if c.toNat < 0x20 then "\\u00" ++ hexPair c.toNat else c.toString

/-- A text as a JSON string. -/
def quote (s : String) : String :=
  "\"" ++ String.join (s.toList.map escape) ++ "\""

namespace Value

mutual

/-- The text of a value, without blanks. -/
def text : Value → String
  | .null => "null"
  | .bool true => "true"
  | .bool false => "false"
  | .number n => n.text
  | .string s => quote s
  | .array items => "[" ++ ",".intercalate (itemTexts items) ++ "]"
  | .object members => "\x7b" ++ ",".intercalate (memberTexts members) ++ "\x7d"

/-- The texts of the items of an array. -/
def itemTexts : List Value → List String
  | [] => []
  | v :: vs => text v :: itemTexts vs

/-- The texts of the members of an object. -/
def memberTexts : List (String × Value) → List String
  | [] => []
  | (name, v) :: ms => (quote name ++ ":" ++ text v) :: memberTexts ms

end

end Value

end Lexgen.Json
