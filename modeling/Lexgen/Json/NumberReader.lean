/-
# Reading numbers

An integer that fits 64 bits is kept as an integer, where minus zero counts as a double. Every
other number becomes a double in a fixed way: as many digits as fit 64 bits are read as an
integer, further digits only move the decimal exponent, and the integer is multiplied or divided
by a power of ten. The result is close to the decimal but not always the nearest double.

Key definitions: `scale`, `readNumber`.
-/
import Lexgen.Json.Value
import Lexgen.Json.Fault

namespace Lexgen.Json

/-- The value of a decimal digit. -/
def digitValue (c : Char) : Nat := c.toNat - 48

/-- Whether a digit still fits behind the digits read so far. -/
def fits (significand : Nat) (c : Char) : Bool :=
  significand * 10 + digitValue c < Nat.pow 2 64

/-- A power of ten that a double can hold. -/
def powerOfTen (n : Nat) : Float := Float.ofScientific 1 false n

/-- A double times a power of ten. Powers out of range are applied in steps; `none` if the result
would be infinite. -/
def scale (f : Float) (e : Int) : Option Float :=
  if e.natAbs ≤ 308 then
    if e < 0 then some (f / powerOfTen e.natAbs)
    else
      let g := f * powerOfTen e.natAbs
      if g.isInf then none else some g
  else if f == 0 then some f
  else if 0 ≤ e then none
  else scale (f / powerOfTen 308) (e + 308)
  termination_by e.natAbs
  decreasing_by omega

/-- The double of a number, given its sign, digits and decimal exponent. -/
def finish (negative : Bool) (significand : Nat) (e : Int) (rest : List Char) :
    Except Fault (Number × List Char) :=
  match scale significand.toUInt64.toFloat e with
  | none => .error ⟨.numberTooLarge, rest, 0⟩
  | some f => .ok (.double (if negative then -f else f).toBits, rest)

/-- A zero with a sign. -/
def signedZero (negative : Bool) : Number :=
  .double (if negative then (-0.0 : Float) else 0.0).toBits

/-- The characters after the digits at the front. -/
def dropDigits (cs : List Char) : List Char := cs.dropWhile Char.isDigit

/-- The digits of an exponent. One that exceeds 31 bits makes the number zero or too large. -/
def exponentDigits (negative : Bool) (significand : Nat) (start : Int) (down : Bool) :
    Nat → List Char → Except Fault (Number × List Char)
  | e, c :: rest =>
    if c.isDigit then
      let next := e * 10 + digitValue c
      if next < Nat.pow 2 31 then exponentDigits negative significand start down next rest
      else if significand ≠ 0 ∧ !down then .error ⟨.numberTooLarge, rest, 0⟩
      else .ok (signedZero negative, dropDigits rest)
    else finish negative significand (if down then start - e else start + e) (c :: rest)
  | e, [] => finish negative significand (if down then start - e else start + e) []

/-- The first digit of an exponent. -/
def exponentStart (negative : Bool) (significand : Nat) (start : Int) (down : Bool) :
    List Char → Except Fault (Number × List Char)
  | [] => .error ⟨.endInValue, [], 0⟩
  | c :: rest =>
    if c.isDigit then exponentDigits negative significand start down (digitValue c) rest
    else .error ⟨.badNumber, c :: rest, 1⟩

/-- The text after the letter of an exponent. -/
def exponent (negative : Bool) (significand : Nat) (start : Int) :
    List Char → Except Fault (Number × List Char)
  | '+' :: rest => exponentStart negative significand start false rest
  | '-' :: rest => exponentStart negative significand start true rest
  | rest => exponentStart negative significand start false rest

/-- What may follow the digits of a number. -/
def afterDigits (negative : Bool) (significand : Nat) (e : Int) :
    List Char → Except Fault (Number × List Char)
  | c :: rest =>
    if c = 'e' ∨ c = 'E' then exponent negative significand e rest
    else finish negative significand e (c :: rest)
  | [] => finish negative significand e []

/-- The digits after the point, of which `count` have been read. -/
def fraction (negative : Bool) (significand : Nat) (start : Int) (count : Nat) :
    List Char → Except Fault (Number × List Char)
  | c :: rest =>
    if c.isDigit then
      if fits significand c then
        fraction negative (significand * 10 + digitValue c) start (count + 1) rest
      else afterDigits negative significand (start - count) (dropDigits rest)
    else if count = 0 then .error ⟨.badNumber, c :: rest, 1⟩
    else afterDigits negative significand (start - count) (c :: rest)
  | [] =>
    if count = 0 then .error ⟨.endInValue, [], 0⟩
    else afterDigits negative significand (start - count) []

/-- The digits of an integer beyond those that fit. -/
def moreDigits (negative : Bool) (significand : Nat) (count : Nat) :
    List Char → Except Fault (Number × List Char)
  | c :: rest =>
    if c.isDigit then moreDigits negative significand (count + 1) rest
    else if c = '.' then fraction negative significand count 0 rest
    else afterDigits negative significand count (c :: rest)
  | [] => afterDigits negative significand count []

/-- A number whose digits all fit and that has neither point nor exponent. -/
def whole (negative : Bool) (significand : Nat) : Number :=
  if !negative then .integer significand
  else if significand = 0 then signedZero true
  else if significand ≤ Nat.pow 2 63 then .integer (-(significand : Int))
  else .double (-significand.toUInt64.toFloat).toBits

/-- What may follow the digits of an integer. -/
def afterInteger (negative : Bool) (significand : Nat) :
    List Char → Except Fault (Number × List Char)
  | c :: rest =>
    if c = '.' then fraction negative significand 0 0 rest
    else if c = 'e' ∨ c = 'E' then exponent negative significand 0 rest
    else .ok (whole negative significand, c :: rest)
  | [] => .ok (whole negative significand, [])

/-- The digits of an integer after its first. -/
def integerDigits (negative : Bool) : Nat → List Char → Except Fault (Number × List Char)
  | significand, c :: rest =>
    if c.isDigit then
      if fits significand c then integerDigits negative (significand * 10 + digitValue c) rest
      else moreDigits negative significand 1 rest
    else afterInteger negative significand (c :: rest)
  | significand, [] => afterInteger negative significand []

/-- A number from its first digit on. -/
def unsigned (negative : Bool) : List Char → Except Fault (Number × List Char)
  | [] => .error ⟨.endInValue, [], 0⟩
  | '0' :: rest =>
    if rest.head?.any Char.isDigit then .error ⟨.badNumber, rest, 1⟩
    else afterInteger negative 0 rest
  | c :: rest =>
    if c.isDigit then integerDigits negative (digitValue c) rest
    else .error ⟨.badNumber, c :: rest, 1⟩

/-- A number, from its sign or first digit on. -/
def readNumber : List Char → Except Fault (Number × List Char)
  | '-' :: rest => unsigned true rest
  | rest => unsigned false rest

end Lexgen.Json
