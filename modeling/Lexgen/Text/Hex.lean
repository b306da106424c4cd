/-
# Hexadecimal digits

Digits read in either case, and numbers of a fixed number of digits.

Key definitions: `hexValue?`, `hexNumber?`.
-/
namespace Lexgen.Text

/-- The value of a hexadecimal digit. -/
def hexValue? (c : Char) : Option Nat :=
  if c.isDigit then some (c.toNat - 48)
  else if 'a' ≤ c ∧ c ≤ 'f' then some (c.toNat - 87)
  else if 'A' ≤ c ∧ c ≤ 'F' then some (c.toNat - 55)
  else none

/-- The number that some digits stand for after the digits of `n`. -/
def hexNumberFrom? (n : Nat) : List Char → Option Nat
  | [] => some n
  | c :: cs => (hexValue? c).bind fun d => hexNumberFrom? (n * 16 + d) cs

/-- The number that some digits stand for. -/
def hexNumber? (cs : List Char) : Option Nat := hexNumberFrom? 0 cs

end Lexgen.Text
