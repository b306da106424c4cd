/-
# Words that are values

A word without quotes is a truth value, a number, or a date or time. Digits may be grouped by single
underscores, and a number in base ten has no zero in front. Nobody asks for the amount of a number,
so the groups of an integer are looked at only where they meet: a hexadecimal digit must stand on
both sides of an underscore, also in base ten. A base without digits behind it is a number too.

Key definitions: `isNumber`, `scalar?`, `readWords`, `readScalar`.
-/
import Lexgen.Toml.Moment
import Lexgen.Toml.StringReader
import Lexgen.Toml.Value

namespace Lexgen.Toml

/-! ### Numbers -/

/-- Whether a text is made of digits, grouped by single underscores. -/
def isDigits (isDigit : Char → Bool) (cs : List Char) : Bool :=
  (cs.splitOn '_').all fun group => !group.isEmpty && group.all isDigit

/-- Whether a character is a hexadecimal digit. -/
def isHexDigit (c : Char) : Bool :=
  c.isDigit || ('a' ≤ c && c ≤ 'f') || ('A' ≤ c && c ≤ 'F')

/-- The text without a sign in front. -/
def dropSign : List Char → List Char
  | '+' :: rest => rest
  | '-' :: rest => rest
  | cs => cs

/-- Whether a text is an integer in base ten without a sign. -/
def isDecimal (cs : List Char) : Bool :=
  isDigits Char.isDigit cs && (cs.head? != some '0' || cs.length == 1)

/-- Whether a text without a sign is a number in base ten. -/
def isUnsigned (cs : List Char) : Bool :=
  let isExponent (c : Char) : Bool := c == 'e' || c == 'E'
  let mantissa := cs.takeWhile (!isExponent ·)
  let whole := mantissa.takeWhile (· != '.')
  let exponentFits := match cs.dropWhile (!isExponent ·) with
    | [] => true
    | _ :: ds => isDigits Char.isDigit (dropSign ds)
  let fractionFits := match mantissa.dropWhile (· != '.') with
    | [] => true
    | _ :: ds => isDigits Char.isDigit ds
  isDecimal whole && fractionFits && exponentFits

/-- Whether groups meet at hexadecimal digits; what else they hold is not looked at. -/
def groupsMeet : List (List Char) → Bool
  | [] => true
  | [group] => group.head?.any isHexDigit
  | group :: groups =>
    group.head?.any isHexDigit && group.getLast?.any isHexDigit && groupsMeet groups

/-- Whether a text without a sign is an integer in groups, the first of them all digits. -/
def isGrouped (cs : List Char) : Bool :=
  let first := cs.takeWhile Char.isDigit
  match cs.dropWhile Char.isDigit with
  | '_' :: rest =>
    !first.isEmpty && first.head? != some '0' && groupsMeet (rest.splitOn '_')
      && rest.all fun c => !(c == ' ' || c == '.' || c == 'e' || c == 'E')
  | _ => false

/-- Whether a text is a run of digits of some base, which may be empty. -/
def isRadixed (isDigit : Char → Bool) (cs : List Char) : Bool := cs.isEmpty || isDigits isDigit cs

/-- Whether a text is a number. -/
def isNumber (cs : List Char) : Bool :=
  match cs with
  | '0' :: 'x' :: ds => isRadixed isHexDigit ds
  | '0' :: 'o' :: ds => isRadixed (fun c => '0' ≤ c && c ≤ '7') ds
  | '0' :: 'b' :: ds => isRadixed (fun c => c == '0' || c == '1') ds
  | cs =>
    let unsigned := dropSign cs
    unsigned == ['i', 'n', 'f'] || unsigned == ['n', 'a', 'n'] || isUnsigned unsigned
      || isGrouped unsigned

/-! ### Words -/

/-- The value that a text without quotes stands for. -/
def scalar? (cs : List Char) : Option Value :=
  let text := String.ofList cs
  if text = "true" ∨ text = "false" ∨ isNumber cs then some (.plain text)
  else (moment? cs).map .moment

/-- Whether a character may stand in a word: all but gaps, line ends and the marks of settings,
lists, tables and comments. -/
def isWordChar (c : Char) : Bool := !(isGap c || "=,[]\x7b\x7d#\r\n".toList.contains c)

/-- Whether a text starts with a word that goes on with another one: a quote would start a string,
and a dot belongs to the word right in front of it. -/
def wordFollows : List Char → Bool
  | [] => false
  | c :: _ => isWordChar c && c != '.' && c != '"' && c != '\''

/-- The words in front of a text with the gaps between them, as the date and the time of a moment
have one; `fuel` is more than the number of characters left. -/
def readWords : Nat → List Char → List Char × List Char
  | 0, cs => ([], cs)
  | fuel + 1, cs =>
    let rest := cs.dropWhile isWordChar
    let next := rest.dropWhile isGap
    if next.length < rest.length && wordFollows next then
      let (words, rest') := readWords fuel next
      (cs.takeWhile isWordChar ++ rest.takeWhile isGap ++ words, rest')
    else (cs.takeWhile isWordChar, rest)

/-- A value without quotes in front of a text. -/
def readScalar (cs : List Char) : Option (Value × List Char) :=
  let (words, rest) := readWords (cs.length + 1) cs
  (scalar? words).map (·, rest)

end Lexgen.Toml
