/-
# Dates and times

A date, a time, or a date with a time behind a `T` or a space and perhaps an offset. In normal
form the letters are upper case, a time has seconds, and a fraction of a second has at most nine
digits and no needless zeros.

Key definitions: `date?`, `time?`, `offset?`, `moment?`.
-/
namespace Lexgen.Toml

/-- A number of exactly so many decimal digits. -/
def digits? (count : Nat) (cs : List Char) : Option (Nat × List Char) :=
  let ds := cs.take count
  if ds.length = count ∧ ds.all Char.isDigit then
    some (ds.foldl (fun n d => n * 10 + (d.toNat - 48)) 0, cs.drop count)
  else none

/-- The text behind a character. -/
def after? (c : Char) : List Char → Option (List Char)
  | d :: rest => if d = c then some rest else none
  | [] => none

/-- The number of days of a month. -/
def daysIn (year month : Nat) : Nat :=
  if month = 2 then
    if year % 4 = 0 ∧ (year % 100 ≠ 0 ∨ year % 400 = 0) then 29 else 28
  else if month ∈ [4, 6, 9, 11] then 30 else 31

/-- A number of two digits. -/
def twoDigits (n : Nat) : String := String.ofList [Nat.digitChar (n / 10), Nat.digitChar (n % 10)]

/-- A date in front of a text. -/
def date? (cs : List Char) : Option (String × List Char) := do
  let (year, rest) ← digits? 4 cs
  let (month, rest) ← digits? 2 (← after? '-' rest)
  let (day, rest) ← digits? 2 (← after? '-' rest)
  if 1 ≤ month ∧ month ≤ 12 ∧ 1 ≤ day ∧ day ≤ daysIn year month then
    some (String.ofList (cs.take 10), rest)
  else none

/-- The normal form of the digits of a fraction of a second, with the dot in front of it. -/
def fraction (ds : List Char) : String :=
  match ((ds.take 9).reverse.dropWhile (· == '0')).reverse with
  | [] => ""
  | ds => "." ++ String.ofList ds

/-- The seconds of a time in normal form; where there are none, the minute has just begun. -/
def seconds? (cs : List Char) : Option (String × List Char) :=
  match cs with
  | ':' :: rest => do
    let (second, rest) ← digits? 2 rest
    if 60 < second then none
    else match rest with
      | '.' :: rest =>
        let ds := rest.takeWhile Char.isDigit
        if ds.isEmpty then none
        else some (":" ++ twoDigits second ++ fraction ds, rest.dropWhile Char.isDigit)
      | rest => some (":" ++ twoDigits second, rest)
  | rest => some (":00", rest)

/-- A time in front of a text. -/
def time? (cs : List Char) : Option (String × List Char) := do
  let (hour, rest) ← digits? 2 cs
  let (minute, rest) ← digits? 2 (← after? ':' rest)
  let (seconds, rest) ← seconds? rest
  if hour ≤ 23 ∧ minute ≤ 59 then some (twoDigits hour ++ ":" ++ twoDigits minute ++ seconds, rest)
  else none

/-- The offset of a time, which is all that a text holds. -/
def offset? : List Char → Option String
  | [] => some ""
  | 'Z' :: [] => some "Z"
  | 'z' :: [] => some "Z"
  | sign :: cs => do
    let (hour, rest) ← digits? 2 cs
    let (minute, rest) ← digits? 2 (← after? ':' rest)
    if (sign = '+' ∨ sign = '-') ∧ hour ≤ 23 ∧ minute ≤ 59 ∧ rest.isEmpty then
      let sign := if hour = 0 ∧ minute = 0 then '+' else sign
      some (String.singleton sign ++ twoDigits hour ++ ":" ++ twoDigits minute)
    else none

/-- Whether a character stands between a date and a time. -/
def splitsMoment (c : Char) : Bool := c == 'T' || c == 't' || c == ' '

/-- The normal form of a date, a time or both, which is all that a text holds. -/
def moment? (cs : List Char) : Option String :=
  match date? cs with
  | some (date, []) => some date
  | some (date, c :: rest) => do
    if splitsMoment c then
      let (time, rest) ← time? rest
      let offset ← offset? rest
      some (date ++ "T" ++ time ++ offset)
    else none
  | none =>
    match time? cs with
    | some (time, []) => some time
    | _ => none

end Lexgen.Toml
