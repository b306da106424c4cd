/-
# Shortest decimal digits of a double

A positive double is `m * 2 ^ q`. The reals that round to it form an interval that reaches half
way to the neighbouring doubles, with its ends if `m` is even. Of all decimals in the interval
those with the fewest digits are taken, and of these the one nearest to the double, a tie going
to the even digit. Everything is exact arithmetic on natural numbers.

Key definitions: `Binary`, `Binary.ofBits`, `Decimal`, `Binary.shortest`.
-/
namespace Lexgen.Json

/-- The positive number `significand * 2 ^ exponent`; `atEdge` tells that the doubles below it lie
twice as close as those above. -/
structure Binary where
  significand : Nat
  exponent : Int
  atEdge : Bool
deriving DecidableEq, Repr

/-- The decimal `digits * 10 ^ exponent`. -/
structure Decimal where
  digits : Nat
  exponent : Int
deriving DecidableEq, Repr

/-- Quotient in tenths: a value and the ends of its interval over one denominator. -/
structure Span where
  low : Nat
  value : Nat
  high : Nat
  unit : Nat
deriving DecidableEq, Repr

namespace Span

/-- Whether a multiple of `10 ^ t` lies in the interval, its ends counting if `closed`. -/
def holds (s : Span) (closed : Bool) (scaled : Nat) : Bool :=
  if closed then s.low ≤ scaled && scaled ≤ s.high else s.low < scaled && scaled < s.high

/-- The span in units of `10 ^ t`. -/
def inTens (s : Span) (t : Int) : Span :=
  if t < 0 then
    let p := Nat.pow 10 t.natAbs
    ⟨s.low * p, s.value * p, s.high * p, s.unit⟩
  else ⟨s.low, s.value, s.high, s.unit * Nat.pow 10 t.natAbs⟩

/-- The multiple of the unit in the interval that is nearest to the value. -/
def nearest? (s : Span) (closed : Bool) : Option Nat :=
  let below := s.value / s.unit
  let lowFits := s.holds closed (below * s.unit)
  let highFits := s.holds closed ((below + 1) * s.unit)
  let down := s.value - below * s.unit
  let up := (below + 1) * s.unit - s.value
  match lowFits, highFits with
  | false, false => none
  | true, false => some below
  | false, true => some (below + 1)
  | true, true =>
    if down < up then some below
    else if up < down then some (below + 1)
    else some (if below % 2 = 0 then below else below + 1)

end Span

namespace Binary

/-- The positive number of a double's bits without its sign; zero has none. -/
def ofBits (bits : UInt64) : Option Binary :=
  let fraction : Nat := bits.toNat % Nat.pow 2 52
  let biased : Nat := bits.toNat / Nat.pow 2 52 % Nat.pow 2 11
  if biased = 0 then
    if fraction = 0 then none else some ⟨fraction, -1074, false⟩
  else some ⟨fraction + Nat.pow 2 52, (biased : Int) - 1075, fraction == 0 && biased != 1⟩

/-- The interval of the reals that round to the number. -/
def span (b : Binary) : Span :=
  let q := b.exponent - 2
  let p := Nat.pow 2 q.natAbs
  let low := 4 * b.significand - (if b.atEdge then 1 else 2)
  let value := 4 * b.significand
  let high := 4 * b.significand + 2
  if q < 0 then ⟨low, value, high, p⟩ else ⟨low * p, value * p, high * p, 1⟩

/-- The least `n ≤ fuel` with `10 ^ n * value ≥ unit`, for a value below one. -/
def tensUp (value unit : Nat) : Nat → Nat
  | 0 => 0
  | fuel + 1 => if value ≥ unit then 0 else 1 + tensUp (value * 10) unit fuel

/-- The exponent of the leading decimal digit. -/
def magnitude (s : Span) : Int :=
  if s.value ≥ s.unit then ((Nat.toDigits 10 (s.value / s.unit)).length : Int) - 1
  else -(tensUp s.value s.unit 400 : Int)

/-- Digits without the zeros at their end. -/
def dropZeros : Nat → Decimal → Decimal
  | 0, d => d
  | fuel + 1, d =>
    if d.digits % 10 = 0 ∧ d.digits ≠ 0 then dropZeros fuel ⟨d.digits / 10, d.exponent + 1⟩ else d

/-- The decimal with the fewest digits that rounds to the number. -/
def shortest (b : Binary) : Decimal :=
  let s := b.span
  let e := magnitude s
  let closed := b.significand % 2 == 0
  let found := (List.range 17).findSome? fun (k : Nat) =>
    let t := e - k
    ((s.inTens t).nearest? closed).map fun d => dropZeros 20 ⟨d, t⟩
  found.getD ⟨0, 0⟩

end Binary

end Lexgen.Json
