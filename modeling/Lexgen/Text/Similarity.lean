/-
# Similar texts

Two texts are compared by the characters that they have in common at about the same place. Each
character of the first text meets the first equal one of the second text in reach that has not been
met before. What counts is the share of either text that meets, and the share of those that meet in
order.

Key definitions: `meet`, `similarity`, `isSimilar`.
-/
namespace Lexgen.Text

/-- Mark the first free character that equals `c` at a place from `low` up to `high`; `place` is
that of the next character. -/
def take? (c : Char) (low high : Nat) : Nat → List (Char × Bool) → Option (List (Char × Bool))
  | _, [] => none
  | place, (d, taken) :: rest =>
    if !taken && d == c && low ≤ place && place ≤ high then some ((d, true) :: rest)
    else (take? c low high (place + 1) rest).map ((d, taken) :: ·)

/-- The characters of a text, the next of them at `place`, that meet one of another text, and the
other text with those marked that were met. -/
def meet (reach : Nat) : Nat → List Char → List (Char × Bool) → List Char × List (Char × Bool)
  | _, [], others => ([], others)
  | place, c :: cs, others =>
    match take? c (place - reach) (place + reach) 0 others with
    | some others =>
      let (met, others) := meet reach (place + 1) cs others
      (c :: met, others)
    | none => meet reach (place + 1) cs others

/-- A number as a share of another. -/
def share (part whole : Nat) : Float := Float.ofNat part / Float.ofNat whole

/-- How similar two texts are: the mean of the three shares, zero if nothing meets. The shares are
rounded one by one before they are added up, so a mean that should be seven tenths may come out as
a little more. -/
def similarity (s t : String) : Float :=
  let reach := max s.length t.length / 2 - 1
  let (met, others) := meet reach 0 s.toList (t.toList.map (·, false))
  let partners := (others.filter (·.2)).map (·.1)
  let swaps := ((met.zip partners).filter fun p => p.1 != p.2).length / 2
  let common := met.length
  if common = 0 then 0
  else (share common s.length + share common t.length + share (common - swaps) common) / 3

/-- Whether a text may be a misspelling of another. -/
def isSimilar (s t : String) : Bool := 0.7 < similarity s t

end Lexgen.Text
