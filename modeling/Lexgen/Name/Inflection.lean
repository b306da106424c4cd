/-
# Singular and plural of English nouns

Both directions are ordered lists of suffix rules, and the first rule that fits is used. A rule may
ask for a consonant in front of its suffix. Irregular nouns are not known, so taking the singular
only undoes what the rules of the plural do.

Key definitions: `isConsonant`, `SuffixRule`, `pluralOf`, `singularOf`.
-/
namespace Lexgen.Name

/-- Replace a suffix, if wanted only after a consonant. -/
structure SuffixRule where
  ending : String
  becomes : String
  afterConsonant : Bool := false
deriving DecidableEq, Repr

/-- The ASCII letters other than the five vowels. -/
def isConsonant (c : Char) : Bool :=
  c.isAlpha && !"aeiou".toList.contains c.toLower

theorem toNat_lt_of_isAlpha {c : Char} (hc : c.isAlpha = true) : c.toNat < 128 := by
  have hbound {n : UInt32} (h : c.val ≤ n) (hn : n < 128) : c.toNat < 128 :=
    UInt32.lt_iff_toNat_lt.mp (UInt32.lt_of_le_of_lt h hn)
  rcases Bool.or_eq_true_iff.mp hc with hupper | hlower
  · exact hbound (of_decide_eq_true hupper).2 (by decide)
  · exact hbound (of_decide_eq_true (Bool.and_eq_true_iff.mp hlower).2) (by decide)

/-- The consonants, small and capital ones. -/
def consonants : List Char := "bcdfghjklmnpqrstvwxyzBCDFGHJKLMNPQRSTVWXYZ".toList

/-- All consonants are ASCII, so the table is looked at there only. -/
theorem isConsonant_iff {c : Char} : isConsonant c = true ↔ c ∈ consonants := by
  constructor
  · intro h
    have htable : ∀ n < 128, isConsonant (Char.ofNat n) = true → Char.ofNat n ∈ consonants := by
      decide +kernel
    have hself := htable c.toNat (toNat_lt_of_isAlpha (Bool.and_eq_true_iff.mp h).1)
    rw [Char.ofNat_toNat] at hself
    exact hself h
  · have hletters : consonants.all isConsonant = true := by decide +kernel
    exact List.all_eq_true.mp hletters c

namespace SuffixRule

/-- The word with its suffix replaced, if the rule fits. -/
def result? (r : SuffixRule) (word : List Char) : Option (List Char) :=
  match r.ending.toList.isSuffixOf? word with
  | none => none
  | some stem =>
    if r.afterConsonant && !stem.getLast?.any isConsonant then none
    else some (stem ++ r.becomes.toList)

end SuffixRule

/-- From singular to plural. The last rule fits every word. -/
def pluralRules : List SuffixRule := [
  ⟨"y", "ies", true⟩, ⟨"ch", "ches", false⟩, ⟨"sh", "shes", false⟩, ⟨"s", "ses", false⟩,
  ⟨"x", "xes", false⟩, ⟨"z", "zes", false⟩, ⟨"", "s", false⟩]

/-- From plural to singular. -/
def singularRules : List SuffixRule := [
  ⟨"ies", "y", true⟩, ⟨"ches", "ch", false⟩, ⟨"shes", "sh", false⟩, ⟨"ses", "s", false⟩,
  ⟨"xes", "x", false⟩, ⟨"zes", "z", false⟩, ⟨"s", "", false⟩]

/-- The word after the first rule that fits. The empty word, and a word that no rule fits, stay. -/
def inflect (rules : List SuffixRule) (word : List Char) : List Char :=
  if word.isEmpty then [] else (rules.findSome? (·.result? word)).getD word

/-- The plural of a noun. -/
def pluralOf (word : String) : String :=
  String.ofList (inflect pluralRules word.toList)

/-- The singular of a noun. -/
def singularOf (word : String) : String :=
  String.ofList (inflect singularRules word.toList)

end Lexgen.Name
