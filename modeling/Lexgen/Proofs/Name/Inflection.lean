/-
# Singulars of plurals

Taking the singular tries the rules of the plural the other way round (`singularRules_eq`). All
rules but the last have suffixes of which none is the end of another, in either direction, so at
most one of them fits a word and their order does not matter (`inflect_of_fits`); the last one fits
what is left (`inflect_of_first`). Hence a plural made by one of these rules is undone by the same
rule. A plural made by the last rule is undone by it too, unless another rule takes its ending for
one of its own. Then the singular lacks an e, and its plural is the same as before.

Key definitions: `SuffixRule.Fits`, `SuffixRule.reversed`, `LosesE`.
Key theorems: `inflect_of_first`, `inflect_of_fits`, `losesE_iff`, `singularOf_pluralOf`.
-/
import Lexgen.Name.Inflection
import Mathlib.Data.List.Infix

namespace Lexgen.Name

/-! ### Rules -/

namespace SuffixRule

/-- Whether a rule fits a word that is made of a stem and the suffix of the rule. -/
structure Fits (r : SuffixRule) (stem word : List Char) : Prop where
  word_eq : word = stem ++ r.ending.toList
  consonant : r.afterConsonant = true → stem.getLast?.any isConsonant = true

/-- The rule the other way round. -/
def reversed (r : SuffixRule) : SuffixRule := ⟨r.becomes, r.ending, r.afterConsonant⟩

/-- Whether no word ends in the suffixes of both rules. -/
def Apart (q r : SuffixRule) : Prop :=
  ¬ q.ending.toList <:+ r.ending.toList ∧ ¬ r.ending.toList <:+ q.ending.toList

instance (q r : SuffixRule) : Decidable (Apart q r) := inferInstanceAs (Decidable (_ ∧ _))

variable {q r : SuffixRule} {stem stem' word : List Char}

theorem result?_eq_some_iff {result : List Char} : r.result? word = some result ↔
    ∃ stem, r.Fits stem word ∧ stem ++ r.becomes.toList = result := by
  unfold result?
  constructor
  · intro h
    split at h
    · cases h
    · next stem hstem =>
      split at h
      · cases h
      · next hconsonant =>
        have hword := List.isSuffixOf?_eq_some_iff_append_eq.1 hstem
        refine ⟨stem, ⟨hword.symm, fun hrule => ?_⟩, Option.some.inj h⟩
        simpa [hrule] using hconsonant
  · rintro ⟨stem, ⟨hword, hconsonant⟩, rfl⟩
    rw [List.isSuffixOf?_eq_some_iff_append_eq.2 hword.symm]
    cases hrule : r.afterConsonant with
    | false => rfl
    | true => simp [hconsonant hrule]

theorem Fits.ending_suffix (h : r.Fits stem word) : r.ending.toList <:+ word :=
  h.word_eq ▸ List.suffix_append ..

/-- A rule that fits also fits what it makes, the other way round. -/
theorem Fits.reversed (h : r.Fits stem word) : r.reversed.Fits stem (stem ++ r.becomes.toList) :=
  ⟨rfl, h.consonant⟩

theorem Apart.not_fits (h : Apart q r) (hfits : q.Fits stem word) : ¬ r.Fits stem' word :=
  fun hfits' => (List.suffix_or_suffix_of_suffix hfits.ending_suffix hfits'.ending_suffix).elim
    h.1 h.2

end SuffixRule

section
variable {q r : SuffixRule} {rules before after : List SuffixRule} {stem word : List Char}

/-- The first rule that fits is used. -/
theorem inflect_of_first (hne : word ≠ [])
    (hbefore : ∀ q ∈ before, ∀ stem, ¬ q.Fits stem word) (h : r.Fits stem word) :
    inflect (before ++ r :: after) word = stem ++ r.becomes.toList := by
  have hfirst : (before ++ r :: after).findSome? (·.result? word) =
      some (stem ++ r.becomes.toList) := by
    refine List.findSome?_eq_some_iff.2 ⟨before, r, after, rfl, ?_, fun q hq => ?_⟩
    · exact SuffixRule.result?_eq_some_iff.2 ⟨stem, h, rfl⟩
    · rw [Option.eq_none_iff_forall_ne_some]
      intro result hresult
      obtain ⟨stem', hfits, -⟩ := SuffixRule.result?_eq_some_iff.1 hresult
      exact hbefore q hq stem' hfits
  rw [inflect, if_neg (by simpa using hne), hfirst]
  rfl

/-- A rule among rules that are apart is used wherever it fits. -/
theorem inflect_of_fits (hne : word ≠ []) (hapart : rules.Pairwise SuffixRule.Apart)
    (hr : r ∈ rules) (h : r.Fits stem word) :
    inflect (rules ++ after) word = stem ++ r.becomes.toList := by
  obtain ⟨before, others, rfl⟩ := List.append_of_mem hr
  rw [List.append_assoc]
  refine inflect_of_first hne (fun q hq stem' hfits => ?_) h
  have hqr := (List.pairwise_append.1 hapart).2.2 q hq r List.mem_cons_self
  exact hqr.not_fits hfits h

/-! ### The two lists of rules -/

/-- The rule that fits every word. -/
def regularRule : SuffixRule := ⟨"", "s", false⟩

/-- The rules of the plural in front of it. -/
def properRules : List SuffixRule := pluralRules.dropLast

theorem pluralRules_eq : pluralRules = properRules ++ [regularRule] := rfl

/-- The rules of the singular are those of the plural the other way round. -/
theorem singularRules_eq :
    singularRules = properRules.map SuffixRule.reversed ++ [regularRule.reversed] := rfl

theorem apart_properRules : properRules.Pairwise SuffixRule.Apart := by decide

theorem apart_reversed : (properRules.map SuffixRule.reversed).Pairwise SuffixRule.Apart := by
  decide

theorem ne_nil_of_properRules : ∀ r ∈ properRules,
    r.ending.toList ≠ [] ∧ r.becomes.toList ≠ [] := by decide

theorem plural_of_fits (hr : r ∈ properRules) (h : r.Fits stem word) :
    inflect pluralRules word = stem ++ r.becomes.toList := by
  have hne : word ≠ [] := by
    rw [h.word_eq]
    exact List.append_ne_nil_of_right_ne_nil stem (ne_nil_of_properRules r hr).1
  rw [pluralRules_eq]
  exact inflect_of_fits hne apart_properRules hr h

theorem plural_of_regular (hne : word ≠ []) (h : ∀ r ∈ properRules, ∀ stem, ¬ r.Fits stem word) :
    inflect pluralRules word = word ++ ['s'] := by
  have hregular : regularRule.Fits word word := ⟨(List.append_nil word).symm, nofun⟩
  rw [pluralRules_eq]
  exact inflect_of_first hne h hregular

theorem singular_of_fits (hr : r ∈ properRules) (h : r.reversed.Fits stem word) :
    inflect singularRules word = stem ++ r.ending.toList := by
  have hne : word ≠ [] := by
    rw [h.word_eq]
    exact List.append_ne_nil_of_right_ne_nil stem (ne_nil_of_properRules r hr).2
  rw [singularRules_eq]
  exact inflect_of_fits hne apart_reversed (List.mem_map_of_mem hr) h

theorem singular_of_regular
    (h : ∀ r ∈ properRules, ∀ stem, ¬ r.reversed.Fits stem (word ++ ['s'])) :
    inflect singularRules (word ++ ['s']) = word := by
  have hregular : regularRule.reversed.Fits word (word ++ ['s']) := ⟨rfl, nofun⟩
  rw [singularRules_eq, inflect_of_first (List.concat_ne_nil 's' word) _ hregular]
  · exact List.append_nil word
  · intro q hq stem hfits
    obtain ⟨r, hr, rfl⟩ := List.mem_map.1 hq
    exact h r hr stem hfits

/-! ### Words that lose an e -/

/-- Whether a word ends in an e that is taken for one of a plural: in `ie` behind a consonant, or in
one of five other endings. -/
def LosesE (word : List Char) : Prop :=
  (∃ c ∈ consonants, c :: "ie".toList <:+ word) ∨
    ∃ ending ∈ ["che", "she", "se", "xe", "ze"], ending.toList <:+ word

/-- What stands in front of an ending ends in a consonant. -/
theorem exists_consonant_iff {ending : List Char} :
    (∃ stem, word = stem ++ ending ∧ stem.getLast?.any isConsonant = true) ↔
      ∃ c ∈ consonants, c :: ending <:+ word := by
  constructor
  · rintro ⟨stem, rfl, hlast⟩
    obtain ⟨c, hc, hconsonant⟩ := (Option.any_eq_true ..).mp hlast
    obtain ⟨front, rfl⟩ := List.getLast?_eq_some_iff.mp hc
    exact ⟨c, isConsonant_iff.mp hconsonant, front, by simp⟩
  · rintro ⟨c, hc, front, rfl⟩
    exact ⟨front ++ [c], by simp, by simp [isConsonant_iff.mpr hc]⟩

theorem SuffixRule.fits_reversed_iff {ending : List Char}
    (hending : r.becomes.toList = ending ++ ['s']) : r.reversed.Fits stem (word ++ ['s']) ↔
      word = stem ++ ending ∧
        (r.afterConsonant = true → stem.getLast?.any isConsonant = true) := by
  constructor
  · rintro ⟨hword, hconsonant⟩
    have hplural : word ++ ['s'] = (stem ++ ending) ++ ['s'] := by
      rw [List.append_assoc, ← hending]
      exact hword
    exact ⟨List.append_cancel_right hplural, hconsonant⟩
  · rintro ⟨rfl, hconsonant⟩
    refine ⟨?_, hconsonant⟩
    show _ = stem ++ r.becomes.toList
    rw [hending, List.append_assoc]

/-- A word loses its e exactly if another rule fits where the last one makes the plural. -/
theorem losesE_iff : LosesE word ↔
    ∃ r ∈ properRules, ∃ stem, r.reversed.Fits stem (word ++ ['s']) := by
  have hrules : properRules = [⟨"y", "ies", true⟩, ⟨"ch", "ches", false⟩, ⟨"sh", "shes", false⟩,
      ⟨"s", "ses", false⟩, ⟨"x", "xes", false⟩, ⟨"z", "zes", false⟩] := rfl
  have hplain (letters becomes e : String) (h : becomes.toList = e.toList ++ ['s']) :
      (∃ stem, (SuffixRule.reversed ⟨letters, becomes, false⟩).Fits stem (word ++ ['s'])) ↔
        e.toList <:+ word := by
    refine exists_congr fun stem => (SuffixRule.fits_reversed_iff h).trans ?_
    exact (and_iff_left nofun).trans eq_comm
  have hies : (∃ stem, (SuffixRule.reversed ⟨"y", "ies", true⟩).Fits stem (word ++ ['s'])) ↔
      ∃ c ∈ consonants, c :: "ie".toList <:+ word := by
    have hletters : "ies".toList = "ie".toList ++ ['s'] := by decide
    rw [← exists_consonant_iff]
    refine exists_congr fun stem => (SuffixRule.fits_reversed_iff hletters).trans ?_
    exact and_congr_right fun _ => forall_prop_of_true rfl
  rw [hrules]
  simp only [List.exists_mem_cons_iff, List.not_mem_nil, false_and, exists_false, or_false, LosesE]
  rw [hies, hplain "ch" "ches" "che" (by decide), hplain "sh" "shes" "she" (by decide),
    hplain "s" "ses" "se" (by decide), hplain "x" "xes" "xe" (by decide),
    hplain "z" "zes" "ze" (by decide)]

/-- A word with a plural of its own loses no e. -/
theorem not_losesE_of_fits (hr : r ∈ properRules) (h : r.Fits stem word) : ¬ LosesE word := by
  have hapart : ∀ r ∈ properRules, ∀ q ∈ properRules,
      ¬ r.ending.toList ++ ['s'] <:+ q.becomes.toList ∧
        ¬ q.becomes.toList <:+ r.ending.toList ++ ['s'] := by decide
  rw [losesE_iff]
  rintro ⟨q, hq, stem', hfits⟩
  have hplural : r.ending.toList ++ ['s'] <:+ word ++ ['s'] := by
    rw [h.word_eq, List.append_assoc]
    exact List.suffix_append ..
  exact (List.suffix_or_suffix_of_suffix hplural hfits.ending_suffix).elim
    (hapart r hr q hq).1 (hapart r hr q hq).2

/-! ### There and back -/

theorem ne_nil_of_losesE (h : LosesE word) : word ≠ [] := by
  rintro rfl
  simp [LosesE] at h

/-- A word that loses no e comes back: the rule that made its plural is the one that takes it
away. -/
theorem singular_plural_of_not_losesE (h : ¬ LosesE word) :
    inflect singularRules (inflect pluralRules word) = word := by
  by_cases hne : word = []
  · rw [hne]
    rfl
  by_cases hproper : ∃ r ∈ properRules, ∃ stem, r.Fits stem word
  · obtain ⟨r, hr, stem, hfits⟩ := hproper
    rw [plural_of_fits hr hfits, singular_of_fits hr hfits.reversed, ← hfits.word_eq]
  · rw [plural_of_regular hne fun r hr stem hfits => hproper ⟨r, hr, stem, hfits⟩]
    exact singular_of_regular fun r hr stem hfits => h (losesE_iff.2 ⟨r, hr, stem, hfits⟩)

/-- A word that loses its e does not come back, but its plural does: the rule that takes the e away
brings it back with the plural. -/
theorem plural_singular_of_losesE (h : LosesE word) :
    inflect singularRules (inflect pluralRules word) ≠ word ∧
      inflect pluralRules (inflect singularRules (inflect pluralRules word)) =
        inflect pluralRules word := by
  have hnone : ∀ r ∈ properRules, ∀ stem, ¬ r.Fits stem word :=
    fun r hr stem hfits => not_losesE_of_fits hr hfits h
  obtain ⟨r, hr, stem, hfits⟩ := losesE_iff.1 h
  have hfits' : r.Fits stem (stem ++ r.ending.toList) := ⟨rfl, hfits.consonant⟩
  rw [plural_of_regular (ne_nil_of_losesE h) hnone, singular_of_fits hr hfits,
    plural_of_fits hr hfits']
  exact ⟨fun hself => hnone r hr stem (hself ▸ hfits'), hfits.word_eq.symm⟩

end

/-- **Plurals survive the singular.** For every word the plural of the singular of its plural is its
plural, and the singular of its plural is the word itself exactly if it loses no e. -/
theorem singularOf_pluralOf (word : String) :
    pluralOf (singularOf (pluralOf word)) = pluralOf word ∧
      (singularOf (pluralOf word) = word ↔ ¬ LosesE word.toList) := by
  have hsingular : singularOf (pluralOf word) =
      String.ofList (inflect singularRules (inflect pluralRules word.toList)) := by
    rw [singularOf, pluralOf, String.toList_ofList]
  by_cases h : LosesE word.toList
  · obtain ⟨hne, hplural⟩ := plural_singular_of_losesE h
    refine ⟨?_, iff_of_false (fun hself => hne ?_) (not_not_intro h)⟩
    · rw [hsingular, pluralOf, String.toList_ofList, hplural]
      rfl
    · rw [← String.toList_ofList (l := inflect _ _), ← hsingular, hself]
  · have hself : singularOf (pluralOf word) = word := by
      rw [hsingular, singular_plural_of_not_losesE h, String.ofList_toList]
    rw [hself]
    exact ⟨rfl, iff_of_true rfl h⟩

/-- The e of a movie is taken for that of flies. -/
example : singularOf (pluralOf "movie") = "movy" ∧ singularOf (pluralOf "fly") = "fly" := by
  decide

end Lexgen.Name
