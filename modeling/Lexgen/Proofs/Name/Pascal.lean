/-
# Joined names

Joining the words of a name keeps nothing of the separators, so that a name cut at any separator is
joined from its two parts (`pascal_append`), and no separator is left (`not_mem_pascal`). What is
left is one word whose first character came out of the upper case of a letter and is its own upper
case, whence joining it again changes nothing (`pascal_pascal`).

Key theorems: `pascal_append`, `not_mem_pascal`, `pascal_pascal`, `pascal_separated`.
-/
import Lexgen.Name.Casing
import Lexgen.Proofs.Text.Casing
import Lexgen.Proofs.Text.Pieces

namespace Lexgen.Name

open Lexgen.Text

/-- The characters between words. -/
def separators : List Char := ['.', '_', '-']

theorem isSeparator_iff {c : Char} : isSeparator c = true ↔ c ∈ separators := by
  simp [isSeparator, separators, or_assoc]

/-! ### Joining the parts of a name -/

theorem toList_pascal (s : String) :
    (pascal s).toList = (s.toList.splitOnP isSeparator).flatMap raise :=
  String.toList_ofList

/-- **A name cut at a separator** is joined from its parts. -/
theorem pascal_append {c : Char} (hc : c ∈ separators) (a b : String) :
    pascal (a ++ String.singleton c ++ b) = pascal a ++ pascal b := by
  apply String.toList_inj.mp
  have hchars : (a ++ String.singleton c ++ b).toList = a.toList ++ c :: b.toList := by
    simp
  rw [String.toList_append, toList_pascal, toList_pascal, toList_pascal, hchars,
    List.splitOnP_append_cons _ _ (isSeparator_iff.mpr hc), List.flatMap_append]

/-! ### Separators -/

/-- No case table leads to a separator. -/
theorem separators_apart : separators.all (fun c => upperRanges.all (·.misses (.single c.toNat)) &&
    upperExpansions.all fun e => e.2.all fun n => Char.ofNat n != c) = true := by decide +kernel

theorem misses_separators : ∀ c ∈ separators,
    upperRanges.all (·.misses (.single c.toNat)) = true := fun c hc =>
  (Bool.and_eq_true_iff.mp (List.all_eq_true.mp separators_apart c hc)).1

theorem separators_upperExpansions : ∀ c ∈ separators, ∀ e ∈ upperExpansions, ∀ n ∈ e.2,
    Char.ofNat n ≠ c := by
  intro c hc e he n hn
  have hexpansions := (Bool.and_eq_true_iff.mp (List.all_eq_true.mp separators_apart c hc)).2
  exact bne_iff_ne.mp (List.all_eq_true.mp (List.all_eq_true.mp hexpansions e he) n hn)

/-- **No separator is left.** -/
theorem not_mem_pascal {c : Char} (hc : c ∈ separators) (a : String) :
    c ∉ (pascal a).toList := by
  rw [toList_pascal, List.mem_flatMap]
  rintro ⟨word, hword, hmem⟩
  have hapart {d : Char} (hd : d ∈ word) : d ≠ c := by
    rintro rfl
    have hno := (mem_of_mem_splitOnP hword hd).2
    rw [isSeparator_iff.mpr hc] at hno
    cases hno
  cases word with
  | nil => exact List.not_mem_nil hmem
  | cons first rest =>
    rw [raise, List.mem_append] at hmem
    rcases hmem with hmem | hmem
    · exact not_mem_upperChar (misses_separators c hc) (separators_upperExpansions c hc)
        (hapart (List.mem_cons_self ..)) hmem
    · exact hapart (List.mem_cons_of_mem _ hmem) rfl

/-! ### Joining twice -/

/-- The first character of joined words is its own upper case. -/
theorem upperChar_head_flatMap_raise {d : Char} : ∀ {words : List (List Char)},
    d ∈ (words.flatMap raise).head? → upperChar d = [d]
  | [], h => by cases h
  | [] :: words, h => by
    rw [List.flatMap_cons, raise, List.nil_append] at h
    exact upperChar_head_flatMap_raise h
  | (c :: cs) :: words, h => by
    obtain ⟨first, rest, hupper, hself⟩ := exists_upperChar_eq c
    rw [List.flatMap_cons, raise, hupper] at h
    cases h
    exact hself

/-- A word whose first character is its own upper case stays. -/
theorem raise_eq_self : ∀ {word : List Char}, (∀ d ∈ word.head?, upperChar d = [d]) →
    raise word = word
  | [], _ => rfl
  | c :: cs, h => by
    rw [raise, h c rfl]
    rfl

/-- **Joining twice is joining once.** -/
theorem pascal_pascal (a : String) : pascal (pascal a) = pascal a := by
  apply String.toList_inj.mp
  have hword : (pascal a).toList.splitOnP isSeparator = [(pascal a).toList] := by
    rw [List.splitOnP_eq_singleton]
    intro c hc
    rw [Bool.eq_false_iff, Ne, isSeparator_iff]
    exact fun hsep => not_mem_pascal hsep a hc
  rw [toList_pascal, hword, List.flatMap_singleton]
  refine raise_eq_self fun d hd => ?_
  rw [toList_pascal] at hd
  exact upperChar_head_flatMap_raise hd

/-- **Joining collapses separators consistently.** A name cut at a separator is joined from its
parts, no separator is left, and joining twice is joining once. -/
theorem pascal_separated (a : String) :
    (∀ c ∈ separators, c ∉ (pascal a).toList ∧
      ∀ b, pascal (a ++ String.singleton c ++ b) = pascal a ++ pascal b) ∧
    pascal (pascal a) = pascal a :=
  ⟨fun _ hc => ⟨not_mem_pascal hc a, pascal_append hc a⟩, pascal_pascal a⟩

/-- Letters whose upper case has several characters, or is a letter of its own. -/
theorem pascal_separated_expanded : '-' ∈ separators ∧ '-' ∉ (pascal "ŉa_ßb").toList ∧
    pascal ("ŉa_ßb" ++ String.singleton '-' ++ "ǆ") = "ʼNaSSb" ++ "Ǆ" ∧
    pascal "ʼNaSSb" = "ʼNaSSb" := by
  have hc : '-' ∈ separators := by decide
  have ha : pascal "ŉa_ßb" = "ʼNaSSb" := by decide +kernel
  have hb : pascal "ǆ" = "Ǆ" := by decide +kernel
  obtain ⟨hsep, htwice⟩ := pascal_separated "ŉa_ßb"
  obtain ⟨hnone, happend⟩ := hsep '-' hc
  exact ⟨hc, hnone, by rw [happend, ha, hb], by rwa [ha] at htwice⟩

end Lexgen.Name
