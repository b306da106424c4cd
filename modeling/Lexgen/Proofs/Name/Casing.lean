/-
# What casing leaves of a text

A character is mapped to itself or to characters that are not below the capital A in the order of
code points (`CaseImage`). So a property that all of these have, such as not being a quote, goes
over from an id to its entity and to the names made of it.

Key definitions: `CaseImage`, `KeptByCasing`.
Key theorems: `forall_mem_lower`, `forall_mem_entityOf`, `forall_mem_pascal`.
-/
import Lexgen.Name.Entity
import Lexgen.Proofs.Text.Pieces

namespace Lexgen.Text

/-- The characters that a character may be mapped to other than itself. A number that is no
character's would give the first of all characters. -/
def CaseImage (c : Char) : Prop := 0x41 ≤ c.toNat ∨ c = '\x00'

/-- A property of characters that no case mapping takes away. -/
def KeptByCasing (p : Char → Prop) : Prop := ∀ c, CaseImage c → p c

theorem caseImage_ofNat {n : Nat} (h : 0x41 ≤ n) : CaseImage (Char.ofNat n) := by
  by_cases hvalid : n.isValidChar
  · have hnat : (Char.ofNat n).toNat = n := by
      rw [Char.ofNat, dif_pos hvalid]
      rfl
    exact .inl (by rwa [hnat])
  · exact .inr (by rw [Char.ofNat, dif_neg hvalid]; rfl)

theorem keptByCasing_ne {d : Char} (h : d.toNat < 0x41) (hne : d ≠ '\x00') :
    KeptByCasing (· ≠ d) := by
  rintro c (hc | rfl) rfl
  · omega
  · exact hne rfl

/-- A run of code points is mapped behind its target. -/
theorem mapCode_eq_or_le {table : List CaseRange} (htable : ∀ r ∈ table, 0x41 ≤ r.target)
    (n : Nat) : mapCode table n = n ∨ 0x41 ≤ mapCode table n := by
  unfold mapCode
  split
  · next r hr =>
    have := htable r (List.mem_of_find?_eq_some hr)
    exact .inr (Nat.le_trans this (Nat.le_add_right ..))
  · exact .inl rfl

theorem forall_ofNat_mapCode {p : Char → Prop} (hp : KeptByCasing p) {table : List CaseRange}
    (htable : ∀ r ∈ table, 0x41 ≤ r.target) {c : Char} (hc : p c) :
    p (Char.ofNat (mapCode table c.toNat)) := by
  rcases mapCode_eq_or_le htable c.toNat with h | h
  · rwa [h, Char.ofNat_toNat]
  · exact hp _ (caseImage_ofNat h)

theorem target_upperRanges : ∀ r ∈ upperRanges, 0x41 ≤ r.target := by decide +kernel

theorem target_lowerRanges : ∀ r ∈ lowerRanges, 0x41 ≤ r.target := by decide +kernel

theorem le_upperExpansions : ∀ e ∈ upperExpansions, ∀ n ∈ e.2, 0x41 ≤ n := by decide +kernel

theorem forall_mem_upperChar {p : Char → Prop} (hp : KeptByCasing p) {c : Char} (hc : p c) :
    ∀ d ∈ upperChar c, p d := by
  unfold upperChar
  split
  · next codes hcodes =>
    intro d hd
    obtain ⟨n, hn, rfl⟩ := List.mem_map.1 hd
    obtain ⟨before, after, hentries, -⟩ := List.lookup_eq_some_iff.1 hcodes
    have hmem : (c.toNat, codes) ∈ upperExpansions := by simp [hentries]
    exact hp _ (caseImage_ofNat (le_upperExpansions _ hmem n hn))
  · intro d hd
    rw [List.mem_singleton.1 hd]
    exact forall_ofNat_mapCode hp target_upperRanges hc

theorem forall_mem_lowerChar {p : Char → Prop} (hp : KeptByCasing p) {c : Char} (hc : p c) :
    ∀ d ∈ lowerChar c, p d := by
  unfold lowerChar
  split
  · intro d hd
    refine hp d (.inl ?_)
    simp only [List.mem_cons, List.not_mem_nil, or_false] at hd
    rcases hd with rfl | rfl <;> decide
  · intro d hd
    rw [List.mem_singleton.1 hd]
    exact forall_ofNat_mapCode hp target_lowerRanges hc

theorem forall_mem_lowerFrom {p : Char → Prop} (hp : KeptByCasing p) :
    ∀ {before cs : List Char}, (∀ c ∈ cs, p c) → ∀ d ∈ lowerFrom before cs, p d
  | _, [], _ => by simp [lowerFrom]
  | before, c :: cs, h => by
    intro d hd
    rw [lowerFrom, List.mem_append] at hd
    rcases hd with hd | hd
    · split at hd
      · refine hp d (.inl ?_)
        rw [List.mem_singleton.1 hd]
        split <;> decide
      · exact forall_mem_lowerChar hp (h c (List.mem_cons_self ..)) d hd
    · exact forall_mem_lowerFrom hp (fun e he => h e (List.mem_cons_of_mem _ he)) d hd

/-- Lowering a text keeps a property of its characters. -/
theorem forall_mem_lower {p : Char → Prop} (hp : KeptByCasing p) {s : String}
    (h : ∀ c ∈ s.toList, p c) : ∀ c ∈ (lower s).toList, p c := by
  rw [lower, String.toList_ofList]
  exact forall_mem_lowerFrom hp h

/-- A character that is its own lower case, and that no other character is mapped to, stays. -/
theorem mem_lower_iff {d : Char} (hkept : KeptByCasing (· ≠ d)) (hself : lowerChar d = [d])
    (hsigma : d ≠ 'Σ') {s : String} : d ∈ (lower s).toList ↔ d ∈ s.toList := by
  have hstays : ∀ {before cs : List Char}, d ∈ cs → d ∈ lowerFrom before cs := by
    intro before cs
    induction cs generalizing before with
    | nil => exact fun h => absurd h List.not_mem_nil
    | cons c cs ih =>
      intro h
      rw [lowerFrom, List.mem_append]
      rcases List.mem_cons.1 h with rfl | h
      · rw [if_neg hsigma, hself]
        exact .inl (List.mem_singleton_self _)
      · exact .inr (ih h)
  constructor
  · intro h
    refine Decidable.byContradiction fun hnone => ?_
    exact forall_mem_lower hkept (fun c hc heq => hnone (heq ▸ hc)) d h rfl
  · intro h
    rw [lower, String.toList_ofList]
    exact hstays h

end Lexgen.Text

namespace Lexgen.Name

open Lexgen.Text

/-- The entity of an id keeps a property of the characters of the id. -/
theorem forall_mem_entityOf {p : Char → Prop} (hp : KeptByCasing p) {id : String}
    (h : ∀ c ∈ id.toList, p c) : ∀ c ∈ (entityOf id).toList, p c := by
  refine forall_mem_lower hp ?_
  intro c hc
  rw [String.toList_ofList, lastSegment, List.mem_reverse] at hc
  exact h c (List.mem_reverse.1 ((List.takeWhile_prefix _).subset hc))

/-- So does the type name made of a name. -/
theorem forall_mem_pascal {p : Char → Prop} (hp : KeptByCasing p) {s : String}
    (h : ∀ c ∈ s.toList, p c) : ∀ c ∈ (pascal s).toList, p c := by
  intro d hd
  rw [pascal, String.toList_ofList, List.mem_flatMap] at hd
  obtain ⟨word, hword, hd⟩ := hd
  have hmem : ∀ c ∈ word, p c := by
    exact fun c hc => h c (mem_of_mem_splitOnP hword hc).1
  cases word with
  | nil => simp [raise] at hd
  | cons c cs =>
    rw [raise, List.mem_append] at hd
    rcases hd with hd | hd
    · exact forall_mem_upperChar hp (hmem c (List.mem_cons_self ..)) d hd
    · exact hmem d (List.mem_cons_of_mem _ hd)

end Lexgen.Name
