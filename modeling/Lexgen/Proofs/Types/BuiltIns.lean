/-
# Declared names and the built-in types

Values without structure have types that are built into the language, and two of these have names
like those of declarations (`mem_builtInTypes_of_keyword`). Nothing keeps them from being declared:
the type name of a definition can be one of them, and so can the name that a repeated object is
given at the place where it is first met. In all other ways a name is given an ending or a number,
and with that it is no name of a built-in type (`ne_of_ends`), so these two are the only ones
(`mem_names_iff_captured`).

Key definitions: `builtInTypes`, `Captured`.
Key theorems: `mem_builtInTypes_of_keyword`, `mem_names_iff_captured`.
-/
import Lexgen.Proofs.Types.Emission
import Lexgen.Proofs.Types.Names

namespace Lexgen.Types

open Lexgen.Data Lexgen.Lexicon Lexgen.TypeScript

/-- The built-in types that could have been declared as well. -/
def builtInTypes : List String := ["Record", "Uint8Array"]

/-- Whether a text has a capital letter. -/
def hasCapital (s : String) : Bool := s.toList.any Char.isUpper

/-- The capital letters in the type of a keyword are those of a built-in type in front. -/
theorem mem_builtInTypes_of_keyword (k : Keyword) : hasCapital (keywordType k) = false ∨
    ∃ name ∈ builtInTypes, ∃ rest, keywordType k = name ++ rest ∧ hasCapital rest = false := by
  cases k with
  | bytes => exact .inr ⟨"Uint8Array", by decide, "", rfl, by decide⟩
  | object => exact .inr ⟨"Record", by decide, "<string, any>", rfl, by decide⟩
  | params => exact .inr ⟨"Record", by decide, "<string, any>", rfl, by decide⟩
  | other word => exact .inl (show hasCapital anyType = false by decide)
  | _ => exact .inl (by decide)

/-! ### Names with endings and numbers -/

variable {l : Lexicon} {name stem ending : String}

/-- The built-in types do not end in what is put behind names. -/
theorem ne_of_ends {c : Char} (hname : name ∈ builtInTypes)
    (hends : ending.toList.getLast? = some c) (hc : c ≠ 'd' ∧ c ≠ 'y') :
    name ≠ stem ++ ending := by
  rintro rfl
  have hlast : (stem ++ ending).toList.getLast? = some c := by
    rw [String.toList_append, List.getLast?_append, hends]
    rfl
  simp only [builtInTypes, List.mem_cons, List.not_mem_nil, or_false] at hname
  rcases hname with h | h
  · rw [h] at hlast
    exact hc.1 (Option.some.inj hlast).symm
  · rw [h] at hlast
    exact hc.2 (Option.some.inj hlast).symm

theorem ne_append_part (hname : name ∈ builtInTypes) (part : OperationPart) :
    name ≠ stem ++ part.ending := by
  cases part with
  | params => exact ne_of_ends hname (c := 's') rfl (by decide)
  | input => exact ne_of_ends hname (c := 't') rfl (by decide)
  | output => exact ne_of_ends hname (c := 't') rfl (by decide)
  | message => exact ne_of_ends hname (c := 'e') rfl (by decide)
  | errors => exact ne_of_ends hname (c := 'r') rfl (by decide)

theorem ne_append_number (hname : name ∈ builtInTypes) (k : Nat) : name ≠ stem ++ toString k := by
  have hdigits : (toString k).toList = Nat.toDigits 10 k := by
    rw [Nat.toString_eq_repr, Nat.toList_repr]
  cases hlast : (toString k).toList.getLast? with
  | none =>
    rw [List.getLast?_eq_none_iff, hdigits] at hlast
    exact absurd hlast Nat.toDigits_ne_nil
  | some c =>
    have hmem : c ∈ Nat.toDigits 10 k := hdigits ▸ List.mem_of_getLast? hlast
    have hdigit : c.isDigit = true := Nat.isDigit_of_mem_toDigits (by decide) (by decide) hmem
    refine ne_of_ends hname hlast ⟨?_, ?_⟩
    · rintro rfl
      cases hdigit
    · rintro rfl
      cases hdigit

/-! ### What declares a built-in type -/

/-- A built-in type that the module of a lexicon declares anew: as a definition that is no
operation, or as a repeated object that is given just this name where it is first met. -/
inductive Captured (l : Lexicon) (name : String) : Prop where
  | definition {e : String × Definition} : e ∈ l.defs.entries → e.2.isOperation = false →
    l.typeName e.1 = name → Captured l name
  | object {drafts : List Draft} {o : Lifted} : allDrafts l = .ok drafts →
    o ∈ Draft.liftAll (Naming.ofDrafts drafts) [] drafts → o.name = name →
    ⟨o.key, name⟩ ∈ repeatedObjects (drafts.flatMap Draft.occurrences) → Captured l name

/-- An object that is named in turn has its candidate as its name, or the candidate with a
number. -/
theorem NamedInTurn.exists_firstFree {taken : List String} {os : List Occurrence} {n : Naming}
    (h : NamedInTurn taken os n) : ∀ e ∈ n, ∃ o ∈ os, o.key = e.1 ∧
      ∃ taken', FirstFree taken' o.candidate e.2 := by
  induction h with
  | nil => simp
  | cons hf _ ih =>
    intro e he
    rcases List.mem_cons.mp he with rfl | he
    · exact ⟨_, List.mem_cons_self, rfl, _, hf⟩
    · obtain ⟨o, ho, hnamed⟩ := ih e he
      exact ⟨o, List.mem_cons_of_mem _ ho, hnamed⟩

/-- A definition declares a built-in type as its type name only. -/
theorem mem_declaredNames_iff (hname : name ∈ builtInTypes) {e : String × Definition} :
    name ∈ declaredNames l e ↔ e.2.isOperation = false ∧ l.typeName e.1 = name := by
  rw [declaredNames, List.mem_map]
  cases hkind : e.2.isOperation with
  | true =>
    rw [endings_of_isOperation hkind]
    refine iff_of_false ?_ (by simp)
    rintro ⟨ending, hending, heq⟩
    obtain ⟨part, -, rfl⟩ := List.mem_map.mp hending
    exact ne_append_part hname part heq.symm
  | false =>
    rw [endings_of_not_isOperation hkind]
    simp

/-- A lifted object that is called like a built-in type is given that name where it is first
met. -/
theorem mem_repeatedObjects_of_name {drafts : List Draft} {o : Lifted}
    (ho : o ∈ Draft.liftAll (Naming.ofDrafts drafts) [] drafts) (hname : o.name ∈ builtInTypes) :
    ⟨o.key, o.name⟩ ∈ repeatedObjects (drafts.flatMap Draft.occurrences) := by
  obtain ⟨first, hfirst, hkey, taken, hfree⟩ := (namedInTurn_ofDrafts drafts).exists_firstFree _
    (mem_of_lookup_eq_some (lookup_key_of_mem_liftAll ho))
  rcases hfree with ⟨-, heq⟩ | ⟨-, -, k, -, heq, -⟩
  · have heq : o.name = first.candidate := heq
    have hkey : first.key = o.key := hkey
    rwa [← hkey, heq]
  · exact absurd heq (ne_append_number hname k)

/-- **When a module declares a built-in type.** -/
theorem mem_names_iff_captured {ds : List Declaration} (h : declarations l = .ok ds)
    (hname : name ∈ builtInTypes) : name ∈ ds.map Declaration.name ↔ Captured l name := by
  obtain ⟨drafts, hdrafts, -, -, rfl⟩ := declarations_eq_ok_iff.mp h
  obtain ⟨primary, hprimary, hnames⟩ := names_allDrafts hdrafts
  rw [names_declare, hnames, List.mem_append, List.mem_flatMap, List.mem_map]
  simp only [mem_primary_supporting_iff hprimary, mem_declaredNames_iff hname]
  constructor
  · rintro (⟨e, he, hkind, heq⟩ | ⟨o, ho, rfl⟩)
    · exact .definition he hkind heq
    · exact .object hdrafts ho rfl (mem_repeatedObjects_of_name ho hname)
  · rintro (⟨he, hkind, heq⟩ | ⟨hdrafts', ho, heq, -⟩)
    · exact .inl ⟨_, he, hkind, heq⟩
    · cases Except.ok.inj (hdrafts.symm.trans hdrafts')
      exact .inr ⟨_, ho, heq⟩

/-- A lexicon with an object that is repeated and first met as the array of `uint8`. -/
def bytesNotes : Lexicon :=
  let point := objectSchema [("at", textSchema)]
  noteLexicon [("main", recordOf [("data", ⟨{ keyword := some .bytes }, [], none⟩)]),
    ("uint8", .schema (objectSchema [("array", point), ("other", point)]))]

/-- The object is called like the type of bytes. -/
example : (declarations bytesNotes).map (·.map Declaration.name) =
    .ok ["Note", "Uint8", "Uint8Array"] := by rfl

end Lexgen.Types
