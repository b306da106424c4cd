/-
# The names that a module imports

A name can be taken from several modules, and from one module as a value and as a type. A statement
for imports lists the names that are taken in one of these ways, each once. So no name is imported
twice exactly if none is taken in two ways (`nodup_importedNames_iff`), and in which ways a name is
taken follows along the steps that collect it (`takes_addValues_iff`, `takes_addTypes_iff`).

Key definitions: `Way`, `Imports.Takes`, `importedNames`.
Key theorems: `takes_addValues_iff`, `takes_addTypes_iff`, `mem_importedNames_iff`,
`nodup_importedNames_iff`.
-/
import Lexgen.TypeScript.Module
import Mathlib.Data.List.Nodup
import Mathlib.Data.List.Pairwise

namespace Lexgen.Code

open Lexgen.Data

/-- A way to take a name: from which module, and whether it is used as a type only. -/
structure Way where
  module : String
  typeOnly : Bool
deriving DecidableEq

/-- The names that are taken from a module as types only, or as values. -/
def Symbols.names (s : Symbols) (typeOnly : Bool) : List String :=
  if typeOnly then s.types.names else s.values.names

namespace Imports

variable {i : Imports} {w : Way} {module name x : String}

/-- Whether a name is taken in a way. -/
def Takes (i : Imports) (w : Way) (name : String) : Prop :=
  ∃ s, i.modules.get? w.module = some s ∧ name ∈ s.names w.typeOnly

@[simp] theorem not_takes_empty : ¬ empty.Takes w name := by
  rintro ⟨s, hs, -⟩
  cases hs

/-- One more name of a module is taken in one way. -/
theorem takes_update_iff {typeOnly : Bool} {f : Symbols → Symbols}
    (hf : ∀ s k, x ∈ (f s).names k ↔ (k = typeOnly ∧ x = name) ∨ x ∈ s.names k) :
    Takes ⟨i.modules.update module {} f⟩ w x ↔
      (w = ⟨module, typeOnly⟩ ∧ x = name) ∨ i.Takes w x := by
  obtain ⟨source, k⟩ := w
  have hnothing : x ∉ ({} : Symbols).names k := by cases k <;> exact List.not_mem_nil
  simp only [Takes, Ordered.get?_update, Way.mk.injEq]
  by_cases hsource : source = module
  · subst hsource
    rw [if_pos rfl]
    simp only [Option.some.injEq, exists_eq_left', hf, true_and]
    refine or_congr_right ?_
    cases i.modules.get? source with
    | none => simpa using hnothing
    | some s => simp
  · simp [hsource]

@[simp] theorem takes_addValue_iff : (i.addValue module name).Takes w x ↔
    (w = ⟨module, false⟩ ∧ x = name) ∨ i.Takes w x := by
  refine takes_update_iff fun s k => ?_
  cases k <;> simp [Symbols.names]

@[simp] theorem takes_addType_iff : (i.addType module name).Takes w x ↔
    (w = ⟨module, true⟩ ∧ x = name) ∨ i.Takes w x := by
  refine takes_update_iff fun s k => ?_
  cases k <;> simp [Symbols.names]

/-- Several names are taken in one way. -/
theorem takes_foldl_iff {take : Imports → String → Imports} {way : Way}
    (h : ∀ i name, (take i name).Takes w x ↔ (w = way ∧ x = name) ∨ i.Takes w x) :
    ∀ {names : List String} {i : Imports},
      (names.foldl take i).Takes w x ↔ (w = way ∧ x ∈ names) ∨ i.Takes w x
  | [], i => by simp
  | name :: rest, i => by
    rw [List.foldl_cons, takes_foldl_iff h, h, List.mem_cons]
    grind

variable {names : List String}

@[simp] theorem takes_addValues_iff : (i.addValues module names).Takes w x ↔
    (w = ⟨module, false⟩ ∧ x ∈ names) ∨ i.Takes w x :=
  takes_foldl_iff fun _ _ => takes_addValue_iff

@[simp] theorem takes_addTypes_iff : (i.addTypes module names).Takes w x ↔
    (w = ⟨module, true⟩ ∧ x ∈ names) ∨ i.Takes w x :=
  takes_foldl_iff fun _ _ => takes_addType_iff

end Imports

end Lexgen.Code

namespace Lexgen.TypeScript

open Lexgen.Code Lexgen.Data

/-- The names in the statements for imports, in order. -/
def importedNames (i : Imports) : List String := (Import.ofImports i).flatMap Import.names

/-- The ways to take names, with the names taken in each of them. -/
def ways (i : Imports) : List (Way × List String) :=
  i.modules.entries.flatMap fun e =>
    [(⟨e.1, false⟩, e.2.names false), (⟨e.1, true⟩, e.2.names true)]

variable {i : Imports} {name : String}

theorem takes_iff {w : Way} : i.Takes w name ↔ ∃ names, (w, names) ∈ ways i ∧ name ∈ names := by
  obtain ⟨source, typeOnly⟩ := w
  constructor
  · rintro ⟨s, hs, hname⟩
    refine ⟨_, List.mem_flatMap.2 ⟨(source, s), Ordered.get?_eq_some_iff.1 hs, ?_⟩, hname⟩
    cases typeOnly <;> simp
  · rintro ⟨names, hnames, hname⟩
    obtain ⟨⟨source', s⟩, he, hmem⟩ := List.mem_flatMap.1 hnames
    have hs := Ordered.get?_eq_some_iff.2 he
    simp only [List.mem_cons, Prod.mk.injEq, Way.mk.injEq, List.not_mem_nil, or_false] at hmem
    rcases hmem with ⟨⟨rfl, rfl⟩, rfl⟩ | ⟨⟨rfl, rfl⟩, rfl⟩
    · exact ⟨s, hs, hname⟩
    · exact ⟨s, hs, hname⟩

/-- The statements list the names way by way. -/
theorem importedNames_eq (i : Imports) : importedNames i = (ways i).flatMap Prod.snd := by
  have hone (source : String) (s : Symbols) :
      (Import.ofSymbols source s).flatMap Import.names = s.names false ++ s.names true := by
    have hnone {t : NameSet} (h : t.entries.isEmpty = true) : t.names = [] := by
      rw [Sorted.names, List.isEmpty_iff.1 h, List.map_nil]
    rw [Import.ofSymbols, List.flatMap_append]
    congr 1
    · split
      · next h => exact (hnone h).symm
      · exact List.flatMap_singleton ..
    · split
      · next h => exact (hnone h).symm
      · exact List.flatMap_singleton ..
  rw [importedNames, Import.ofImports, ways, List.flatMap_assoc, List.flatMap_assoc]
  refine congrArg (List.flatMap · _) (funext fun e => ?_)
  rw [hone]
  simp

theorem mem_importedNames_iff : name ∈ importedNames i ↔ ∃ w, i.Takes w name := by
  rw [importedNames_eq, List.mem_flatMap]
  simp only [takes_iff]
  grind

/-- Groups under different keys, none of which has an element twice, have no element twice between
them exactly if no element is in two of them. -/
theorem nodup_flatMap_snd_iff {κ α : Type} {groups : List (κ × List α)}
    (hkeys : (groups.map Prod.fst).Nodup) (heach : ∀ g ∈ groups, g.2.Nodup) :
    (groups.flatMap Prod.snd).Nodup ↔
      ∀ g ∈ groups, ∀ g' ∈ groups, ∀ x ∈ g.2, x ∈ g'.2 → g.1 = g'.1 := by
  rw [List.nodup_flatMap]
  constructor
  · rintro ⟨-, hapart⟩ g hg g' hg' x hx hx'
    have : Std.Symm (Function.onFun List.Disjoint (Prod.snd : κ × List α → List α)) :=
      ⟨fun _ _ h x hx hx' => h hx' hx⟩
    by_contra hne
    exact hapart.forall hg hg' (fun he => hne (he ▸ rfl)) hx hx'
  · intro h
    refine ⟨heach, (List.pairwise_map.1 hkeys).imp_of_mem fun hg hg' hne => ?_⟩
    exact fun x hx hx' => hne (h _ hg _ hg' x hx hx')

/-- No way has two lists of names. -/
theorem nodup_ways (i : Imports) : ((ways i).map Prod.fst).Nodup := by
  rw [ways, List.map_flatMap, List.nodup_flatMap]
  refine ⟨fun e _ => by simp, ?_⟩
  refine (List.pairwise_map.1 i.modules.nodup).imp fun hne => ?_
  simpa [Function.onFun] using Ne.symm hne

/-- **No name is imported twice** exactly if none is taken in two ways. -/
theorem nodup_importedNames_iff : (importedNames i).Nodup ↔
    ∀ name w w', i.Takes w name → i.Takes w' name → w = w' := by
  have heach : ∀ g ∈ ways i, g.2.Nodup := by
    intro g hg
    obtain ⟨e, -, he⟩ := List.mem_flatMap.1 hg
    simp only [List.mem_cons, List.not_mem_nil, or_false] at he
    rcases he with rfl | rfl
    · exact e.2.values.nodup_names
    · exact e.2.types.nodup_names
  rw [importedNames_eq, nodup_flatMap_snd_iff (nodup_ways i) heach]
  simp only [takes_iff]
  constructor
  · rintro h name w w' ⟨names, hw, hname⟩ ⟨names', hw', hname'⟩
    exact h _ hw _ hw' name hname hname'
  · intro h g hg g' hg' name hname hname'
    exact h name g.1 g'.1 ⟨g.2, hg, hname⟩ ⟨g'.2, hg', hname'⟩

end Lexgen.TypeScript
