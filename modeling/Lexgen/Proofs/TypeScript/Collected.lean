/-
# The statements for collected names

However the mentions of names mix modules and ways, the statements for imports are those of the
ways in which some name is mentioned, module by module in the order of first mention, and a
statement lists the names of its way, each once and in the order of their bytes
(`forall₂_lists_ofMentions`). So nothing else about the mentions counts: neither their order within
a module nor how often one is repeated (`collected_ofMentions`).

Key definitions: `Mention`, `mentionedModules`, `Imports.ofMentions`, `mentionedWays`, `Lists`.
Key theorems: `takes_ofMentions_iff`, `names_ofMentions`, `forall₂_lists_ofMentions`,
`collected_ofMentions`.
-/
import Lexgen.Proofs.Data.Distinct
import Lexgen.Proofs.Text.ByteOrder
import Lexgen.Proofs.TypeScript.Imports
import Mathlib.Data.List.Forall2

namespace Lexgen.Data

variable {α : Type}

/-- A name is put at the end if it is new. -/
theorem names_putEntry (name : String) (value : α) : ∀ es : List (String × α),
    (putEntry name value es).map Prod.fst =
      if name ∈ es.map Prod.fst then es.map Prod.fst else es.map Prod.fst ++ [name]
  | [] => rfl
  | (k, v) :: rest => by
    rw [putEntry]
    split
    · next h =>
      subst h
      simp
    · next h =>
      have hne : name ≠ k := Ne.symm h
      rw [List.map_cons, names_putEntry name value rest, List.map_cons]
      simp only [List.mem_cons, hne, false_or]
      split <;> rfl

end Lexgen.Data

namespace Lexgen.Code

open Lexgen.Data

/-- A name that is mentioned, and the way in which it is taken. -/
structure Mention where
  way : Way
  name : String
deriving DecidableEq

/-- The mentioned modules, in the order of first mention. -/
def mentionedModules (ms : List Mention) : List String := (ms.map (·.way.module)).eraseDups

namespace Imports

/-- Take a name in a way. -/
def take (i : Imports) (m : Mention) : Imports :=
  if m.way.typeOnly then i.addType m.way.module m.name else i.addValue m.way.module m.name

/-- What is imported after some mentions, the first of them first. -/
def ofMentions (ms : List Mention) : Imports := ms.foldl take empty

theorem ofMentions_concat (ms : List Mention) (m : Mention) :
    ofMentions (ms ++ [m]) = (ofMentions ms).take m := by
  rw [ofMentions, List.foldl_append]
  rfl

theorem takes_take_iff {i : Imports} {m : Mention} {w : Way} {x : String} :
    (i.take m).Takes w x ↔ m = ⟨w, x⟩ ∨ i.Takes w x := by
  obtain ⟨⟨module, typeOnly⟩, name⟩ := m
  cases typeOnly with
  | false =>
    refine takes_addValue_iff.trans (or_congr_left ?_)
    rw [Mention.mk.injEq, eq_comm, @eq_comm _ x]
  | true =>
    refine takes_addType_iff.trans (or_congr_left ?_)
    rw [Mention.mk.injEq, eq_comm, @eq_comm _ x]

/-- **A name is taken in a way** exactly if it is mentioned so. -/
theorem takes_ofMentions_iff {ms : List Mention} {w : Way} {x : String} :
    (ofMentions ms).Takes w x ↔ ⟨w, x⟩ ∈ ms := by
  induction ms using List.reverseRecOn with
  | nil =>
    refine iff_of_false ?_ List.not_mem_nil
    exact not_takes_empty
  | append_singleton ms m ih =>
    rw [ofMentions_concat, takes_take_iff, ih, List.mem_append, List.mem_singleton, or_comm,
      @eq_comm _ m]

theorem names_take (i : Imports) (m : Mention) : (i.take m).modules.names =
    if m.way.module ∈ i.modules.names then i.modules.names
    else i.modules.names ++ [m.way.module] := by
  rw [take]
  split
  · exact names_putEntry m.way.module _ i.modules.entries
  · exact names_putEntry m.way.module _ i.modules.entries

/-- The modules stand in the order of first mention. -/
theorem names_ofMentions (ms : List Mention) :
    (ofMentions ms).modules.names = mentionedModules ms := by
  induction ms using List.reverseRecOn with
  | nil => rfl
  | append_singleton ms m ih =>
    rw [ofMentions_concat, names_take, ih, mentionedModules, mentionedModules, List.map_append,
      List.map_singleton, eraseDups_concat]
    simp only [List.mem_eraseDups]

end Imports

/-- The ways in which names are mentioned: module by module, the values in front of the types. -/
def mentionedWays (ms : List Mention) : List Way :=
  ((mentionedModules ms).flatMap fun module => [⟨module, false⟩, ⟨module, true⟩]).filter
    fun w => w ∈ ms.map Mention.way

end Lexgen.Code

namespace Lexgen.TypeScript

open Lexgen.Code Lexgen.Data Lexgen.Text

/-- The statement of a way lists the names that are mentioned so, each once, in the order of their
bytes. -/
structure Lists (ms : List Mention) (w : Way) (i : Import) : Prop where
  source : i.source = w.module
  typeOnly : i.typeOnly = w.typeOnly
  mem_names : ∀ x, x ∈ i.names ↔ ⟨w, x⟩ ∈ ms
  increasing : i.names.Pairwise fun x y => bytes x < bytes y

/-- The names of a set are in the order of their bytes. -/
theorem pairwise_bytes_names (s : NameSet) :
    s.names.Pairwise fun x y => bytes x < bytes y :=
  List.pairwise_map.mpr (s.increasing.imp lt_iff_bytes_lt.mp)

/-- Two lists in the order of their bytes that have the same elements are equal. -/
theorem eq_of_pairwise_bytes {xs ys : List String} (hxs : xs.Pairwise fun x y => bytes x < bytes y)
    (hys : ys.Pairwise fun x y => bytes x < bytes y) (hmem : ∀ x, x ∈ xs ↔ x ∈ ys) : xs = ys := by
  have hnodup {zs : List String} (h : zs.Pairwise fun x y => bytes x < bytes y) : zs.Nodup := by
    refine h.imp ?_
    rintro x y hlt rfl
    exact absurd hlt (List.lt_irrefl _)
  have hperm := (List.perm_ext_iff_of_nodup (hnodup hxs) (hnodup hys)).mpr hmem
  refine hperm.eq_of_pairwise ?_ hxs hys
  intro x y _ _ hlt hgt
  exact absurd hgt (List.lt_asymm hlt)

/-- Only one statement lists the names of a way. -/
theorem rightUnique_lists (ms : List Mention) : Relator.RightUnique (Lists ms) := by
  intro w i j hi hj
  have hnames : i.names = j.names := by
    refine eq_of_pairwise_bytes hi.increasing hj.increasing fun x => ?_
    rw [hi.mem_names, hj.mem_names]
  obtain ⟨source, names, typeOnly⟩ := i
  rw [Import.mk.injEq]
  exact ⟨hi.source.trans hj.source.symm, hnames, hi.typeOnly.trans hj.typeOnly.symm⟩

/-- Only which names are mentioned in a way counts for its statement. -/
theorem Lists.congr {ms ms' : List Mention} (hsame : ∀ m, m ∈ ms ↔ m ∈ ms') {w : Way} {i : Import}
    (h : Lists ms w i) : Lists ms' w i :=
  ⟨h.source, h.typeOnly, fun x => (h.mem_names x).trans (hsame _), h.increasing⟩

/-- The statements are those of the ways with names. -/
theorem ofImports_eq (i : Imports) : Import.ofImports i =
    ((ways i).filter fun g => !g.2.isEmpty).map fun g => ⟨g.1.module, g.2, g.1.typeOnly⟩ := by
  have hone (source : String) (names : NameSet) (typeOnly : Bool) :
      (if names.entries.isEmpty then [] else [(⟨source, names.names, typeOnly⟩ : Import)]) =
        (([((⟨source, typeOnly⟩ : Way), names.names)].filter fun g => !g.2.isEmpty).map
          fun g => ⟨g.1.module, g.2, g.1.typeOnly⟩) := by
    have hempty : names.names.isEmpty = names.entries.isEmpty := List.isEmpty_map
    cases h : names.entries.isEmpty <;> simp [List.filter, hempty, h]
  rw [Import.ofImports, ways, List.filter_flatMap, List.map_flatMap]
  refine congrArg (List.flatMap · _) (funext fun e => ?_)
  rw [Import.ofSymbols, hone, hone, ← List.map_append, ← List.filter_append]
  rfl

/-- Each way stands with the names that are mentioned so. -/
theorem mem_of_mem_ways {ms : List Mention} {w : Way} {names : List String}
    (h : (w, names) ∈ ways (Imports.ofMentions ms)) (x : String) :
    x ∈ names ↔ ⟨w, x⟩ ∈ ms := by
  rw [← Imports.takes_ofMentions_iff, takes_iff]
  constructor
  · exact fun hx => ⟨names, h, hx⟩
  · rintro ⟨names', h', hx⟩
    -- A way stands in the list only once, so that its names are these.
    have heq := List.inj_on_of_nodup_map (nodup_ways _) h' h rfl
    cases heq
    exact hx

theorem map_fst_ways (i : Imports) : (ways i).map Prod.fst =
    i.modules.names.flatMap fun module => [⟨module, false⟩, ⟨module, true⟩] := by
  rw [ways, List.map_flatMap, Ordered.names, List.flatMap_map]
  rfl

/-- **The statements are those of the mentioned ways**, in their order, and each lists its names. -/
theorem forall₂_lists_ofMentions (ms : List Mention) :
    List.Forall₂ (Lists ms) (mentionedWays ms) (Import.ofImports (Imports.ofMentions ms)) := by
  set i := Imports.ofMentions ms with hi
  have hways : mentionedWays ms = ((ways i).filter fun g => !g.2.isEmpty).map Prod.fst := by
    rw [mentionedWays, ← Imports.names_ofMentions, ← map_fst_ways, List.filter_map]
    refine congrArg (List.map Prod.fst) (List.filter_congr ?_)
    rintro ⟨w, names⟩ hg
    have hnames := mem_of_mem_ways hg
    rw [Bool.eq_iff_iff]
    simp only [Function.comp_apply, decide_eq_true_eq, Bool.not_eq_true', List.mem_map,
      List.isEmpty_eq_false_iff_exists_mem]
    constructor
    · rintro ⟨⟨w', x⟩, hm, rfl⟩
      exact ⟨x, (hnames x).mpr hm⟩
    · rintro ⟨x, hx⟩
      exact ⟨⟨w, x⟩, (hnames x).mp hx, rfl⟩
  rw [hways, ofImports_eq, List.forall₂_map_left_iff, List.forall₂_map_right_iff, List.forall₂_same]
  intro g hg
  have hmem := (List.mem_filter.mp hg).1
  refine ⟨rfl, rfl, mem_of_mem_ways hmem, ?_⟩
  obtain ⟨e, -, he⟩ := List.mem_flatMap.mp hmem
  simp only [List.mem_cons, List.not_mem_nil, or_false] at he
  rcases he with rfl | rfl
  · exact pairwise_bytes_names e.2.values
  · exact pairwise_bytes_names e.2.types

/-- **Collected imports are complete and canonical.** The statements are those of the mentioned
ways, in their order, and each lists the names of its way; and mentions of the same names in the
same ways, with the modules in the same order of first mention, give the same statements. -/
theorem collected_ofMentions (ms : List Mention) :
    List.Forall₂ (Lists ms) (mentionedWays ms) (Import.ofImports (Imports.ofMentions ms)) ∧
    ∀ ms' : List Mention, (∀ m, m ∈ ms ↔ m ∈ ms') →
      mentionedModules ms = mentionedModules ms' →
      Import.ofImports (Imports.ofMentions ms) = Import.ofImports (Imports.ofMentions ms') := by
  have hlists := forall₂_lists_ofMentions
  refine ⟨hlists ms, fun ms' hsame horder => ?_⟩
  have hways : mentionedWays ms' = mentionedWays ms := by
    simp only [mentionedWays, List.mem_map, hsame, horder]
  have hlists' := (hlists ms').imp fun _ _ h => h.congr fun m => (hsame m).symm
  rw [hways] at hlists'
  exact (rightUnique_lists ms).forall₂ (hlists ms) hlists'

/-- Names of two modules, the values and types of one of them mixed. -/
def mixedMentions : List Mention := [⟨⟨"../sdk", true⟩, "PutResponse"⟩,
  ⟨⟨"../types", true⟩, "Note"⟩, ⟨⟨"../sdk", false⟩, "getUser"⟩, ⟨⟨"../sdk", true⟩, "GetResponse"⟩,
  ⟨⟨"../sdk", true⟩, "PutResponse"⟩]

/-- The same names, tidied up. -/
def tidyMentions : List Mention := [⟨⟨"../sdk", false⟩, "getUser"⟩,
  ⟨⟨"../sdk", true⟩, "GetResponse"⟩, ⟨⟨"../sdk", true⟩, "PutResponse"⟩,
  ⟨⟨"../types", true⟩, "Note"⟩]

theorem collected_mixedMentions :
    (∀ m, m ∈ mixedMentions ↔ m ∈ tidyMentions) ∧
    mentionedModules mixedMentions = mentionedModules tidyMentions ∧
    Import.ofImports (Imports.ofMentions mixedMentions) =
      Import.ofImports (Imports.ofMentions tidyMentions) ∧
    Import.ofImports (Imports.ofMentions tidyMentions) = [⟨"../sdk", ["getUser"], false⟩,
      ⟨"../sdk", ["GetResponse", "PutResponse"], true⟩, ⟨"../types", ["Note"], true⟩] := by
  have hsame (m : Mention) : m ∈ mixedMentions ↔ m ∈ tidyMentions := by
    simp only [mixedMentions, tidyMentions, List.mem_cons, List.not_mem_nil]
    grind
  have horder : mentionedModules mixedMentions = mentionedModules tidyMentions := by decide
  exact ⟨hsame, horder, (collected_ofMentions mixedMentions).2 tidyMentions hsame horder, by decide⟩

end Lexgen.TypeScript
