/-
# The lexicon known of a client module

The entity of an id is read back from the file name of its client module: what was added at the end
is taken off again, and lowering the entity a second time changes nothing
(`entityOfClientFile_clientFileOf`). A client module that neither the manifest nor its own text
names a collection for gets the lexicon known of its entity. Of the keys that a project has for an
entity, in whatever case, the last one in the order of bytes counts, and then the built-in ones
(`get?_knownWith`).

Key definitions: `HasKeyFor`, `LastFor`, `KnownFor`.
Key theorems: `entityOfClientFile_clientFileOf`, `get?_knownWith`, `fallback_clientFileOf`.
-/
import Lexgen.Proofs.Client.Latest
import Lexgen.Proofs.Text.ByteOrder
import Lexgen.Proofs.Text.Casing

namespace Lexgen.Routes

open Lexgen.Client Lexgen.Data Lexgen.Name Lexgen.Text

/-! ### Entities and file names -/

/-- An ending that was added is taken off again. -/
theorem withoutEnding_append (ending : String) (cs : List Char) :
    withoutEnding ending (cs ++ ending.toList) = cs := by
  have htaken : ending.toList.isSuffixOf? (cs ++ ending.toList) = some cs :=
    List.isSuffixOf?_eq_some_iff_append_eq.mpr rfl
  rw [withoutEnding, htaken]
  rfl

/-- **The entity is read back** from the file name of the client module. -/
theorem entityOfClientFile_clientFileOf (id : String) :
    entityOfClientFile (clientFileOf id) = entityOf id := by
  have hchars : (clientFileOf id).toList =
      (entityOf id).toList ++ clientEnding.toList ++ moduleExtension.toList := by
    simp [clientFileOf, Entity.clientFile, Entity.ofId]
  rw [entityOfClientFile, hchars, withoutEnding_append, withoutEnding_append, String.ofList_toList]
  exact lower_lower _

/-! ### Keys in any case -/

/-- Whether a table has a key that is, in lower case, an entity. -/
def HasKeyFor (t : Sorted String) (entity : String) : Prop :=
  ∃ e ∈ t.entries, lower e.1 = entity

/-- The value of the last key, in the order of bytes, that is in lower case an entity. -/
def LastFor (t : Sorted String) (entity id : String) : Prop :=
  ∃ key, (key, id) ∈ t.entries ∧ lower key = entity ∧
    ∀ e ∈ t.entries, lower e.1 = entity → e.1 ≠ key → bytes e.1 < bytes key

/-- The lexicon that is known of an entity: the one that the project has, or the built-in one. -/
def KnownFor (own : Sorted String) (entity id : String) : Prop :=
  LastFor own entity id ∨ ¬ HasKeyFor own entity ∧ LastFor builtIn entity id

/-- The last of increasing entries is the one that all others come before. -/
theorem getLast?_eq_some_iff_of_increasing {es : List (String × String)}
    (h : es.Pairwise (·.1 < ·.1)) {e : String × String} :
    es.getLast? = some e ↔ e ∈ es ∧ ∀ d ∈ es, d.1 ≠ e.1 → d.1 < e.1 := by
  constructor
  · intro hlast
    obtain ⟨front, rfl⟩ := List.getLast?_eq_some_iff.mp hlast
    refine ⟨by simp, fun d hd hne => ?_⟩
    rcases List.mem_append.mp hd with hd | hd
    · exact (List.pairwise_append.mp h).2.2 d hd e (List.mem_singleton_self e)
    · rw [List.mem_singleton.mp hd] at hne
      exact absurd rfl hne
  · rintro ⟨hmem, hbefore⟩
    obtain ⟨front, back, rfl⟩ := List.append_of_mem hmem
    obtain ⟨-, hback, -⟩ := List.pairwise_append.mp h
    cases back with
    | nil => simp
    | cons d back =>
      -- An entry behind `e` would have to come before it.
      have hlt : e.1 < d.1 := (List.pairwise_cons.mp hback).1 d (List.mem_cons_self ..)
      have hne : d.1 ≠ e.1 := fun heq => absurd (heq ▸ hlt) (String.lt_irrefl _)
      exact absurd (String.lt_trans hlt (hbefore d (by simp) hne)) (String.lt_irrefl _)

/-- The entries of a table for an entity. -/
def entriesFor (t : Sorted String) (entity : String) : List (String × String) :=
  t.entries.filter fun e => lower e.1 == entity

theorem getLast?_entriesFor_eq_some_iff {t : Sorted String} {entity id : String} :
    (entriesFor t entity).getLast?.map Prod.snd = some id ↔ LastFor t entity id := by
  have hincreasing := t.increasing.filter fun e => lower e.1 == entity
  rw [Option.map_eq_some_iff]
  constructor
  · rintro ⟨⟨key, id⟩, hlast, rfl⟩
    obtain ⟨hmem, hbefore⟩ := (getLast?_eq_some_iff_of_increasing hincreasing).mp hlast
    obtain ⟨hentry, hkey⟩ := List.mem_filter.mp hmem
    refine ⟨key, hentry, by simpa using hkey, fun e he hlower hne => ?_⟩
    exact lt_iff_bytes_lt.mp (hbefore e (List.mem_filter.mpr ⟨he, by simpa using hlower⟩) hne)
  · rintro ⟨key, hentry, hkey, hbefore⟩
    refine ⟨(key, id), (getLast?_eq_some_iff_of_increasing hincreasing).mpr ⟨?_, ?_⟩, rfl⟩
    · exact List.mem_filter.mpr ⟨hentry, by simpa using hkey⟩
    · intro d hd hne
      obtain ⟨hd, hlower⟩ := List.mem_filter.mp hd
      exact lt_iff_bytes_lt.mpr (hbefore d hd (by simpa using hlower) hne)

theorem getLast?_entriesFor_eq_none_iff {t : Sorted String} {entity : String} :
    (entriesFor t entity).getLast?.map Prod.snd = none ↔ ¬ HasKeyFor t entity := by
  rw [Option.map_eq_none_iff, List.getLast?_eq_none_iff, entriesFor, List.filter_eq_nil_iff]
  simp [HasKeyFor]

theorem lower_builtIn : ∀ e ∈ builtIn.entries, lower e.1 = e.1 := by decide +kernel

/-- The built-in keys are in lower case, so that an entity is looked up as it is. -/
theorem get?_builtIn (entity : String) :
    builtIn.get? entity = (entriesFor builtIn entity).getLast?.map Prod.snd := by
  have hsame : entriesFor builtIn entity = builtIn.entries.filter (·.1 == entity) :=
    List.filter_congr fun e he => by rw [lower_builtIn e he]
  conv_lhs => rw [← builtIn.ofList_entries, Sorted.ofList, Sorted.get?_insertAll]
  rw [hsame]
  exact Option.or_none

/-- **The known lexicons of a project**: its own, the last key for an entity counting, in front of
the built-in ones. -/
theorem get?_knownWith (own : Sorted String) (entity : String) :
    (knownWith own).get? entity = ((entriesFor own entity).getLast?.map Prod.snd).or
      ((entriesFor builtIn entity).getLast?.map Prod.snd) := by
  rw [knownWith, Sorted.get?_insertAll, ← get?_builtIn, List.filter_map, List.getLast?_map,
    Option.map_map]
  rfl

theorem get?_knownWith_eq_some_iff {own : Sorted String} {entity id : String} :
    (knownWith own).get? entity = some id ↔ KnownFor own entity id := by
  rw [get?_knownWith, Option.or_eq_some_iff, getLast?_entriesFor_eq_some_iff,
    getLast?_entriesFor_eq_none_iff, getLast?_entriesFor_eq_some_iff]
  rfl

theorem isSome_get?_knownWith_iff {own : Sorted String} {entity : String} :
    ((knownWith own).get? entity).isSome ↔ HasKeyFor own entity ∨ HasKeyFor builtIn entity := by
  have hkey {t : Sorted String} :
      ((entriesFor t entity).getLast?.map Prod.snd).isSome ↔ HasKeyFor t entity := by
    rw [← Option.ne_none_iff_isSome, Ne, getLast?_entriesFor_eq_none_iff, not_not]
  rw [get?_knownWith, Option.isSome_or, Bool.or_eq_true, hkey, hkey]

/-! ### Resolving client modules -/

/-- A client module that is not in the manifest, and names no collection, gets the lexicon known
of its entity. -/
theorem resolve_eq {r : RouteConfig} {file text : String}
    (hmanifest : r.manifest.collection? file = none) (htext : collectionOf? text = none) :
    r.resolve file text = (r.known.get? (entityOfClientFile file)).map (·, .known) := by
  rw [RouteConfig.resolve, hmanifest, htext]
  rfl

/-- **The entity is recovered from the name of the client file**: it is read back, and names of
client files tell exactly the entities apart. So a client module that is not in the manifest, and
names no collection, has a collection exactly if the project or the built-in table has a key for its
entity, and then it is the lexicon that is known of the entity. -/
theorem fallback_clientFileOf :
    (∀ id, entityOfClientFile (clientFileOf id) = entityOf id) ∧
    (∀ id id', clientFileOf id = clientFileOf id' ↔ entityOf id = entityOf id') ∧
    ∀ (own : Sorted String) (r : RouteConfig) (file text : String), r.known = knownWith own →
      r.manifest.collection? file = none → collectionOf? text = none →
      ((r.resolve file text).isSome ↔ HasKeyFor own (entityOfClientFile file) ∨
        HasKeyFor builtIn (entityOfClientFile file)) ∧
      ∀ found source, r.resolve file text = some (found, source) ↔
        source = .known ∧ KnownFor own (entityOfClientFile file) found := by
  refine ⟨entityOfClientFile_clientFileOf, fun _ _ => clientFileOf_eq_iff, ?_⟩
  intro own r file text hknown hmanifest htext
  rw [resolve_eq hmanifest htext, hknown]
  constructor
  · rw [Option.isSome_map, isSome_get?_knownWith_iff]
  · intro found source
    rw [Option.map_eq_some_iff]
    simp only [get?_knownWith_eq_some_iff, Prod.mk.injEq]
    constructor
    · rintro ⟨_, hfound, rfl, rfl⟩
      exact ⟨rfl, hfound⟩
    · rintro ⟨rfl, hfound⟩
      exact ⟨found, hfound, rfl, rfl⟩

/-- Two keys for the entity `straße`, in different cases, and two for other entities. -/
def streetLexicons : Sorted String := .ofList [("Straße", "com.example.street"),
  ("strasse", "com.example.road"), ("note", "com.example.note"), ("STRAßE", "com.example.way")]

theorem fallback_streetLexicons :
    ({ known := knownWith streetLexicons } : RouteConfig).manifest.collection?
      (clientFileOf "com.example.Straße") = none ∧ collectionOf? "export \x7b\x7d;" = none ∧
    clientFileOf "com.example.Straße" = "straße_client.ts" ∧
    ({ known := knownWith streetLexicons } : RouteConfig).resolve
      (clientFileOf "com.example.Straße") "export \x7b\x7d;" =
        some ("com.example.street", .known) := by
  have htext : collectionOf? "export \x7b\x7d;" = none := by decide
  have hentity : entityOf "com.example.Straße" = "straße" := by decide +kernel
  have hlast : LastFor streetLexicons "straße" "com.example.street" :=
    ⟨"Straße", by decide +kernel, by decide +kernel, by decide +kernel⟩
  obtain ⟨hread, -, hfallback⟩ := fallback_clientFileOf
  have hresolve := (hfallback streetLexicons { known := knownWith streetLexicons }
    (clientFileOf "com.example.Straße") "export \x7b\x7d;" rfl rfl htext).2
  refine ⟨rfl, htext, by decide +kernel, (hresolve _ _).mpr ⟨rfl, .inl ?_⟩⟩
  rwa [hread, hentity]

end Lexgen.Routes
