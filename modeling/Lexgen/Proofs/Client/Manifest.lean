/-
# The manifest is read back as it was written

A manifest is a comment and one line for each client module, so reading it back gives the same
manifest (`ofToml_render`). A file name that is written between three quotes is no key, and then
nothing of the text is read; the collections may be any texts.

Key definitions: `Manifest.inserted`.
Key theorems: `ofToml_render`, `ofToml_render_inserted`.
-/
import Lexgen.Client.Manifest
import Lexgen.Proofs.Toml.Settings

namespace Lexgen.Manifest

open Lexgen.Data Lexgen.Toml

/-- The comment that starts a manifest, without its mark. -/
def markerText : List Char := marker.toList.tail.dropLast

theorem marker_eq : marker.toList = '#' :: (markerText ++ ['\n']) := by decide

theorem isVisible_markerText : ∀ c ∈ markerText, isVisible c = true :=
  List.all_eq_true.1 (by decide)

theorem toList_line (e : String × String) : (line e).toList = settingText e := by
  simp [line, settingText]

theorem render_eq (t : Manifest) : t.render = String.ofList
    ('#' :: (markerText ++ '\n' :: t.collections.entries.flatMap settingText)) := by
  have hlines : (String.join (t.collections.entries.map line)).toList =
      t.collections.entries.flatMap settingText := by
    rw [String.toList_join, List.flatMap_map]
    exact congrArg (t.collections.entries.flatMap ·) (funext toList_line)
  apply String.toList_injective
  rw [render, String.toList_append, marker_eq, hlines, String.toList_ofList]
  simp

/-- **A manifest is read back** exactly if every file name is written on one line. -/
theorem ofToml_render (t : Manifest) :
    ofToml t.render = if ∀ e ∈ t.collections.entries, OneLine e.1 then some t else none := by
  have hnodup : (t.collections.entries.map Prod.fst).Nodup :=
    t.collections.nodup_names
  rw [ofToml, render_eq, parse_settings isVisible_markerText hnodup]
  split
  · rw [Option.map_some, Sorted.ofList_entries]
  · rfl

/-- The manifest that some client modules and their collections make, inserted one by one. -/
def inserted (calls : List (String × String)) : Manifest :=
  calls.foldl (fun t c => t.insert c.1 c.2) empty

theorem collections_foldl_insert : ∀ (calls : List (String × String)) (t : Manifest),
    (calls.foldl (fun t c => t.insert c.1 c.2) t).collections = t.collections.insertAll calls
  | [], _ => rfl
  | c :: calls, t => collections_foldl_insert calls (t.insert c.1 c.2)

/-- The file names of a manifest are those that were inserted. -/
theorem mem_names_inserted {calls : List (String × String)} {file : String} :
    file ∈ (inserted calls).collections.names ↔ file ∈ calls.map Prod.fst := by
  rw [inserted, collections_foldl_insert, Sorted.mem_names_insertAll]
  simp [empty, Sorted.empty, Sorted.names]

/-- Under a file name there is what was inserted last. -/
theorem collection?_inserted (calls : List (String × String)) (file : String) :
    (inserted calls).collection? file =
      ((calls.filter (·.1 == file)).getLast?).map Prod.snd := by
  rw [inserted, collection?, collections_foldl_insert, Sorted.get?_insertAll]
  exact Option.or_none

/-- **A manifest survives being written**, after whatever was inserted, exactly if every file name
was written on one line. -/
theorem ofToml_render_inserted (calls : List (String × String)) :
    ofToml (inserted calls).render =
      if ∀ c ∈ calls, OneLine c.1 then some (inserted calls) else none := by
  have hfiles : (∀ e ∈ (inserted calls).collections.entries, OneLine e.1) ↔
      ∀ c ∈ calls, OneLine c.1 := by
    calc (∀ e ∈ (inserted calls).collections.entries, OneLine e.1)
      _ ↔ ∀ file ∈ (inserted calls).collections.names, OneLine file := List.forall_mem_map.symm
      _ ↔ ∀ file ∈ calls.map Prod.fst, OneLine file :=
        forall_congr' fun _ => imp_congr_left mem_names_inserted
      _ ↔ ∀ c ∈ calls, OneLine c.1 := List.forall_mem_map
  rw [ofToml_render]
  simp only [hfiles]

/-- A client module whose name has both kinds of quotes. -/
def quotedFile : List (String × String) :=
  [("it's \"new\"_client.ts", "com.example.it's \"new\"")]

/-- A name with both kinds of quotes is written between three quotes, and no key is. -/
theorem not_read_quotedFile :
    ofToml (inserted quotedFile).render ≠ some (inserted quotedFile) := by
  have hblock : ¬ ∀ e ∈ (inserted quotedFile).collections.entries, OneLine e.1 := by decide
  rw [ofToml_render, if_neg hblock]
  exact nofun

end Lexgen.Manifest
