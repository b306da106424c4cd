/-
# The latest ids

Of several ids with one entity the latest counts: its client module is the one that stays, and its
line the one in the manifest. So the latest ids determine the manifest (`manifestOf_eq`), and it is
read back, since the file name of a bare id is written on one line.

Key definitions: `IsBareId`, `clientFileOf`, `latest`, `manifestOf`.
Key theorems: `latest_clientFileOf`, `collection?_manifestOf`, `manifestOf_eq`,
`ofToml_manifestOf`.
-/
import Lexgen.Proofs.Client.Manifest
import Lexgen.Proofs.Files.Path
import Lexgen.Proofs.Name.Casing
import Lexgen.Routes.Config

namespace Lexgen.Client

open Lexgen.Data Lexgen.Files Lexgen.Name Lexgen.Routes Lexgen.Text

/-! ### File names of client modules -/

/-- Whether an id is made of ASCII letters, digits, hyphens and dots. -/
def IsBareId (id : String) : Prop := ∀ c ∈ id.toList, c.isAlphanum = true ∨ c = '-' ∨ c = '.'

instance (id : String) : Decidable (IsBareId id) := @List.decidableBAll _ _ _ id.toList

/-- The file name of the client module of an id. -/
def clientFileOf (id : String) : String := (Entity.ofId id).clientFile

theorem toList_clientFileOf (id : String) :
    (clientFileOf id).toList =
      (entityOf id).toList ++ (clientEnding ++ moduleExtension).toList := by
  simp [clientFileOf, Entity.clientFile, Entity.ofId]

/-- File names tell entities apart. -/
theorem clientFileOf_eq_iff {id id' : String} :
    clientFileOf id = clientFileOf id' ↔ entityOf id = entityOf id' := by
  rw [← String.toList_inj, toList_clientFileOf, toList_clientFileOf, List.append_left_inj,
    String.toList_inj]

theorem isClientFile_clientFileOf (id : String) : isClientFile (clientFileOf id) = true := by
  rw [isClientFile, List.isSuffixOf_iff_suffix, toList_clientFileOf]
  exact List.suffix_append ..

theorem isName_manifest : IsName Manifest.fileName := by decide

theorem not_isClientFile_manifest : isClientFile Manifest.fileName = false := by decide

theorem ne_manifest_of_isClientFile {name : String} (h : isClientFile name = true) :
    name ≠ Manifest.fileName := by
  rintro rfl
  rw [not_isClientFile_manifest] at h
  cases h

/-- No character of the file name of a bare id ends a line, a step of a path or a quoted text. -/
theorem IsBareId.forall_mem_clientFileOf {id : String} (h : IsBareId id) :
    ∀ c ∈ (clientFileOf id).toList, c ≠ '/' ∧ c ≠ '\'' ∧ c ≠ '\n' := by
  have hkept : KeptByCasing fun c => c ≠ '/' ∧ c ≠ '\'' ∧ c ≠ '\n' := by
    rintro c (hc | rfl)
    · refine ⟨?_, ?_, ?_⟩ <;> rintro rfl <;> exact absurd hc (by decide)
    · decide
  have hid : ∀ c ∈ id.toList, c ≠ '/' ∧ c ≠ '\'' ∧ c ≠ '\n' := by
    intro c hc
    refine ⟨?_, ?_, ?_⟩ <;> rintro rfl <;> exact absurd (h _ hc) (by decide)
  intro c hc
  rw [toList_clientFileOf, List.mem_append] at hc
  rcases hc with hc | hc
  · exact forall_mem_entityOf hkept hid c hc
  · have hending : (clientEnding ++ moduleExtension).toList.all
        (fun c => decide (c ≠ '/' ∧ c ≠ '\'' ∧ c ≠ '\n')) := by decide
    exact of_decide_eq_true (List.all_eq_true.1 hending c hc)

theorem isName_clientFileOf {id : String} (h : '/' ∉ (clientFileOf id).toList) :
    IsName (clientFileOf id) := by
  have hlong : 3 ≤ (clientFileOf id).toList.length := by
    rw [toList_clientFileOf, List.length_append]
    exact Nat.le_add_left_of_le (by decide)
  refine ⟨?_, ?_, ?_, h⟩ <;> intro heq <;> rw [heq] at hlong <;> exact absurd hlong (by decide)

theorem IsBareId.isName {id : String} (h : IsBareId id) : IsName (clientFileOf id) :=
  isName_clientFileOf fun hmem => (h.forall_mem_clientFileOf _ hmem).1 rfl

/-- **When the file of an id has a plain name**: if there is no slash behind the last dot. -/
theorem isName_clientFileOf_iff {id : String} :
    IsName (clientFileOf id) ↔ '/' ∉ lastSegment id.toList := by
  have hkept : KeptByCasing (· ≠ '/') := keptByCasing_ne (by decide) (by decide)
  have hentity : '/' ∈ (entityOf id).toList ↔ '/' ∈ lastSegment id.toList := by
    rw [entityOf, mem_lower_iff hkept (by decide +kernel) (by decide), String.toList_ofList]
  have hfile : '/' ∈ (clientFileOf id).toList ↔ '/' ∈ lastSegment id.toList := by
    have hending : '/' ∉ (clientEnding ++ moduleExtension).toList := by decide
    rw [toList_clientFileOf, List.mem_append, hentity, or_iff_left hending]
  rw [← hfile]
  exact ⟨IsName.no_slash, isName_clientFileOf⟩

/-! ### The latest of several ids -/

/-- The last of some ids that have a key. -/
def latest (key : String → String) (ids : List String) (x : String) : Option String :=
  (ids.filter (key · == x)).getLast?

theorem latest_concat (key : String → String) (ids : List String) (id x : String) :
    latest key (ids ++ [id]) x = if key id = x then some id else latest key ids x := by
  rw [latest, List.filter_append]
  split
  · next h => simp [h]
  · next h => simp [h, latest]

theorem of_latest_eq_some {key : String → String} {ids : List String} {id x : String}
    (h : latest key ids x = some id) : id ∈ ids ∧ key id = x := by
  have hmem := List.mem_of_getLast? h
  simpa using hmem

theorem exists_latest_iff {key : String → String} {ids : List String} {x : String} :
    (∃ id, latest key ids x = some id) ↔ ∃ id ∈ ids, key id = x := by
  constructor
  · rintro ⟨id, h⟩
    exact ⟨id, of_latest_eq_some h⟩
  · rintro ⟨id, hid, hx⟩
    rw [← Option.isSome_iff_exists, latest, List.getLast?_isSome]
    exact List.ne_nil_of_mem (List.mem_filter.2 ⟨hid, by simpa using hx⟩)

theorem latest_eq_none_iff {key : String → String} {ids : List String} {x : String} :
    latest key ids x = none ↔ ∀ id ∈ ids, key id ≠ x := by
  rw [Option.eq_none_iff_forall_ne_some, ← not_exists, exists_latest_iff]
  simp

/-- Ids without latest ones are none. -/
theorem eq_nil_iff_of_latest {key : String → String} {ids ids' : List String}
    (h : ∀ x, latest key ids' x = latest key ids x) : ids' = [] ↔ ids = [] := by
  have hnil (js : List String) : js = [] ↔ ∀ x, latest key js x = none := by
    simp only [latest_eq_none_iff]
    exact ⟨fun hjs => by simp [hjs],
      fun hjs => List.eq_nil_iff_forall_not_mem.2 fun id hid => hjs _ id hid rfl⟩
  rw [hnil, hnil]
  simp only [h]

/-- The latest ids of the entities are those of the file names. -/
theorem latest_clientFileOf {ids ids' : List String}
    (h : ∀ e, latest entityOf ids e = latest entityOf ids' e) (file : String) :
    latest clientFileOf ids file = latest clientFileOf ids' file := by
  by_cases hfile : ∃ id, clientFileOf id = file
  · obtain ⟨id, rfl⟩ := hfile
    have hkey : ∀ ids, latest clientFileOf ids (clientFileOf id) =
        latest entityOf ids (entityOf id) := by
      intro ids
      refine congrArg List.getLast? (List.filter_congr fun x _ => ?_)
      exact Bool.eq_iff_iff.2 (by simpa using clientFileOf_eq_iff)
    rw [hkey, hkey, h]
  · have hnone : ∀ ids, latest clientFileOf ids file = none := by
      intro ids
      rw [Option.eq_none_iff_forall_ne_some]
      exact fun id hid => hfile ⟨id, (of_latest_eq_some hid).2⟩
    rw [hnone, hnone]

/-! ### The manifest of several ids -/

/-- The manifest with the client modules of some ids, inserted in their order. -/
def manifestOf (ids : List String) : Manifest :=
  Manifest.inserted (ids.map fun id => (clientFileOf id, id))

theorem manifestOf_concat (ids : List String) (id : String) :
    manifestOf (ids ++ [id]) = (manifestOf ids).insert (clientFileOf id) id := by
  simp [manifestOf, Manifest.inserted]

/-- In the manifest stands the latest id for each file name. -/
theorem collection?_manifestOf (ids : List String) (file : String) :
    (manifestOf ids).collection? file = latest clientFileOf ids file := by
  rw [manifestOf, Manifest.collection?_inserted, List.filter_map, List.getLast?_map, Option.map_map]
  exact congrFun Option.map_id _

/-- The latest ids make the manifest. -/
theorem manifestOf_eq {ids ids' : List String}
    (h : ∀ file, latest clientFileOf ids file = latest clientFileOf ids' file) :
    manifestOf ids = manifestOf ids' := by
  have hsame : (manifestOf ids).collections = (manifestOf ids').collections := by
    refine Sorted.eq_of_get? fun file => ?_
    exact (collection?_manifestOf ids file).trans
      ((h file).trans (collection?_manifestOf ids' file).symm)
  cases hm : manifestOf ids
  cases hm' : manifestOf ids'
  rw [hm, hm'] at hsame
  exact congrArg Manifest.mk hsame

/-- **The manifest of bare ids** is read back. -/
theorem ofToml_manifestOf {ids : List String} (h : ∀ id ∈ ids, IsBareId id) :
    Manifest.ofToml (manifestOf ids).render = some (manifestOf ids) := by
  rw [Manifest.ofToml_render, if_pos]
  intro e he
  have hname : e.1 ∈ (manifestOf ids).collections.names := List.mem_map_of_mem he
  rw [manifestOf, Manifest.mem_names_inserted, List.map_map, List.mem_map] at hname
  obtain ⟨id, hid, hfile⟩ := hname
  have hchars := (h id hid).forall_mem_clientFileOf
  rw [← hfile]
  refine Toml.oneLine_iff.2 ⟨fun hmem => (hchars _ hmem).2.2 rfl, .inr (.inl ?_)⟩
  exact fun hmem => (hchars _ hmem).2.1 rfl

end Lexgen.Client
