/-
# What steps keep

A step stays `Within` a relation if the tree that it leaves is always related to the one that it
started on. For a relation that is reflexive and transitive this goes from steps to steps one after
the other (`within_bind`), so it is enough to look at the five operations. Steps that only ask stay
within equality. Making directories keeps every directory and every file (`Tree.Extends`), and the
directory that was asked for is there afterwards.

Key definitions: `Tree.file?`, `Tree.Grows`, `Tree.Extends`, `Within`.
Key theorems: `within_bind`, `within_makeDirectories`, `kind_of_yields_makeDirectories`,
`exists_yields_makeDirectories`.
-/
import Lexgen.Proofs.Files.Access
import Mathlib.Data.List.TakeWhile
import Mathlib.Order.Defs.Unbundled

namespace Lexgen.Files

open Lexgen.Data

/-! ### Trees that grow -/

namespace Tree

/-- The content of the file at a location. -/
def file? (t : Tree) (x : Location) : Option ByteArray :=
  match t.item? x with
  | some (.file content) => some content
  | _ => none

@[simp] theorem file?_eq_some_iff {t : Tree} {x : Location} {content : ByteArray} :
    t.file? x = some content ↔ t.item? x = some (.file content) := by
  unfold file?
  split
  · next h => simp [h]
  · next h => simpa using h content

/-- Where the files of two trees are the same, so are their contents. -/
theorem item?_eq_file_iff {t t' : Tree} {x : Location} (h : t'.file? x = t.file? x)
    {content : ByteArray} :
    t'.item? x = some (.file content) ↔ t.item? x = some (.file content) := by
  rw [← file?_eq_some_iff, h, file?_eq_some_iff]

/-- The working directory and every directory stay. -/
structure Grows (t t' : Tree) : Prop where
  here : t'.here = t.here
  directories : ∀ x, t.item? x = some .directory → t'.item? x = some .directory

/-- Nothing changes but that directories are added. -/
structure Extends (t t' : Tree) : Prop extends Grows t t' where
  files : ∀ x, t'.file? x = t.file? x

instance : IsPreorder Tree Grows where
  refl _ := ⟨rfl, fun _ h => h⟩
  trans _ _ _ h h' := ⟨h'.here.trans h.here, fun x hx => h'.directories x (h.directories x hx)⟩

instance : IsPreorder Tree Extends where
  refl _ := ⟨refl_of Grows _, fun _ => rfl⟩
  trans _ _ _ h h' :=
    ⟨trans_of Grows h.toGrows h'.toGrows, fun x => (h'.files x).trans (h.files x)⟩

variable {t t' : Tree}

theorem Grows.follow_eq (h : Grows t t') {path : String} {ps : List String} {place : Location}
    (hfollow : t.follow path ps = .ok place) : t'.follow path ps = .ok place := by
  obtain ⟨husable, hwalk⟩ := follow_eq_ok_iff.1 hfollow
  refine follow_eq_ok_iff.2 ⟨husable, ?_⟩
  rw [start, h.here]
  exact walk_mono h.directories hwalk

/-- A path that leads to a directory does so ever after. -/
theorem Grows.kind_eq_directory (h : Grows t t') {path : String}
    (hkind : t.kind path = .ok .directory) : t'.kind path = .ok .directory := by
  obtain ⟨item, hlookup, hitem⟩ := kind_eq_ok_iff.1 hkind
  obtain ⟨place, hfollow, hplace⟩ := lookup_eq_ok_iff.1 hlookup
  cases item with
  | file content => cases hitem
  | directory =>
    exact kind_eq_ok_iff.2 ⟨_, lookup_eq_ok_iff.2 ⟨place, h.follow_eq hfollow,
      h.directories place hplace⟩, rfl⟩

theorem extends_put_directory {place : Location} (h : t.item? place = none) :
    Extends t (t.put place .directory) := by
  have hne : place ≠ [] := by
    rintro rfl
    cases h
  have hitem := fun x => item?_put t place .directory x hne
  refine ⟨⟨rfl, fun x hx => ?_⟩, fun x => ?_⟩
  · rw [hitem]
    split
    · rfl
    · exact hx
  · rw [file?, hitem]
    split_ifs with hx
    · rw [file?, hx, h]
    · rfl

/-- To put a file where no directory is. -/
theorem grows_put_file {place : Location} {content : ByteArray} (hne : place ≠ [])
    (h : t.item? place ≠ some .directory) : Grows t (t.put place (.file content)) := by
  refine ⟨rfl, fun x hx => ?_⟩
  have hx' : x ≠ place := by
    rintro rfl
    exact h hx
  rwa [item?_put t place _ x hne, if_neg hx']

@[simp] theorem file?_put_file {place : Location} {content : ByteArray} (hne : place ≠ [])
    (x : Location) :
    (t.put place (.file content)).file? x = if x = place then some content else t.file? x := by
  rw [file?, item?_put t place _ x hne]
  split_ifs with hx
  · rfl
  · rfl

end Tree

/-! ### Steps within a relation -/

/-- A step leaves a tree that is related to the one that it started on. -/
def Within (R : Tree → Tree → Prop) {α : Type} (x : StateM Tree α) : Prop :=
  ∀ t a t', Yields t x a t' → R t t'

section Within

variable {R : Tree → Tree → Prop} {α β ε : Type}

theorem within_map {x : StateM Tree α} {f : α → β} (hx : Within R x) : Within R (f <$> x) := by
  intro t b t' h
  obtain ⟨a, ha, -⟩ := yields_map_iff.1 h
  exact hx t a t' ha

theorem within_run_liftM {x : StateM Tree α} (hx : Within R x) :
    Within R (liftM x : ExceptT ε (StateM Tree) α).run :=
  within_map hx

variable [IsPreorder Tree R]

theorem within_pure (a : α) : Within R (pure a : StateM Tree α) := by
  intro t b t' h
  obtain ⟨-, rfl⟩ := yields_pure_iff.1 h
  exact refl_of R _

theorem within_bind {x : StateM Tree α} {f : α → StateM Tree β} (hx : Within R x)
    (hf : ∀ a, Within R (f a)) : Within R (x >>= f) := by
  intro t b t'' h
  obtain ⟨a, t', ha, hb⟩ := yields_bind_iff.1 h
  exact trans_of R (hx t a t' ha) (hf a t' b t'' hb)

theorem within_run_bind {x : ExceptT ε (StateM Tree) α} {f : α → ExceptT ε (StateM Tree) β}
    (hx : Within R x.run) (hf : ∀ a, Within R (f a).run) : Within R (x >>= f).run := by
  rw [ExceptT.run_bind]
  refine within_bind hx fun a => ?_
  cases a with
  | error e => exact within_pure _
  | ok a => exact hf a

theorem within_run_pure (a : α) : Within R (pure a : ExceptT ε (StateM Tree) α).run :=
  within_pure _

theorem within_run_throw (e : ε) : Within R (throw e : ExceptT ε (StateM Tree) α).run :=
  within_pure _

theorem within_of_stays {x : StateM Tree α} (h : ∀ t, (x.run t).2 = t) : Within R x := by
  intro t a t' hx
  rw [(yields_iff.1 hx).2, h]
  exact refl_of R _

/-- A step that is seen to succeed yields something. -/
theorem exists_yields_of_isOk {x : ExceptT ε (StateM Tree) α} {t : Tree}
    (h : (x.run.run t).1.isOk = true) : ∃ a, Yields t x.run (.ok a) (x.run.run t).2 := by
  cases hx : (x.run.run t).1 with
  | error e =>
    rw [hx] at h
    cases h
  | ok a => exact ⟨a, yields_iff.2 ⟨hx, rfl⟩⟩

/-- Steps one after the other fail if one of them does. -/
theorem yields_run_bind_error_iff {x : ExceptT ε (StateM Tree) α}
    {f : α → ExceptT ε (StateM Tree) β} {e : ε} {t t' : Tree} :
    Yields t (x >>= f).run (.error e) t' ↔ Yields t x.run (.error e) t' ∨
      ∃ a t₁, Yields t x.run (.ok a) t₁ ∧ Yields t₁ (f a).run (.error e) t' := by
  rw [ExceptT.run_bind, yields_bind_iff]
  constructor
  · rintro ⟨a | a, t₁, hx, hf⟩
    · obtain ⟨ha, rfl⟩ := yields_pure_iff.1 hf
      cases ha
      exact .inl hx
    · exact .inr ⟨a, t₁, hx, hf⟩
  · rintro (hx | ⟨a, t₁, hx, hf⟩)
    · exact ⟨.error e, t', hx, yields_pure_iff.2 ⟨rfl, rfl⟩⟩
    · exact ⟨.ok a, t₁, hx, hf⟩

/-! ### Questions -/

theorem within_kind (path : String) : Within R (Access.kind path) := within_of_stays fun _ => rfl

theorem within_read (path : String) : Within R (Access.read path) := within_of_stays fun _ => rfl

theorem within_list (path : String) : Within R (Access.list path) := within_of_stays fun _ => rfl

theorem within_isThere (path : String) : Within R (isThere path) :=
  within_bind (within_kind path) fun a => by cases a <;> exact within_pure _

theorem within_isFile (path : String) : Within R (isFile path) :=
  within_bind (within_kind path) fun a => by cases a <;> exact within_pure _

theorem within_isDirectory (path : String) : Within R (isDirectory path) :=
  within_bind (within_kind path) fun a => by cases a <;> exact within_pure _

theorem within_readText (path : String) : Within R (readText path) :=
  within_bind (within_read path) fun a => by
    cases a with
    | error e => exact within_pure _
    | ok content =>
      dsimp only
      cases String.fromUTF8? content <;> exact within_pure _

end Within

/-! ### Directories -/

section Directories

variable {t t' : Tree}

@[simp] theorem yields_changing_error_iff {change : Tree → Except Fault Tree} {e : Fault} :
    Yields t (changing change) (.error e) t' ↔ change t = .error e ∧ t' = t := by
  rw [yields_iff, run_changing]
  cases change t <;> simp

theorem within_makeDirectory (path : String) : Within Tree.Extends (Access.makeDirectory path) := by
  intro t a t' h
  obtain ⟨-, rfl⟩ := yields_iff.1 h
  show Tree.Extends t ((changing (·.makeDirectory path)).run t).2
  rw [run_changing]
  cases hmade : t.makeDirectory path with
  | error e => exact refl_of Tree.Extends t
  | ok made =>
    obtain ⟨place, -, h⟩ := bind_eq_ok_iff.1 hmade
    split at h
    · cases h
    · next hfree =>
      rw [← Except.ok.inj h]
      rw [Bool.or_eq_true, not_or, Option.isSome_iff_ne_none, not_not] at hfree
      exact Tree.extends_put_directory hfree.2

theorem within_ensureDirectory (path : String) : Within Tree.Extends (ensureDirectory path) := by
  refine within_bind (within_makeDirectory path) fun a => ?_
  cases a with
  | ok _ => exact within_pure _
  | error e =>
    refine within_bind (within_isDirectory path) fun there => ?_
    cases there <;> exact within_pure _

theorem within_makeDirectoriesFrom : ∀ (fuel : Nat) (path : String),
    Within Tree.Extends (makeDirectoriesFrom fuel path)
  | 0, path => by
    rw [makeDirectoriesFrom]
    exact within_pure _
  | fuel + 1, path => by
    rw [makeDirectoriesFrom]
    split
    · exact within_pure _
    · refine within_bind (within_ensureDirectory path) fun a => ?_
      split
      · split
        · exact within_pure _
        · next above _ =>
          refine within_bind (within_makeDirectoriesFrom fuel above) fun made => ?_
          cases made with
          | error e => exact within_pure _
          | ok _ => exact within_ensureDirectory path
      · exact within_pure _

/-- **Making directories adds directories only.** -/
theorem within_makeDirectories (path : String) : Within Tree.Extends (makeDirectories path) :=
  within_makeDirectoriesFrom _ path

/-! ### Directories that are there afterwards -/

theorem pieces_eq_targetPieces_append (path : String) :
    ∃ k, pieces path = Tree.targetPieces path ++ List.replicate k "" := by
  have hsplit := congrArg List.reverse
    (List.takeWhile_append_dropWhile (p := (· == "")) (l := (pieces path).reverse))
  rw [List.reverse_append, List.reverse_reverse] at hsplit
  refine ⟨((pieces path).reverse.takeWhile (· == "")).reverse.length, ?_⟩
  rw [← List.eq_replicate_of_mem (l := ((pieces path).reverse.takeWhile (· == "")).reverse)]
  · exact hsplit.symm
  · intro p hp
    simpa using List.mem_takeWhile_imp (List.mem_reverse.1 hp)

theorem walk_replicate_empty {place : Location} (h : t.item? place = some .directory) :
    ∀ k, t.walk place (List.replicate k "") = .ok place
  | 0 => rfl
  | k + 1 => by
    rw [List.replicate_succ, Tree.walk_cons_of_directory h, if_pos (.inl rfl)]
    exact walk_replicate_empty h k

theorem kind_of_makeDirectory {path : String} (h : t.makeDirectory path = .ok t') :
    t'.kind path = .ok .directory := by
  obtain ⟨place, hfollow, h⟩ := bind_eq_ok_iff.1 h
  split at h
  · cases h
  · next hfree =>
    rw [Bool.or_eq_true, not_or, Option.isSome_iff_ne_none, not_not] at hfree
    have hnew := Tree.extends_put_directory hfree.2
    obtain rfl := Except.ok.inj h
    have hne : place ≠ [] := by
      rintro rfl
      cases hfree.2
    have hplace : (t.put place .directory).item? place = some .directory := by
      rw [Tree.item?_put t place _ place hne, if_pos rfl]
    obtain ⟨husable, hwalk⟩ := Tree.follow_eq_ok_iff.1 (hnew.follow_eq hfollow)
    obtain ⟨k, hpieces⟩ := pieces_eq_targetPieces_append path
    refine Tree.kind_eq_ok_iff.2 ⟨_, Tree.lookup_eq_ok_iff.2 ⟨place, ?_, hplace⟩, rfl⟩
    refine Tree.follow_eq_ok_iff.2 ⟨husable, ?_⟩
    rw [hpieces, Tree.walk_append, hwalk]
    exact walk_replicate_empty hplace k

theorem kind_of_yields_ensureDirectory {path : String}
    (h : Yields t (ensureDirectory path) (.ok ()) t') : t'.kind path = .ok .directory := by
  obtain ⟨a, t₁, hmade, h⟩ := yields_bind_iff.1 h
  cases a with
  | ok _ =>
    obtain ⟨-, rfl⟩ := yields_pure_iff.1 h
    exact kind_of_makeDirectory (yields_changing_iff.1 hmade)
  | error e =>
    obtain ⟨there, t₂, hthere, h⟩ := yields_bind_iff.1 h
    obtain ⟨hkind, rfl⟩ := yields_isDirectory_iff.1 hthere
    cases there with
    | false => cases (yields_pure_iff.1 h).1
    | true =>
      obtain ⟨-, rfl⟩ := yields_pure_iff.1 h
      exact hkind.1 rfl

/-- A directory that was made is there. -/
theorem kind_of_yields_makeDirectories {path : String} (hpath : path ≠ "")
    (h : Yields t (makeDirectories path) (.ok ()) t') : t'.kind path = .ok .directory := by
  rw [makeDirectories, makeDirectoriesFrom, if_neg (by simpa using hpath)] at h
  obtain ⟨a, t₁, hensured, h⟩ := yields_bind_iff.1 h
  split at h
  · split at h
    · cases (yields_pure_iff.1 h).1
    · obtain ⟨made, t₂, -, h⟩ := yields_bind_iff.1 h
      cases made with
      | error e => cases (yields_pure_iff.1 h).1
      | ok _ => exact kind_of_yields_ensureDirectory h
  · obtain ⟨rfl, rfl⟩ := yields_pure_iff.1 h
    exact kind_of_yields_ensureDirectory hensured

/-- Where a directory is there already, making it succeeds. -/
theorem exists_yields_makeDirectories {path : String} (h : t.kind path = .ok .directory) :
    ∃ t', Yields t (makeDirectories path) (.ok ()) t' := by
  have hensured : ∃ t', Yields t (ensureDirectory path) (.ok ()) t' := by
    cases hmade : t.makeDirectory path with
    | ok made =>
      exact ⟨made, yields_bind_iff.2 ⟨.ok (), made, yields_changing_iff.2 hmade,
        yields_pure_iff.2 ⟨rfl, rfl⟩⟩⟩
    | error e =>
      refine ⟨t, yields_bind_iff.2 ⟨.error e, t, yields_changing_of_error hmade, ?_⟩⟩
      exact yields_bind_iff.2 ⟨true, t, yields_isDirectory_iff.2 ⟨by simp [h], rfl⟩,
        yields_pure_iff.2 ⟨rfl, rfl⟩⟩
  obtain ⟨t', hensured⟩ := hensured
  rw [makeDirectories, makeDirectoriesFrom]
  split
  · exact ⟨t, yields_pure_iff.2 ⟨rfl, rfl⟩⟩
  · exact ⟨t', yields_bind_iff.2 ⟨_, t', hensured, yields_pure_iff.2 ⟨rfl, rfl⟩⟩⟩

end Directories

end Lexgen.Files
