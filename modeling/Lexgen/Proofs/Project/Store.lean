/-
# Settings that are read and files that are stored

The settings in a file are what its text decodes to, and those of a missing file are given
(`yields_readSettings_iff`). To store a file in a directory changes the tree at the location of the
file, and at that of the directory if it is missing (`yields_store_iff`).

Key theorems: `yields_readSettings_iff`, `yields_store_iff`, `item?_stored`.
-/
import Lexgen.Proofs.Files.Access

namespace Lexgen.Files.Tree

variable {t : Tree} {place x : Location}

/-! ### A directory that was asked for -/

@[simp] theorem here_put (t : Tree) (place : Location) (item : Item) :
    (t.put place item).here = t.here := rfl

@[simp] theorem here_ensure (t : Tree) (place : Location) : (t.ensure place).here = t.here := by
  rw [ensure]
  split <;> rfl

@[simp] theorem item?_ensure (hfree : ∀ content, t.item? place ≠ some (.file content)) :
    (t.ensure place).item? x = if x = place then some .directory else t.item? x := by
  rw [ensure]
  split
  · next hsome =>
    split
    · next hx =>
      obtain ⟨item, hitem⟩ := Option.isSome_iff_exists.1 hsome
      cases item with
      | file content => exact absurd hitem (hfree content)
      | directory => rw [hx, hitem]
    · rfl
  · next hnone =>
    have hne : place ≠ [] := by
      rintro rfl
      exact hnone rfl
    exact item?_put t place .directory x hne

/-- The tree with a text in a directory, which is made if it is missing. -/
def stored (t : Tree) (place : Location) (name text : String) : Tree :=
  (t.ensure place).put (place ++ [name]) (.file text.toUTF8)

@[simp] theorem here_stored (t : Tree) (place : Location) (name text : String) :
    (t.stored place name text).here = t.here := by
  simp [stored]

@[simp] theorem item?_stored (hfree : ∀ content, t.item? place ≠ some (.file content))
    (name text : String) (x : Location) :
    (t.stored place name text).item? x =
      if x = place ++ [name] then some (.file text.toUTF8)
      else if x = place then some .directory else t.item? x := by
  simp [stored, hfree]

end Lexgen.Files.Tree

namespace Lexgen.Project

open Lexgen.Files

variable {t t' : Tree}

@[simp] theorem yields_orProblem_iff {α : Type} {problem : Fault → Problem}
    {x : StateM Tree (Except Fault α)} {a : α} :
    Yields t (orProblem problem x).run (.ok a) t' ↔ Yields t x (.ok a) t' := by
  have hrun : (orProblem problem x).run = (·.mapError problem) <$> x := rfl
  rw [hrun, yields_map_iff]
  constructor
  · rintro ⟨e | b, hx, h⟩
    · cases h
    · cases h
      exact hx
  · exact fun h => ⟨_, h, rfl⟩

/-- **The settings that are read** are those in the file, or the given ones if there is none. -/
theorem yields_readSettings_iff {α : Type} {path : String} {missing settings : α}
    {decode : String → Option α} :
    Yields t (readSettings path missing decode).run (.ok settings) t' ↔
      ((∃ text, t.lookup path = .ok (.file text.toUTF8) ∧ decode text = some settings) ∨
        ((∀ item, t.lookup path ≠ .ok item) ∧ missing = settings)) ∧ t' = t := by
  have hthere {b : Bool} (h : b = true ↔ ∃ k, t.kind path = .ok k) :
      Yields t (liftM (isThere path) : ExceptT Problem (StateM Tree) Bool).run (.ok b) t :=
    yields_run_liftM_iff.2 (yields_isThere_iff.2 ⟨h, rfl⟩)
  rw [readSettings]
  cases hkind : t.kind path with
  | error e =>
    have hnone : ∀ item, t.lookup path ≠ .ok item := by
      intro item hitem
      rw [Tree.kind, hitem] at hkind
      cases hkind
    rw [(hthere (b := false) (by simp [hkind])).run_bind_iff]
    simp [hnone]
  | ok k =>
    have hsome : ¬ ∀ item, t.lookup path ≠ .ok item := by
      obtain ⟨item, hitem, -⟩ := Tree.kind_eq_ok_iff.1 hkind
      exact fun h => h item hitem
    rw [(hthere (b := true) (by simp [hkind])).run_bind_iff, if_pos rfl, yields_run_bind_iff]
    simp only [yields_orProblem_iff, yields_readText_iff]
    constructor
    · rintro ⟨text, _, ⟨hlookup, rfl⟩, h⟩
      cases hdecode : decode text with
      | none =>
        rw [hdecode] at h
        exact absurd h not_yields_run_throw
      | some s =>
        rw [hdecode] at h
        obtain ⟨rfl, rfl⟩ := yields_run_pure_iff.1 h
        exact ⟨.inl ⟨text, hlookup, hdecode⟩, rfl⟩
    · rintro ⟨⟨text, hlookup, hdecode⟩ | ⟨hnone, -⟩, rfl⟩
      · refine ⟨text, _, ⟨hlookup, rfl⟩, ?_⟩
        rw [hdecode]
        exact yields_run_pure_iff.2 ⟨rfl, rfl⟩
      · exact absurd hnone hsome

/-- Trees on which a path leads to the same item give the same settings. -/
theorem yields_readSettings_congr {α : Type} {path : String} {missing settings : α}
    {decode : String → Option α}
    (hlookup : ∀ item, t'.lookup path = .ok item ↔ t.lookup path = .ok item)
    (h : Yields t (readSettings path missing decode).run (.ok settings) t) :
    Yields t' (readSettings path missing decode).run (.ok settings) t' := by
  rw [yields_readSettings_iff] at h ⊢
  simp only [hlookup, ne_eq, and_true] at h ⊢
  exact h

section
variable {directory name text : String} {place : Location}

/-- Whether a file can be stored under a name in a directory, which need not be there yet. -/
structure Storable (t : Tree) (directory : String) (place : Location) (name : String) : Prop where
  usable : Usable (join directory name)
  short : name.utf8ByteSize ≤ maxName
  free : ∀ content, t.item? place ≠ some (.file content)
  no_directory : t.item? (place ++ [name]) ≠ some .directory

/-- Directories stay when a file is stored. -/
theorem Storable.directories (h : Storable t directory place name) (text : String) {x : Location}
    (hx : t.item? x = some .directory) :
    (t.stored place name text).item? x = some .directory := by
  rw [Tree.item?_stored h.free]
  split
  · next hname => exact absurd (hname ▸ hx) h.no_directory
  · split
    · rfl
    · exact hx

theorem Storable.leads (h : Storable t directory place name) (text : String) {path : String}
    {x : Location} (hx : t.Leads path x) : (t.stored place name text).Leads path x :=
  hx.mono (fun _ => h.directories text) (Tree.here_stored ..)

/-- A file beside another can be stored exactly if it could be without the other. -/
theorem Storable.stored_iff {other : String} (h : Storable t directory place other)
    (hne : name ≠ other) :
    Storable (t.stored place other text) directory place name ↔
      Storable t directory place name := by
  have hitem : (t.stored place other text).item? (place ++ [name]) =
      t.item? (place ++ [name]) := by
    simp [h.free, hne]
  constructor
  · rintro ⟨husable, hshort, -, hno⟩
    exact ⟨husable, hshort, h.free, hitem ▸ hno⟩
  · rintro ⟨husable, hshort, -, hno⟩
    exact ⟨husable, hshort, by simp [h.free], hitem ▸ hno⟩

/-- **When a file is stored**, and what the tree is then. -/
theorem yields_store_iff (hplace : t.Leads directory place) (hdirectory : EndsInName directory)
    (hname : IsName name) {how : Written} :
    Yields t (store (join directory name) text).run (.ok how) t' ↔
      Storable t directory place name ∧
        (how = .overwritten ↔ ∃ k, t.kind (join directory name) = .ok k) ∧
        t' = t.stored place name text := by
  have hleads (hfree : ∀ content, t.item? place ≠ some (.file content)) :
      (t.ensure place).Leads directory place := by
    refine hplace.mono (fun x hx => ?_) (Tree.here_ensure t place)
    rw [Tree.item?_ensure hfree]
    split
    · rfl
    · exact hx
  rw [store, directoryOf_join hdirectory hname, yields_run_bind_iff]
  simp only [yields_run_liftM_iff, yields_isThere_iff, yields_run_bind_iff, yields_orProblem_iff,
    yields_run_pure_iff]
  constructor
  · rintro ⟨existed, _, ⟨hexisted, rfl⟩, ⟨⟩, t₁, hmake, ⟨⟩, t₂, hreplace, hhow, rfl⟩
    have hreplace := yields_changing_iff.1 hreplace
    have husable := Tree.usable_of_replace hreplace
    obtain ⟨hfree, rfl⟩ := (yields_makeDirectories_iff hplace hdirectory
      (husable.of_join hdirectory.ne_empty hname)).1 hmake
    obtain ⟨⟨-, -, hshort⟩, hitem, hstored⟩ :=
      (Tree.replace_eq_ok_iff (hleads hfree) hname).1 hreplace
    rw [Tree.item?_ensure hfree, if_neg (by simp)] at hitem
    refine ⟨⟨husable, hshort, hfree, hitem⟩, ?_, hstored.symm⟩
    rw [← hexisted, ← hhow]
    cases existed <;> simp
  · rintro ⟨⟨husable, hshort, hfree, hitem⟩, hhow, rfl⟩
    have hmake := (yields_makeDirectories_iff hplace hdirectory
      (husable.of_join hdirectory.ne_empty hname)).2 ⟨hfree, rfl⟩
    have hreplace : (t.ensure place).replace (join directory name) text.toUTF8 =
        .ok (t.stored place name text) := by
      refine (Tree.replace_eq_ok_iff (hleads hfree) hname).2 ⟨⟨husable, ?_, hshort⟩, ?_, rfl⟩
      · simp [hfree]
      · simpa [hfree] using hitem
    refine ⟨decide (how = .overwritten), t, ⟨by simpa using hhow, rfl⟩, (), _, hmake, (), _,
      yields_changing_iff.2 hreplace, ?_, rfl⟩
    cases how <;> rfl

/-- A file is stored, in place of another or not, if it can be. -/
theorem exists_yields_store_iff (hplace : t.Leads directory place)
    (hdirectory : EndsInName directory) (hname : IsName name) :
    (∃ how, Yields t (store (join directory name) text).run (.ok how) t') ↔
      Storable t directory place name ∧ t' = t.stored place name text := by
  simp only [yields_store_iff hplace hdirectory hname]
  constructor
  · rintro ⟨-, hstorable, -, hstored⟩
    exact ⟨hstorable, hstored⟩
  · rintro ⟨hstorable, hstored⟩
    by_cases hthere : ∃ k, t.kind (join directory name) = .ok k
    · exact ⟨.overwritten, hstorable, by simp [hthere], hstored⟩
    · exact ⟨.created, hstorable, by simp [hthere], hstored⟩

end

end Lexgen.Project
