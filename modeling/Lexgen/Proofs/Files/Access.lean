/-
# Steps on a file tree

A step answers something and leaves a tree (`Yields`). Steps one after the other yield what the last
one does on what the others leave (`yields_bind_iff`), so a command is followed step by step. What a
reading step answers depends on what its path leads to; storing a file changes its location, and the
location of its directory if that is missing (`yields_store_iff`).

Key definitions: `Yields`, `Tree.ensure`.
Key theorems: `yields_run_bind_iff`, `yields_readText_iff`, `yields_readSettings_iff`,
`yields_store_iff`.
-/
import Lexgen.Project.Store
import Lexgen.Proofs.Files.Tree

namespace Lexgen.Files

variable {α β ε : Type} {t t' : Tree}

/-- Whether a step answers `a` on the tree `t` and leaves the tree `t'`. -/
def Yields (t : Tree) (x : StateM Tree α) (a : α) (t' : Tree) : Prop := x.run t = (a, t')

theorem yields_iff {x : StateM Tree α} {a : α} :
    Yields t x a t' ↔ (x.run t).1 = a ∧ t' = (x.run t).2 :=
  Prod.ext_iff.trans (and_congr_right' eq_comm)

/-- A step yields one thing only. -/
theorem Yields.iff {x : StateM Tree α} {a b : α} {t'' : Tree} (h : Yields t x a t') :
    Yields t x b t'' ↔ b = a ∧ t'' = t' := by
  rw [yields_iff, h, eq_comm]

theorem yields_bind_iff {x : StateM Tree α} {f : α → StateM Tree β} {b : β} {t'' : Tree} :
    Yields t (x >>= f) b t'' ↔ ∃ a t', Yields t x a t' ∧ Yields t' (f a) b t'' := by
  constructor
  · intro h
    exact ⟨_, _, rfl, h⟩
  · rintro ⟨a, t', hx, hf⟩
    rw [Yields, StateT.run_bind, hx]
    exact hf

@[simp] theorem yields_pure_iff {a b : α} : Yields t (pure a) b t' ↔ a = b ∧ t' = t := by
  rw [yields_iff, StateT.run_pure]
  rfl

@[simp] theorem yields_map_iff {x : StateM Tree α} {f : α → β} {b : β} :
    Yields t (f <$> x) b t' ↔ ∃ a, Yields t x a t' ∧ f a = b := by
  rw [map_eq_pure_bind, yields_bind_iff]
  simp only [yields_pure_iff]
  constructor
  · rintro ⟨a, t'', hx, rfl, rfl⟩
    exact ⟨a, hx, rfl⟩
  · rintro ⟨a, hx, rfl⟩
    exact ⟨a, t', hx, rfl, rfl⟩

/-! ### Steps that can fail -/

section
variable {x : ExceptT ε (StateM Tree) α} {f : α → ExceptT ε (StateM Tree) β} {b : β} {t'' : Tree}

/-- Steps one after the other succeed if the first does, and the others on what it leaves. -/
theorem yields_run_bind_iff : Yields t (x >>= f).run (.ok b) t'' ↔
    ∃ a t', Yields t x.run (.ok a) t' ∧ Yields t' (f a).run (.ok b) t'' := by
  rw [ExceptT.run_bind, yields_bind_iff]
  constructor
  · rintro ⟨a | a, t', hx, hf⟩
    · cases (yields_pure_iff.1 hf).1
    · exact ⟨a, t', hx, hf⟩
  · rintro ⟨a, t', hx, hf⟩
    exact ⟨.ok a, t', hx, hf⟩

/-- After a step that succeeds, the others go on from what it leaves. -/
theorem Yields.run_bind_iff {a : α} (h : Yields t x.run (.ok a) t') :
    Yields t (x >>= f).run (.ok b) t'' ↔ Yields t' (f a).run (.ok b) t'' := by
  rw [yields_run_bind_iff]
  constructor
  · rintro ⟨a', t₁, hx, hf⟩
    obtain ⟨ha, rfl⟩ := h.iff.1 hx
    cases ha
    exact hf
  · exact fun hf => ⟨a, t', h, hf⟩

@[simp] theorem yields_run_pure_iff {a b : α} :
    Yields t (pure a : ExceptT ε (StateM Tree) α).run (.ok b) t' ↔ a = b ∧ t' = t := by
  rw [ExceptT.run_pure, yields_pure_iff, Except.ok.injEq]

/-- A last step that only makes something of the one before. -/
@[simp] theorem yields_run_bind_pure_iff {g : α → β} :
    Yields t (x >>= fun a => pure (g a)).run (.ok b) t'' ↔
      ∃ a, Yields t x.run (.ok a) t'' ∧ g a = b := by
  rw [yields_run_bind_iff]
  simp only [yields_run_pure_iff]
  constructor
  · rintro ⟨a, t', hx, rfl, rfl⟩
    exact ⟨a, hx, rfl⟩
  · rintro ⟨a, hx, rfl⟩
    exact ⟨a, t'', hx, rfl, rfl⟩

@[simp] theorem not_yields_run_throw {e : ε} {a : α} :
    ¬ Yields t (throw e : ExceptT ε (StateM Tree) α).run (.ok a) t' := by
  intro h
  cases (yields_pure_iff.1 h).1

@[simp] theorem yields_run_liftM_iff {x : StateM Tree α} {a : α} :
    Yields t (liftM x : ExceptT ε (StateM Tree) α).run (.ok a) t' ↔ Yields t x a t' := by
  have hrun : (liftM x : ExceptT ε (StateM Tree) α).run = Except.ok <$> x := rfl
  rw [hrun, yields_map_iff]
  simp

end

/-! ### Questions -/

section
variable {path : String}

/-- A question is answered from the tree, which stays. -/
@[simp] theorem yields_kind_bind_iff {f : Except Fault Kind → StateM Tree β} {b : β} :
    Yields t (Access.kind path >>= f) b t' ↔ Yields t (f (t.kind path)) b t' := Iff.rfl

@[simp] theorem yields_read_bind_iff {f : Except Fault ByteArray → StateM Tree β} {b : β} :
    Yields t (Access.read path >>= f) b t' ↔ Yields t (f (t.read path)) b t' := Iff.rfl

@[simp] theorem yields_list_iff {answer : Except Fault (List String)} :
    Yields t (Access.list path) answer t' ↔ t.list path = answer ∧ t' = t := yields_iff

@[simp] theorem yields_isThere_iff {b : Bool} : Yields t (isThere path) b t' ↔
    (b = true ↔ ∃ k, t.kind path = .ok k) ∧ t' = t := by
  rw [isThere, yields_kind_bind_iff]
  cases t.kind path <;> cases b <;> simp

@[simp] theorem yields_isFile_iff {b : Bool} : Yields t (isFile path) b t' ↔
    (b = true ↔ t.kind path = .ok .file) ∧ t' = t := by
  rw [isFile, yields_kind_bind_iff]
  rcases t.kind path with e | k
  · cases b <;> simp
  · cases k <;> cases b <;> simp

@[simp] theorem yields_isDirectory_iff {b : Bool} : Yields t (isDirectory path) b t' ↔
    (b = true ↔ t.kind path = .ok .directory) ∧ t' = t := by
  rw [isDirectory, yields_kind_bind_iff]
  rcases t.kind path with e | k
  · cases b <;> simp
  · cases k <;> cases b <;> simp

/-- The text that some bytes are. -/
theorem fromUTF8?_eq_some_iff {content : ByteArray} {text : String} :
    String.fromUTF8? content = some text ↔ content = text.toUTF8 := by
  rw [String.fromUTF8?]
  constructor
  · intro h
    split at h
    · cases h
      rfl
    · cases h
  · rintro rfl
    have hvalid : text.toUTF8.IsValidUTF8 := text.isValidUTF8
    rw [dif_pos hvalid]
    rfl

/-- The text of a file is read exactly from its bytes. -/
@[simp] theorem yields_readText_iff {text : String} : Yields t (readText path) (.ok text) t' ↔
    t.lookup path = .ok (.file text.toUTF8) ∧ t' = t := by
  rw [readText, yields_read_bind_iff, ← Tree.read_eq_ok_iff]
  cases t.read path with
  | error e => simp
  | ok content =>
    rw [Except.ok.injEq, ← fromUTF8?_eq_some_iff]
    cases hdecoded : String.fromUTF8? content <;> simp [hdecoded]

end

/-! ### Making a directory -/

/-- The tree with a directory at a location where nothing is yet. -/
def Tree.ensure (t : Tree) (place : Location) : Tree :=
  if (t.item? place).isSome then t else t.put place .directory

section
variable {directory : String} {place : Location}

theorem run_changing (change : Tree → Except Fault Tree) (t : Tree) :
    (changing change).run t = (match change t with
      | .ok t' => (.ok (), t')
      | .error e => (.error e, t) : Except Fault Unit × Tree) := rfl

/-- A change that succeeds leaves the changed tree. -/
@[simp] theorem yields_changing_iff {change : Tree → Except Fault Tree} :
    Yields t (changing change) (.ok ()) t' ↔ change t = .ok t' := by
  rw [yields_iff, run_changing]
  cases change t <;> simp [eq_comm]

/-- A change that fails leaves the tree. -/
theorem yields_changing_of_error {change : Tree → Except Fault Tree} {e : Fault}
    (h : change t = .error e) : Yields t (changing change) (.error e) t := by
  rw [Yields, run_changing, h]

/-- What has the place of a directory keeps another from being made. -/
theorem yields_makeDirectory_of_item (hplace : t.Leads directory place)
    (hdirectory : EndsInName directory) (husable : Usable directory) {item : Item}
    (hitem : t.item? place = some item) :
    Yields t (Access.makeDirectory directory) (.error .exists) t := by
  refine yields_changing_of_error ?_
  rw [Tree.makeDirectory_eq hplace hdirectory husable, hitem]
  rfl

/-- A directory is there after it was asked for. -/
theorem yields_ensureDirectory (hplace : t.Leads directory place)
    (hdirectory : EndsInName directory) (husable : Usable directory)
    (hfree : ∀ content, t.item? place ≠ some (.file content)) :
    Yields t (ensureDirectory directory) (.ok ()) (t.ensure place) := by
  rw [ensureDirectory, Tree.ensure, yields_bind_iff]
  rcases hitem : t.item? place with _ | ⟨content⟩ | _
  · have hmade : t.makeDirectory directory = .ok (t.put place .directory) := by
      rw [Tree.makeDirectory_eq hplace hdirectory husable, hitem]
      rfl
    exact ⟨_, _, yields_changing_iff.2 hmade, yields_pure_iff.2 ⟨rfl, rfl⟩⟩
  · exact absurd hitem (hfree content)
  · have hkind : t.kind directory = .ok .directory := Tree.kind_eq_ok_iff.2
      ⟨_, (hplace.lookup_eq_ok_iff hdirectory husable).2 hitem, rfl⟩
    refine ⟨_, _, yields_makeDirectory_of_item hplace hdirectory husable hitem, ?_⟩
    exact yields_bind_iff.2 ⟨true, t, yields_isDirectory_iff.2 ⟨by simp [hkind], rfl⟩,
      yields_pure_iff.2 ⟨rfl, rfl⟩⟩

/-- A file is in the way of a directory. -/
theorem yields_ensureDirectory_of_file (hplace : t.Leads directory place)
    (hdirectory : EndsInName directory) (husable : Usable directory) {content : ByteArray}
    (hitem : t.item? place = some (.file content)) :
    Yields t (ensureDirectory directory) (.error .exists) t := by
  have hkind : t.kind directory = .ok .file := Tree.kind_eq_ok_iff.2
    ⟨_, (hplace.lookup_eq_ok_iff hdirectory husable).2 hitem, rfl⟩
  rw [ensureDirectory, yields_bind_iff]
  refine ⟨_, _, yields_makeDirectory_of_item hplace hdirectory husable hitem, ?_⟩
  exact yields_bind_iff.2 ⟨false, t, yields_isDirectory_iff.2 ⟨by simp [hkind], rfl⟩,
    yields_pure_iff.2 ⟨rfl, rfl⟩⟩

/-- The directories above are turned to only if the first of them is missing. -/
theorem yields_makeDirectories_of_ne {a : Except Fault Unit} (hdirectory : EndsInName directory)
    (hensured : Yields t (ensureDirectory directory) a t') (ha : a ≠ .error .notFound) :
    Yields t (makeDirectories directory) a t' := by
  have hempty : ¬ directory.isEmpty = true := by simpa using hdirectory.ne_empty
  rw [makeDirectories, makeDirectoriesFrom, if_neg hempty]
  refine yields_bind_iff.2 ⟨_, _, hensured, ?_⟩
  split
  · exact absurd rfl ha
  · exact yields_pure_iff.2 ⟨rfl, rfl⟩

/-- Below a directory that is there, a directory can be made unless a file has its place. -/
theorem yields_makeDirectories_iff (hplace : t.Leads directory place)
    (hdirectory : EndsInName directory) (husable : Usable directory) :
    Yields t (makeDirectories directory) (.ok ()) t' ↔
      (∀ content, t.item? place ≠ some (.file content)) ∧ t' = t.ensure place := by
  by_cases hfree : ∀ content, t.item? place ≠ some (.file content)
  · have hensured := yields_ensureDirectory hplace hdirectory husable hfree
    rw [(yields_makeDirectories_of_ne hdirectory hensured nofun).iff]
    simp [hfree]
  · obtain ⟨content, hitem⟩ := not_forall.1 hfree
    have hensured := yields_ensureDirectory_of_file hplace hdirectory husable (not_not.1 hitem)
    rw [(yields_makeDirectories_of_ne hdirectory hensured nofun).iff]
    simp [hfree]

end

end Lexgen.Files
