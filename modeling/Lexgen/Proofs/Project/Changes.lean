/-
# What storing a file changes

Storing a file that fails adds directories at most (`extends_of_yields_store_error`). Storing one
that succeeds puts it at a location to which its path leads from then on, and whose name is the last
piece of the path; every other file stays (`stores_of_yields`). In a directory where a file was
stored a second one fails only if the system does not take its path or a directory has its place
(`blocked_of_yields_store_error`).

Key definitions: `Puts`, `Stores`.
Key theorems: `yields_store_ok_iff`, `extends_of_yields_store_error`, `stores_of_yields`,
`blocked_of_yields_store_error`.
-/
import Lexgen.Proofs.Files.Changes
import Lexgen.Proofs.Project.Store

namespace Lexgen.Project

open Lexgen.Data Lexgen.Files

variable {t t' : Tree} {path text : String}

theorem within_orProblem {R : Tree → Tree → Prop} {α : Type} {problem : Fault → Problem}
    {x : StateM Tree (Except Fault α)} (hx : Within R x) : Within R (orProblem problem x).run := by
  intro t a t' h
  obtain ⟨b, hb, -⟩ := yields_map_iff.1 h
  exact hx t b t' hb

/-- Settings are read without changing anything. -/
theorem within_readSettings {α : Type} (missing : α) (decode : String → Option α) :
    Within Eq (readSettings path missing decode).run := by
  refine within_run_bind (within_run_liftM (within_isThere path)) fun there => ?_
  cases there with
  | false => exact within_run_pure missing
  | true =>
    refine within_run_bind (within_orProblem (within_readText path)) fun text => ?_
    cases decode text with
    | none => exact within_run_throw _
    | some settings => exact within_run_pure settings

/-! ### Storing a file -/

theorem isName_of_getLast?_pieces {name : String} (hlast : (pieces path).getLast? = some name)
    (hne : name ≠ "") (hentry : Tree.namesEntry (pieces path) = true) : IsName name := by
  rw [Tree.namesEntry, hlast, Bool.and_eq_true, bne_iff_ne, bne_iff_ne] at hentry
  exact ⟨hne, hentry.1, hentry.2, slash_not_mem_of_mem_pieces (List.mem_of_getLast? hlast)⟩

/-- A file was put where a path leads, at a name that the path ends in. -/
structure Puts (t : Tree) (path text : String) (t' : Tree) (place : Location) : Prop where
  leads : t.follow path (pieces path) = .ok place
  named : ∃ name, IsName name ∧ (pieces path).getLast? = some name ∧ place.getLast? = some name
  free : t.item? place ≠ some .directory
  put : t' = t.put place (.file text.toUTF8)

theorem exists_puts_of_replace (h : t.replace path text.toUTF8 = .ok t') :
    ∃ place, Puts t path text t' place := by
  rw [Tree.replace] at h
  split at h
  · cases h
  · obtain ⟨place, hfollow, h⟩ := bind_eq_ok_iff.1 h
    split at h
    · cases h
    · next hentry =>
      split at h
      · cases h
      · next hslash =>
        -- Since the last piece is not empty, the target of the path is the path itself.
        obtain ⟨before, name, hpieces⟩ : ∃ before name, pieces path = before ++ [name] :=
          ⟨_, _, (List.dropLast_append_getLast (pieces_ne_nil path)).symm⟩
        have hlast : (pieces path).getLast? = some name := by simp [hpieces]
        have hne : name ≠ "" := by
          rintro rfl
          exact hslash hlast
        have htarget : Tree.targetPieces path = pieces path := by
          simp [Tree.targetPieces, hpieces, hne]
        rw [htarget] at hfollow hentry
        have hname := isName_of_getLast?_pieces hlast hne (by simpa using hentry)
        have hwalk := (Tree.follow_eq_ok_iff.1 hfollow).2
        rw [hpieces, Tree.walk_append, bind_eq_ok_iff] at hwalk
        obtain ⟨middle, -, hstep⟩ := hwalk
        obtain ⟨-, -, hself⟩ := (Tree.walk_cons_eq_ok_iff hname).1 hstep
        have hplace : place.getLast? = some name := by
          rw [← Except.ok.inj hself]
          exact List.getLast?_concat
        split at h
        · cases h
        · next hfree =>
          exact ⟨place, hfollow, ⟨name, hname, hlast, hplace⟩, hfree, (Except.ok.inj h).symm⟩

theorem yields_orProblem_error_iff {α : Type} {problem : Fault → Problem}
    {x : StateM Tree (Except Fault α)} {p : Problem} :
    Yields t (orProblem problem x).run (.error p) t' ↔
      ∃ fault, Yields t x (.error fault) t' ∧ problem fault = p := by
  have hrun : (orProblem problem x).run = (·.mapError problem) <$> x := rfl
  rw [hrun, yields_map_iff]
  constructor
  · rintro ⟨fault | a, hx, h⟩
    · exact ⟨fault, hx, Except.error.inj h⟩
    · cases h
  · rintro ⟨fault, hx, rfl⟩
    exact ⟨_, hx, rfl⟩

/-- A file is stored by making its directory and putting it in its place. -/
theorem yields_store_ok_iff {how : Written} :
    Yields t (store path text).run (.ok how) t' ↔ ∃ existed t₁,
      Yields t (isThere path) existed t ∧
      Yields t (makeDirectories (directoryOf path)) (.ok ()) t₁ ∧
      t₁.replace path text.toUTF8 = .ok t' ∧
      (if existed then Written.overwritten else .created) = how := by
  rw [store, yields_run_bind_iff]
  simp only [yields_run_liftM_iff, yields_run_bind_iff, yields_orProblem_iff,
    yields_run_pure_iff]
  constructor
  · rintro ⟨existed, t₀, hexisted, ⟨⟩, t₁, hmake, ⟨⟩, t₂, hreplace, hhow, rfl⟩
    obtain ⟨-, rfl⟩ := yields_isThere_iff.1 hexisted
    exact ⟨existed, t₁, hexisted, hmake, yields_changing_iff.1 hreplace, hhow⟩
  · rintro ⟨existed, t₁, hexisted, hmake, hreplace, hhow⟩
    exact ⟨existed, t, hexisted, (), t₁, hmake, (), t', yields_changing_iff.2 hreplace, hhow, rfl⟩

/-- A file is not stored if its directory cannot be made, or it cannot be put in its place. -/
theorem yields_store_error_cases {p : Problem}
    (h : Yields t (store path text).run (.error p) t') :
    (∃ fault, Yields t (makeDirectories (directoryOf path)) (.error fault) t') ∨
    (Yields t (makeDirectories (directoryOf path)) (.ok ()) t' ∧
      ∃ fault, t'.replace path text.toUTF8 = .error fault) := by
  rw [store, yields_run_bind_error_iff] at h
  rcases h with h | ⟨existed, t₀, hexisted, h⟩
  · obtain ⟨b, -, hb⟩ := yields_map_iff.1 h
    cases hb
  · obtain ⟨-, rfl⟩ := yields_isThere_iff.1 (yields_run_liftM_iff.1 hexisted)
    rcases yields_run_bind_error_iff.1 h with h | ⟨_, t₁, hmake, h⟩
    · obtain ⟨fault, hfault, -⟩ := yields_orProblem_error_iff.1 h
      exact .inl ⟨fault, hfault⟩
    · rcases yields_run_bind_error_iff.1 h with h | ⟨_, t₂, -, h⟩
      · obtain ⟨fault, hfault, -⟩ := yields_orProblem_error_iff.1 h
        obtain ⟨herror, rfl⟩ := yields_changing_error_iff.1 hfault
        exact .inr ⟨yields_orProblem_iff.1 hmake, fault, herror⟩
      · cases (yields_pure_iff.1 h).1

/-- A file that is not stored leaves every file as it was. -/
theorem extends_of_yields_store_error {p : Problem}
    (h : Yields t (store path text).run (.error p) t') : Tree.Extends t t' := by
  rcases yields_store_error_cases h with ⟨fault, hmake⟩ | ⟨hmake, -⟩
  · exact within_makeDirectories _ _ _ _ hmake
  · exact within_makeDirectories _ _ _ _ hmake

/-- A text was stored where its path leads, at the name that the path ends in. -/
structure Stores (t : Tree) (path text : String) (t' : Tree) (place : Location) : Prop
    extends Tree.Grows t t' where
  leads : t'.follow path (pieces path) = .ok place
  named : ∃ name, IsName name ∧ (pieces path).getLast? = some name ∧ place.getLast? = some name
  holds : t'.item? place = some (.file text.toUTF8)
  others : ∀ x, x ≠ place → t'.file? x = t.file? x

theorem Puts.ne_root {place : Location} (h : Puts t path text t' place) : place ≠ [] := by
  rintro rfl
  obtain ⟨name, -, -, hname⟩ := h.named
  cases hname

theorem Puts.grows {place : Location} (h : Puts t path text t' place) : Tree.Grows t t' :=
  h.put ▸ Tree.grows_put_file h.ne_root h.free

/-- **A file that is stored** is the only one that changes. -/
theorem stores_of_yields {how : Written} (h : Yields t (store path text).run (.ok how) t') :
    ∃ place, Stores t path text t' place := by
  obtain ⟨existed, t₁, -, hmake, hreplace, -⟩ := yields_store_ok_iff.1 h
  have hdirectories : Tree.Extends t t₁ := within_makeDirectories _ _ _ _ hmake
  obtain ⟨place, hputs⟩ := exists_puts_of_replace hreplace
  refine ⟨place, trans_of Tree.Grows hdirectories.toGrows hputs.grows,
    hputs.grows.follow_eq hputs.leads, hputs.named, ?_, fun x hx => ?_⟩
  · simp [hputs.put, hputs.ne_root]
  · simp [hputs.put, hputs.ne_root, hx, hdirectories.files]

/-! ### A second file in the same directory -/

/-- All names in a directory have the same directory. -/
theorem directoryOf_join_eq {directory first second : String} (hfirst : IsName first)
    (hsecond : IsName second) :
    directoryOf (join directory first) = directoryOf (join directory second) := by
  have hparent : parent? (join directory first) = parent? (join directory second) := by
    rw [parent?, parent?, pieces_join_name hfirst, pieces_join_name hsecond]
    cases basePieces directory with
    | nil => simp [dropIdleEnd, hfirst.ne_empty, hsecond.ne_empty]
    | cons p ps =>
      have hbody : ∀ name, IsName name → ∃ q qs, ps ++ [name] = q :: qs ∧
          dropIdleEnd (ps ++ [name]) = q :: qs ∧ (q :: qs).dropLast = ps := by
        intro name hname
        obtain ⟨q, qs, hq⟩ := List.exists_cons_of_ne_nil (List.concat_ne_nil name ps)
        exact ⟨q, qs, hq, by rw [hname.dropIdleEnd_eq, hq], by rw [← hq, List.dropLast_concat]⟩
      obtain ⟨q, qs, hq, hqbody, hqlast⟩ := hbody first hfirst
      obtain ⟨r, rs, hr, hrbody, hrlast⟩ := hbody second hsecond
      simp only [List.cons_append, hqbody, hrbody, hqlast, hrlast]
  rw [directoryOf, hparent, directoryOf]

theorem directoryOf_ne_empty (path : String) : directoryOf path ≠ "" := by
  unfold directoryOf
  split
  · decide
  · split
    · decide
    · next h => simpa using h

theorem kind_directoryOf_of_yields_store {how : Written}
    (h : Yields t (store path text).run (.ok how) t') :
    t'.kind (directoryOf path) = .ok .directory := by
  obtain ⟨existed, t₁, -, hmake, hreplace, -⟩ := yields_store_ok_iff.1 h
  obtain ⟨place, hputs⟩ := exists_puts_of_replace hreplace
  exact hputs.grows.kind_eq_directory
    (kind_of_yields_makeDirectories (directoryOf_ne_empty path) hmake)

/-- **Why a second file is not stored**, after one in the same directory was: the system does not
take its path, or a directory has its place. -/
theorem blocked_of_yields_store_error {directory first second text' : String} {t₁ : Tree}
    {how : Written} {p : Problem} (hfirst : IsName first) (hsecond : IsName second)
    (hshort : second.utf8ByteSize ≤ maxName)
    (h : Yields t (store (join directory first) text).run (.ok how) t₁)
    (h' : Yields t₁ (store (join directory second) text').run (.error p) t') :
    ¬ Usable (join directory second) ∨ t'.kind (join directory second) = .ok .directory := by
  have hthere := kind_directoryOf_of_yields_store h
  rw [directoryOf_join_eq hfirst hsecond] at hthere
  obtain ⟨t₂, hmade⟩ := exists_yields_makeDirectories hthere
  rcases yields_store_error_cases h' with ⟨fault, hfault⟩ | ⟨hmake, fault, hfault⟩
  · obtain ⟨habsurd, -⟩ := hmade.iff.1 hfault
    cases habsurd
  · have hgrows : Tree.Extends t₁ t' := within_makeDirectories _ _ _ _ hmake
    obtain ⟨place, hstores⟩ := stores_of_yields h
    obtain ⟨middle, hmiddle, hdirectory, -⟩ :=
      Tree.exists_of_follow_join_name hfirst hstores.leads
    have hleads : t'.Leads directory middle := hmiddle.mono hgrows.directories hgrows.here
    have hdirectory' := hgrows.directories middle hdirectory
    by_cases husable : Usable (join directory second)
    · refine .inr (Tree.kind_eq_ok_iff.2 ⟨.directory, ?_, rfl⟩)
      refine (Tree.lookup_join_eq_ok_iff hleads hsecond).2 ⟨husable, hdirectory', hshort, ?_⟩
      by_contra hfree
      have hreplaced : t'.replace (join directory second) text'.toUTF8 = .ok _ :=
        (Tree.replace_eq_ok_iff hleads hsecond).2
          ⟨⟨husable, hdirectory', hshort⟩, hfree, rfl⟩
      rw [hfault] at hreplaced
      cases hreplaced
    · exact .inl husable

end Lexgen.Project
