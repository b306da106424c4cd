/-
# Several runs of the command for clients

After any number of runs the directory of client modules holds the module of the latest id for each
file name, and the manifest of all of them, which each run has read back as the one before wrote it
(`after_of_runs`). No file that was there before is changed (`After.lookup_file`), so lexicons that
can be run at the start can be run in any order and any number of times (`exists_runs`).

Key definitions: `Runs`, `Fresh`, `After`.
Key theorems: `After.concat`, `After.manifest`, `after_of_runs`, `After.lookup_file`, `exists_runs`.
-/
import Lexgen.Proofs.Command.Client
import Mathlib.Data.List.Induction

namespace Lexgen.Command

open Lexgen.Client Lexgen.Files Lexgen.Project Lexgen.Routes

variable {t t' t₀ : Tree} {root : String}

/-! ### Runs and what they leave -/

/-- Runs in the project at `root`, one after the other from the tree `t₀`: the ids of their
lexicons, and the tree that they leave. -/
inductive Runs (root : String) (t₀ : Tree) : List String → Tree → Prop where
  | none : Runs root t₀ [] t₀
  | run {ids : List String} {t t' : Tree} {lexicon : String} {report : Report} :
    Runs root t₀ ids t →
    Yields t (generate false (planClient { lexicon, root })) (.ok report) t' →
    IsBareId report.source → Runs root t₀ (ids ++ [report.source]) t'

/-- A project with the default settings and without client modules or a manifest. -/
structure Fresh (root : String) (t : Tree) : Prop where
  proper : t.Proper
  defaults : Yields t (Config.load root).run (.ok {}) t
  /-- If the directory of client modules is there, it is a directory. -/
  no_file : t.kind (apiOf root) ≠ .ok .file
  no_client : ∀ name, IsName name → isClientFile name = true →
    t.kind (join (apiOf root) name) ≠ .ok .file
  no_manifest : ∀ k, t.kind (join (apiOf root) Manifest.fileName) ≠ .ok k

/-- The text that runs with some ids leave under a name in the directory of client modules. -/
def written (ids : List String) (name : String) : Option String :=
  if ids = [] then none
  else if name = Manifest.fileName then some (manifestOf ids).render
  else (latest clientFileOf ids name).map fun id => (Client.ofId id).render

theorem written_concat (ids : List String) (id name : String) :
    written (ids ++ [id]) name =
      if name = Manifest.fileName then some (manifestOf (ids ++ [id])).render
      else if name = clientFileOf id then some (Client.ofId id).render
      else written ids name := by
  rw [written, if_neg (List.concat_ne_nil id ids), latest_concat]
  split
  · rfl
  · next hname =>
    simp only [eq_comm (a := clientFileOf id)]
    split
    · rfl
    · rw [written, if_neg hname]
      split
      · next hids => rw [hids]; rfl
      · rfl

/-- The latest ids say what is written. -/
theorem written_congr {ids ids' : List String}
    (h : ∀ file, latest clientFileOf ids' file = latest clientFileOf ids file) :
    written ids' = written ids := by
  funext name
  simp only [written, eq_nil_iff_of_latest h, manifestOf_eq h, h]

theorem written_manifest {ids : List String} (h : ids ≠ []) :
    written ids Manifest.fileName = some (manifestOf ids).render := by
  rw [written, if_neg h, if_pos rfl]

theorem isClientFile_of_written {ids : List String} {name text : String}
    (h : written ids name = some text) :
    name = Manifest.fileName ∨ isClientFile name = true := by
  rw [written] at h
  split at h
  · cases h
  · split at h
    · next hname => exact .inl hname
    · obtain ⟨id, hid, -⟩ := Option.map_eq_some_iff.1 h
      exact .inr ((of_latest_eq_some hid).2 ▸ isClientFile_clientFileOf id)

/-- What stands at a location after runs with some ids, from the tree `t₀` on, whose client modules
are in the directory at `place`. -/
def itemAfter (t₀ : Tree) (place : Location) (ids : List String) (x : Location) : Option Item :=
  if ids ≠ [] ∧ x = place then some .directory
  else match (Tree.nameBelow? place x).bind (written ids) with
    | some text => some (.file text.toUTF8)
    | none => t₀.item? x

section
variable {place x : Location} {ids : List String}

theorem itemAfter_congr {ids' : List String}
    (h : ∀ file, latest clientFileOf ids' file = latest clientFileOf ids file) :
    itemAfter t₀ place ids' x = itemAfter t₀ place ids x := by
  simp only [itemAfter, ne_eq, eq_nil_iff_of_latest h, written_congr h]

@[simp] theorem itemAfter_nil : itemAfter t₀ place [] x = t₀.item? x := by
  have hnone : (Tree.nameBelow? place x).bind (written []) = none := by
    cases Tree.nameBelow? place x <;> rfl
  rw [itemAfter, if_neg (by simp), hnone]

@[simp] theorem itemAfter_place (h : ids ≠ []) : itemAfter t₀ place ids place = some .directory :=
  if_pos ⟨h, rfl⟩

@[simp] theorem itemAfter_below (name : String) :
    itemAfter t₀ place ids (place ++ [name]) =
      match written ids name with
      | some text => some (.file text.toUTF8)
      | none => t₀.item? (place ++ [name]) := by
  rw [itemAfter, if_neg (by simp), Tree.nameBelow?_eq_some_iff.2 rfl]
  rfl

theorem itemAfter_other (hplace : x ≠ place) (hbelow : ∀ name, x ≠ place ++ [name]) :
    itemAfter t₀ place ids x = t₀.item? x := by
  have hnone : Tree.nameBelow? place x = none := by
    rw [Option.eq_none_iff_forall_ne_some]
    exact fun name hname => hbelow name (Tree.nameBelow?_eq_some_iff.1 hname)
  rw [itemAfter, if_neg (by simp [hplace]), hnone]
  rfl

end

/-- What runs with some ids leave of a project at `base`, from the tree `t₀` on. -/
structure After (root : String) (t₀ : Tree) (base : Location) (ids : List String) (t : Tree) :
    Prop where
  leads_root : t₀.Leads root base
  leads_api : t₀.Leads (apiOf root) (base ++ ["src", "api"])
  here : t.here = t₀.here
  directories : ∀ x, t₀.item? x = some .directory → t.item? x = some .directory
  item : ∀ x, t.item? x = itemAfter t₀ (base ++ ["src", "api"]) ids x
  bare : ∀ id ∈ ids, IsBareId id
  fits : ∀ name text, written ids name = some text →
    Usable (join (apiOf root) name) ∧ name.utf8ByteSize ≤ maxName

namespace After

variable {base : Location} {ids : List String} {id : String}

theorem leads (h : After root t₀ base ids t) {directory : String} {place : Location}
    (hplace : t₀.Leads directory place) : t.Leads directory place :=
  hplace.mono h.directories h.here

/-- Before the first run nothing has changed. -/
theorem start (hroot : t₀.Leads root base)
    (hapi : t₀.Leads (apiOf root) (base ++ ["src", "api"])) : After root t₀ base [] t₀ where
  leads_root := hroot
  leads_api := hapi
  here := rfl
  directories _ hx := hx
  item _ := itemAfter_nil.symm
  bare := nofun
  fits := nofun

/-- One more client module and the manifest with it. -/
theorem concat (h : After root t₀ base ids t) (hid : IsBareId id)
    (hclient : Storable t (apiOf root) (base ++ ["src", "api"]) (clientFileOf id))
    (hmanifest : Storable t (apiOf root) (base ++ ["src", "api"]) Manifest.fileName) :
    After root t₀ base (ids ++ [id])
      ((t.stored (base ++ ["src", "api"]) (clientFileOf id) (Client.ofId id).render).stored
        (base ++ ["src", "api"]) Manifest.fileName (manifestOf (ids ++ [id])).render) := by
  have hne : Manifest.fileName ≠ clientFileOf id :=
    (ne_manifest_of_isClientFile (isClientFile_clientFileOf id)).symm
  have hstored : Storable (t.stored (base ++ ["src", "api"]) (clientFileOf id)
      (Client.ofId id).render) (apiOf root) (base ++ ["src", "api"]) Manifest.fileName :=
    (hclient.stored_iff hne).2 hmanifest
  refine ⟨h.leads_root, h.leads_api, ?here, ?directories, ?item, ?bare, ?fits⟩
  case here => simp [h.here]
  case directories =>
    exact fun x hx => hstored.directories _ (hclient.directories _ (h.directories x hx))
  case item =>
    intro x
    rw [Tree.item?_stored hstored.free, Tree.item?_stored hclient.free, h.item]
    by_cases hplace : x = base ++ ["src", "api"]
    · simp [hplace]
    by_cases hbelow : ∃ name, x = base ++ ["src", "api"] ++ [name]
    · obtain ⟨name, rfl⟩ := hbelow
      simp only [itemAfter_below, written_concat, List.append_cancel_left_eq, List.cons.injEq,
        and_true, if_neg hplace]
      split
      · rfl
      · split <;> rfl
    · have hother : ∀ name, x ≠ base ++ ["src", "api"] ++ [name] := not_exists.1 hbelow
      simp only [itemAfter_other hplace hother, hother, hplace, if_false]
  case bare =>
    intro id' hid'
    rcases List.mem_append.1 hid' with hid' | hid'
    · exact h.bare id' hid'
    · rwa [List.mem_singleton.1 hid']
  case fits =>
    intro name text hname
    rw [written_concat] at hname
    split at hname
    · next heq => exact heq ▸ ⟨hmanifest.usable, hmanifest.short⟩
    · split at hname
      · next heq => exact heq ▸ ⟨hclient.usable, hclient.short⟩
      · exact h.fits name text hname

theorem usable_api (h : After root t₀ base ids t) (hids : ids ≠ []) : Usable (apiOf root) :=
  (h.fits _ _ (written_manifest hids)).1.of_join (endsInName_api root).ne_empty isName_manifest

/-- The settings are as they were. -/
theorem config (h : After root t₀ base ids t) (hfresh : Fresh root t₀) :
    Yields t (Config.load root).run (.ok {}) t := by
  have hname : IsName Config.fileName := by decide
  have hsame (x : Location) (hplace : x ≠ base ++ ["src", "api"])
      (hbelow : ∀ name, x ≠ base ++ ["src", "api"] ++ [name]) : t.item? x = t₀.item? x := by
    rw [h.item, itemAfter_other hplace hbelow]
  refine yields_readSettings_congr (fun item => ?_) hfresh.defaults
  refine Tree.lookup_join_congr h.leads_root (h.leads h.leads_root) hname ?_ ?_
  · exact hsame base (by simp) (by simp)
  · exact hsame _ (by simp) (by simp)

/-- **The manifest that is read** is the one that was written last. -/
theorem manifest (h : After root t₀ base ids t) (hfresh : Fresh root t₀) :
    Yields t (Manifest.load (apiOf root)).run (.ok (manifestOf ids)) t := by
  have hleads := h.leads h.leads_api
  refine yields_readSettings_iff.2 ⟨?_, rfl⟩
  by_cases hids : ids = []
  · subst hids
    refine .inr ⟨fun item hitem => ?_, rfl⟩
    have hsame (x : Location) : t.item? x = t₀.item? x := by simp [h.item]
    rw [Tree.lookup_join_congr h.leads_api hleads isName_manifest (hsame _) (hsame _)] at hitem
    exact hfresh.no_manifest item.kind (Tree.kind_eq_ok_iff.2 ⟨item, hitem, rfl⟩)
  · have hwritten := written_manifest hids
    obtain ⟨husable, hshort⟩ := h.fits _ _ hwritten
    refine .inl ⟨(manifestOf ids).render, ?_, ofToml_manifestOf h.bare⟩
    refine (Tree.lookup_join_eq_ok_iff hleads isName_manifest).2 ⟨husable, ?_, hshort, ?_⟩
    · simp [h.item, hids]
    · rw [h.item, itemAfter_below, hwritten]

/-- **One more run** keeps what runs leave. -/
theorem run (h : After root t₀ base ids t) (hfresh : Fresh root t₀) {lexicon : String}
    {report : Report} (hid : IsBareId report.source)
    (hrun : Yields t (generate false (planClient { lexicon, root })) (.ok report) t') :
    After root t₀ base (ids ++ [report.source]) t' := by
  obtain ⟨-, ⟨hclient, hmanifest⟩, rfl⟩ := (exists_report_iff (h.config hfresh)
    (h.manifest hfresh) (h.leads h.leads_api) hid.isName).1 ⟨report, hrun, rfl⟩
  rw [← manifestOf_concat]
  exact h.concat hid hclient hmanifest

end After

theorem Fresh.manifest (h : Fresh root t₀) :
    Yields t₀ (Manifest.load (apiOf root)).run (.ok .empty) t₀ := by
  refine yields_readSettings_iff.2 ⟨.inr ⟨fun item hitem => ?_, rfl⟩, rfl⟩
  exact h.no_manifest item.kind (Tree.kind_eq_ok_iff.2 ⟨item, hitem, rfl⟩)

/-- **After any number of runs** the project is as their ids say. -/
theorem after_of_runs (hfresh : Fresh root t₀) {ids : List String} (h : Runs root t₀ ids t) :
    (ids = [] ∧ t = t₀) ∨ (ids ≠ [] ∧ ∃ base, After root t₀ base ids t) := by
  induction h with
  | none => exact .inl ⟨rfl, rfl⟩
  | run hruns hrun hid ih =>
    refine .inr ⟨List.concat_ne_nil _ _, ?_⟩
    rcases ih with ⟨rfl, rfl⟩ | ⟨-, base, hafter⟩
    · obtain ⟨p, _, hp, -⟩ := yields_generate_iff.1 hrun
      have hplan := (yields_planClient_iff hfresh.defaults hfresh.manifest).1 hp
      obtain ⟨base, hroot, hapi⟩ := exists_leads_of_sdk hplan.1
      exact ⟨base, (After.start hroot hapi).run hfresh hid hrun⟩
    · exact ⟨base, hafter.run hfresh hid hrun⟩

/-! ### Runs that succeed -/

section
variable {base : Location} {ids : List String} {id : String}

/-- **No file that was there is changed**, since there was no file at any place that is written. -/
theorem After.lookup_file (h : After root t₀ base ids t) (hfresh : Fresh root t₀) {path : String}
    {content : ByteArray} (hfile : t₀.lookup path = .ok (.file content)) :
    t.lookup path = .ok (.file content) := by
  obtain ⟨x, hfollow, hx⟩ := Tree.lookup_eq_ok_iff.1 hfile
  obtain ⟨husable, hwalk⟩ := Tree.follow_eq_ok_iff.1 hfollow
  have hstart : t.start path = t₀.start path := by rw [Tree.start, Tree.start, h.here]
  have hfollow' : t.follow path (pieces path) = .ok x :=
    Tree.follow_eq_ok_iff.2 ⟨husable, hstart ▸ Tree.walk_mono h.directories hwalk⟩
  refine Tree.lookup_eq_ok_iff.2 ⟨x, hfollow', ?_⟩
  rw [h.item]
  by_cases hids : ids = []
  · rw [hids, itemAfter_nil, hx]
  by_cases hplace : x = base ++ ["src", "api"]
  · subst hplace
    have hkind : t₀.kind (apiOf root) = .ok .file := Tree.kind_eq_ok_iff.2
      ⟨_, (h.leads_api.lookup_eq_ok_iff (endsInName_api root) (h.usable_api hids)).2 hx, rfl⟩
    exact absurd hkind hfresh.no_file
  by_cases hbelow : ∃ name, x = base ++ ["src", "api"] ++ [name]
  · obtain ⟨name, rfl⟩ := hbelow
    rw [itemAfter_below]
    cases hwritten : written ids name with
    | none => exact hx
    | some text =>
      have hsome : (t₀.item? (base ++ ["src", "api"] ++ [name])).isSome := by rw [hx]; rfl
      have hname := hfresh.proper.isName _ name hsome
      obtain ⟨husable, hshort⟩ := h.fits name text hwritten
      have hkind : t₀.kind (join (apiOf root) name) = .ok .file := Tree.kind_eq_ok_iff.2
        ⟨_, (Tree.lookup_join_eq_ok_iff h.leads_api hname).2
          ⟨husable, hfresh.proper.parent _ name hsome, hshort, hx⟩, rfl⟩
      rcases isClientFile_of_written hwritten with rfl | hclient
      · exact absurd hkind (hfresh.no_manifest .file)
      · exact absurd hkind (hfresh.no_client name hname hclient)
  · rw [itemAfter_other hplace (not_exists.1 hbelow), hx]

theorem After.kind_file (h : After root t₀ base ids t) (hfresh : Fresh root t₀) {path : String}
    (hkind : t₀.kind path = .ok .file) : t.kind path = .ok .file := by
  obtain ⟨item, hlookup, hitem⟩ := Tree.kind_eq_ok_iff.1 hkind
  cases item with
  | directory => cases hitem
  | file content => exact Tree.kind_eq_ok_iff.2 ⟨_, h.lookup_file hfresh hlookup, rfl⟩

theorem After.serves (h : After root t₀ base ids t) (hfresh : Fresh root t₀) {path : String}
    (hserves : Serves t₀ path id) : Serves t path id := by
  obtain ⟨text, hlookup, hlexicon⟩ := hserves
  exact ⟨text, h.lookup_file hfresh hlookup, hlexicon⟩

/-- What could be stored at the start can be stored later. -/
theorem After.storable (h : After root t₀ base ids t) {name : String}
    (hname : Storable t₀ (apiOf root) (base ++ ["src", "api"]) name) :
    Storable t (apiOf root) (base ++ ["src", "api"]) name := by
  refine ⟨hname.usable, hname.short, ?_, ?_⟩
  · intro content
    by_cases hids : ids = []
    · rw [h.item, hids, itemAfter_nil]
      exact hname.free content
    · simp [h.item, itemAfter_place hids]
  · rw [h.item, itemAfter_below]
    cases written ids name with
    | some text => simp
    | none => exact hname.no_directory

theorem eq_of_runs_nil (h : Runs root t₀ [] t) : t = t₀ := by
  generalize hids : ([] : List String) = ids at h
  cases h with
  | none => rfl
  | run => cases List.concat_ne_nil _ _ hids.symm

theorem of_runs_singleton (h : Runs root t₀ [id] t) : IsBareId id ∧ ∃ lexicon report,
    Yields t₀ (generate false (planClient { lexicon, root })) (.ok report) t ∧
      report.source = id := by
  generalize hids : [id] = ids at h
  cases h with
  | none => cases hids
  | run hruns hrun hid =>
    obtain ⟨rfl, hsource⟩ := @List.append_inj' _ [] [id] _ _ hids rfl
    obtain rfl := eq_of_runs_nil hruns
    obtain ⟨rfl⟩ : id = _ := List.singleton_inj.1 hsource
    exact ⟨hid, _, _, hrun, rfl⟩

/-- Runs leave what their ids say of the place where the project is. -/
theorem after_of_leads (hfresh : Fresh root t₀) (h : Runs root t₀ ids t)
    (hroot : t₀.Leads root base) (hapi : t₀.Leads (apiOf root) (base ++ ["src", "api"])) :
    After root t₀ base ids t := by
  rcases after_of_runs hfresh h with ⟨rfl, rfl⟩ | ⟨-, base', hafter⟩
  · exact After.start hroot hapi
  · exact hafter.leads_root.eq hroot ▸ hafter

/-- A run that succeeds as the first one succeeds after others. -/
theorem exists_runs_concat (hfresh : Fresh root t₀) (h : Runs root t₀ ids t)
    (hfirst : ∃ t₁, Runs root t₀ [id] t₁) : ∃ t', Runs root t₀ (ids ++ [id]) t' := by
  obtain ⟨t₁, hid⟩ := hfirst
  obtain ⟨hbare, lexicon, report, hrun, hsource⟩ := of_runs_singleton hid
  obtain ⟨p, _, hp, -⟩ := yields_generate_iff.1 hrun
  have hsdk := ((yields_planClient_iff hfresh.defaults hfresh.manifest).1 hp).1
  obtain ⟨base, hroot, hapi⟩ := exists_leads_of_sdk hsdk
  obtain ⟨⟨-, hserves⟩, ⟨hclient, hmanifest⟩, -⟩ := (exists_report_iff hfresh.defaults
    hfresh.manifest hapi hbare.isName).1 ⟨report, hrun, hsource⟩
  have hafter := after_of_leads hfresh h hroot hapi
  obtain ⟨report, hagain, rfl⟩ := (exists_report_iff (hafter.config hfresh)
    (hafter.manifest hfresh) (hafter.leads hapi) hbare.isName).2
    ⟨⟨hafter.kind_file hfresh hsdk, hafter.serves hfresh hserves⟩,
      ⟨hafter.storable hclient, hafter.storable hmanifest⟩, rfl⟩
  exact ⟨_, h.run hagain hbare⟩

/-- **What can be run at the start** can be run in any order and any number of times. -/
theorem exists_runs (hfresh : Fresh root t₀) (hfirst : ∀ id ∈ ids, ∃ t, Runs root t₀ [id] t) :
    ∃ t, Runs root t₀ ids t := by
  induction ids using List.reverseRecOn with
  | nil => exact ⟨t₀, .none⟩
  | append_singleton ids id ih =>
    obtain ⟨t, hruns⟩ := ih fun id' hid' => hfirst id' (List.mem_append_left _ hid')
    exact exists_runs_concat hfresh hruns
      (hfirst id (List.mem_append_right _ (List.mem_singleton_self id)))

end

/-! ### A project without the directory of client modules -/

theorem fresh_of_missing (hproper : t.Proper)
    (hdefaults : Yields t (Config.load root).run (.ok {}) t)
    (hmissing : ∀ k, t.kind (apiOf root) ≠ .ok k) : Fresh root t where
  proper := hproper
  defaults := hdefaults
  no_file := hmissing .file
  no_client name hname _ hfile := by
    obtain ⟨item, hitem, -⟩ := Tree.kind_eq_ok_iff.1 hfile
    exact hmissing _ (Tree.kind_of_lookup_join (endsInName_api root).ne_empty hname hitem)
  no_manifest k hk := by
    obtain ⟨item, hitem, -⟩ := Tree.kind_eq_ok_iff.1 hk
    exact hmissing _ (Tree.kind_of_lookup_join (endsInName_api root).ne_empty isName_manifest hitem)

/-- The first run makes the directory of client modules. -/
theorem exists_runs_of_missing (hfresh : Fresh root t) (hmissing : ∀ k, t.kind (apiOf root) ≠ .ok k)
    {lexicon id : String} (hsdk : t.kind (sdkOf root) = .ok .file) (hserves : Serves t lexicon id)
    (hid : IsBareId id) (hclient : Usable (join (apiOf root) (clientFileOf id)))
    (hshort : (clientFileOf id).utf8ByteSize ≤ maxName)
    (hmanifest : Usable (join (apiOf root) Manifest.fileName)) : ∃ t', Runs root t [id] t' := by
  obtain ⟨base, -, hapi⟩ := exists_leads_of_sdk hsdk
  have hnone : t.item? (base ++ ["src", "api"]) = none := by
    refine Option.eq_none_iff_forall_ne_some.2 fun item hitem => hmissing item.kind ?_
    have husable := hclient.of_join (endsInName_api root).ne_empty hid.isName
    exact Tree.kind_eq_ok_iff.2 ⟨item,
      (hapi.lookup_eq_ok_iff (endsInName_api root) husable).2 hitem, rfl⟩
  have hstorable (name : String) (husable : Usable (join (apiOf root) name))
      (hname : name.utf8ByteSize ≤ maxName) :
      Storable t (apiOf root) (base ++ ["src", "api"]) name := by
    refine ⟨husable, hname, by simp [hnone], fun hitem => ?_⟩
    have hplace := hfresh.proper.parent _ name (by rw [hitem]; rfl)
    rw [hnone] at hplace
    cases hplace
  obtain ⟨report, hrun, rfl⟩ := (exists_report_iff hfresh.defaults hfresh.manifest hapi
    hid.isName).2 ⟨⟨hsdk, hserves⟩, ⟨hstorable _ hclient hshort,
      hstorable _ hmanifest (by decide)⟩, rfl⟩
  exact ⟨_, Runs.none.run hrun hid⟩

end Lexgen.Command
