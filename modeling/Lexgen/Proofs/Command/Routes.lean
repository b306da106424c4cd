/-
# The route configuration after runs of the command for clients

Every client module that is there after some runs stands in the manifest, and the listing of the
directory finds just these. So the command for routes collects the latest ids in the order of their
file names, and since they are of different entities none is left out (`composes_runs`).

Key definitions: `Writable`, `Collects`, `Composes`.
Key theorems: `exists_clientFiles`, `yields_addFiles`, `After.exists_names`, `composes_runs`.
-/
import Lexgen.Proofs.Command.Runs

namespace Lexgen.Files

variable {t : Tree}

/-- Whether a path leads to a file. -/
def Tree.hasFile (t : Tree) (path : String) : Bool :=
  match t.kind path with
  | .ok k => k == .file
  | .error _ => false

theorem Tree.hasFile_iff {path : String} : t.hasFile path = true ↔ t.kind path = .ok .file := by
  rw [hasFile]
  cases t.kind path <;> simp

theorem yields_isFile (path : String) : Yields t (isFile path) (t.hasFile path) t :=
  yields_isFile_iff.2 ⟨Tree.hasFile_iff, rfl⟩

theorem yields_filterAuxM_isFile {ε : Type} : ∀ (paths kept : List String),
    Yields t (paths.filterAuxM (fun path =>
      (liftM (isFile path : StateM Tree Bool) : ExceptT ε (StateM Tree) Bool)) kept).run
      (.ok ((paths.filter t.hasFile).reverse ++ kept)) t
  | [], kept => yields_run_pure_iff.2 ⟨rfl, rfl⟩
  | path :: paths, kept => by
    have hfirst : Yields t
        (liftM (isFile path : StateM Tree Bool) : ExceptT ε (StateM Tree) Bool).run
        (.ok (t.hasFile path)) t := yields_run_liftM_iff.2 (yields_isFile path)
    rw [List.filterAuxM, hfirst.run_bind_iff]
    cases hpath : t.hasFile path with
    | false => simpa [hpath] using yields_filterAuxM_isFile paths kept
    | true => simpa [hpath] using yields_filterAuxM_isFile paths (path :: kept)

/-- Asking for each of some paths whether it leads to a file. -/
theorem yields_filterM_isFile {ε : Type} (paths : List String) :
    Yields t (paths.filterM fun path =>
      (liftM (isFile path : StateM Tree Bool) : ExceptT ε (StateM Tree) Bool)).run
      (.ok (paths.filter t.hasFile)) t := by
  rw [List.filterM, (yields_filterAuxM_isFile paths []).run_bind_iff, yields_run_pure_iff]
  simp

end Lexgen.Files

namespace Lexgen.Command

open Lexgen.Client Lexgen.Data Lexgen.Files Lexgen.Name Lexgen.Project Lexgen.Routes

variable {t t' t₀ : Tree} {root directory : String}

/-! ### Client modules in a directory -/

theorem yields_clientFiles_of_missing (h : ∀ k, t.kind directory ≠ .ok k) :
    Yields t (clientFiles directory).run (.ok []) t := by
  have hthere : Yields t
      (liftM (isThere directory : StateM Tree Bool) : ExceptT Problem (StateM Tree) Bool).run
      (.ok false) t := yields_run_liftM_iff.2 (yields_isThere_iff.2 ⟨by simp [h], rfl⟩)
  rw [clientFiles, hthere.run_bind_iff, if_neg nofun, yields_run_pure_iff]
  exact ⟨rfl, rfl⟩

theorem mem_names_ofNames {names : List String} {n : String} :
    n ∈ (NameSet.ofNames names).names ↔ n ∈ names := by
  rw [NameSet.ofNames, Sorted.ofList, Sorted.mem_names_insertAll, List.map_map]
  simp [Sorted.empty, Sorted.names, Function.comp_def]

/-- **The client modules in a directory** are listed in the order of their names. -/
theorem exists_clientFiles {place : Location} (husable : Usable directory)
    (hplace : t.Leads directory place) (hitem : t.item? place = some .directory) :
    ∃ names : List String,
      Yields t (clientFiles directory).run (.ok (names.map (join directory))) t ∧
        names.Pairwise (· < ·) ∧
        ∀ n, n ∈ names ↔ (t.item? (place ++ [n])).isSome ∧ isClientFile n = true ∧
          t.kind (join directory n) = .ok .file := by
  have hkind := Tree.kind_eq_directory_iff.2 ⟨husable, place, hplace, hitem⟩
  obtain ⟨found, hlist, hmem⟩ := Tree.exists_list_eq_ok hplace husable hitem
  have hthere : Yields t
      (liftM (isThere directory : StateM Tree Bool) : ExceptT Problem (StateM Tree) Bool).run
      (.ok true) t := yields_run_liftM_iff.2 (yields_isThere_iff.2 ⟨by simp [hkind], rfl⟩)
  have hfound : Yields t
      (orProblem (.unreadableDirectory directory) (Access.list (m := StateM Tree) directory)).run
      (.ok found) t := yields_orProblem_iff.2 (yields_list_iff.2 ⟨hlist, rfl⟩)
  let clients := NameSet.ofNames (found.filter isClientFile)
  refine ⟨clients.names.filter (t.hasFile ∘ join directory), ?_, ?_, fun n => ?_⟩
  · rw [clientFiles, hthere.run_bind_iff, if_pos rfl, hfound.run_bind_iff, ← List.filter_map]
    exact yields_filterM_isFile (clients.names.map (join directory))
  · exact (List.pairwise_map.2 clients.increasing).filter _
  · rw [List.mem_filter, mem_names_ofNames, List.mem_filter, Function.comp_apply,
      Tree.hasFile_iff, and_assoc, hmem]

/-- A client module that stands in the manifest is added under its id there. -/
theorem yields_addFile (hdirectory : EndsInName directory) {n id text : String} {r : RouteConfig}
    (hname : IsName n) (hfile : t.lookup (join directory n) = .ok (.file text.toUTF8))
    (hmanifest : r.manifest.collection? n = some id) :
    Yields t (r.addFile (join directory n)).run
      (.ok ({ r with collections := RouteConfig.addNew r.collections id }, some .manifest)) t := by
  have hread : Yields t (orProblem (.unreadableClient (join directory n))
      (readText (m := StateM Tree) (join directory n))).run (.ok text) t :=
    yields_orProblem_iff.2 (yields_readText_iff.2 ⟨hfile, rfl⟩)
  have hresolve : r.resolve n text = some (id, .manifest) := by
    simp [RouteConfig.resolve, hmanifest]
  rw [RouteConfig.addFile, hread.run_bind_iff, yields_run_pure_iff, fileName?_join hdirectory hname]
  simp [RouteConfig.add, hresolve]

/-- **Client modules that stand in the manifest** are all added, one after the other. -/
theorem yields_addFiles (hdirectory : EndsInName directory) {idOf : String → String} :
    ∀ {names : List String} {r : RouteConfig}, (∀ n ∈ names, IsName n) →
      (∀ n ∈ names, ∃ text : String, t.lookup (join directory n) = .ok (.file text.toUTF8)) →
      (∀ n ∈ names, r.manifest.collection? n = some (idOf n)) →
      (r.collections ++ names.map idOf).Nodup →
      Yields t (addFiles r (names.map (join directory))).run
        (.ok ({ r with collections := r.collections ++ names.map idOf }, [])) t
  | [], r, _, _, _, _ => by
    rw [List.map_nil, List.map_nil, List.append_nil]
    exact yields_run_pure_iff.2 ⟨rfl, rfl⟩
  | n :: names, r, hnames, hfiles, hmanifest, hnodup => by
    have hsplit : r.collections ++ (n :: names).map idOf =
        r.collections ++ [idOf n] ++ names.map idOf := by simp
    rw [hsplit] at hnodup ⊢
    have hnew : idOf n ∉ r.collections := by
      intro hmem
      have hdisjoint := (List.nodup_append.1 (List.nodup_append.1 hnodup).1).2.2
      exact hdisjoint _ hmem _ (List.mem_singleton_self _) rfl
    obtain ⟨text, hfile⟩ := hfiles n (List.mem_cons_self ..)
    have hfirst := yields_addFile hdirectory (hnames n (List.mem_cons_self ..)) hfile
      (hmanifest n (List.mem_cons_self ..))
    rw [RouteConfig.addNew, if_neg hnew] at hfirst
    have hrest := @yields_addFiles hdirectory idOf names
      { r with collections := r.collections ++ [idOf n] }
      (fun m hm => hnames m (List.mem_cons_of_mem n hm))
      (fun m hm => hfiles m (List.mem_cons_of_mem n hm))
      (fun m hm => hmanifest m (List.mem_cons_of_mem n hm)) hnodup
    rw [List.map_cons, addFiles, hfirst.run_bind_iff, hrest.run_bind_iff, yields_run_pure_iff]
    exact ⟨rfl, rfl⟩

/-! ### The command for routes -/

/-- The module of the route configuration in a project with the default settings. -/
def routesOf (root : String) : String := ({} : Config).routesPath root

/-- Whether any text can be stored at a path. -/
def Writable (t : Tree) (path : String) : Prop :=
  ∀ text, ∃ how t', Yields t (store path text).run (.ok how) t'

/-- A plan with one output is carried out if that can be stored where it has to. -/
theorem exists_carryOut {dryRun : Bool} {p : Plan} {o : Output} (houtput : p.outputs = [o])
    (hwritable : dryRun = false → Writable t o.path) :
    ∃ files t', Yields t (p.carryOut dryRun).run
      (.ok ⟨p.source, p.collections, p.warnings, files⟩) t' := by
  have hdeliver : ∃ file t', Yields t (o.deliver dryRun).run (.ok file) t' := by
    cases dryRun with
    | true => exact ⟨_, t, yields_preview_iff.2 ⟨rfl, rfl⟩⟩
    | false =>
      obtain ⟨how, t', hstore⟩ := hwritable rfl o.text
      exact ⟨_, t', yields_deliver_iff.2 ⟨how, hstore, rfl⟩⟩
  obtain ⟨file, t', hfile⟩ := hdeliver
  refine ⟨[file], t', yields_carryOut_iff.2 ⟨[file], ?_, rfl⟩⟩
  rw [houtput, yields_deliverAll_cons_iff]
  exact ⟨file, t', hfile, [], yields_deliverAll_nil_iff.2 ⟨rfl, rfl⟩, rfl⟩

/-- The plan for the routes of some client modules, all of them added. -/
def routesPlan (o : RoutesOptions) (files : List String) (r : RouteConfig) : Plan where
  source := toString files.length ++ " client module(s)"
  collections := r.collections
  outputs := [⟨o.output.getD (routesOf o.root), r.render⟩]

theorem yields_planRoutes {o : RoutesOptions} {m : Manifest} {files : List String}
    {r : RouteConfig} (hnone : o.files = [])
    (hconfig : Yields t (Config.load o.root).run (.ok {}) t)
    (hclients : Yields t (clientFiles (apiOf o.root)).run (.ok files) t)
    (hmanifest : Yields t (Manifest.load (apiOf o.root)).run (.ok m) t)
    (hadded : Yields t (addFiles { manifest := m, known := knownWith .empty } files).run
      (.ok (r, [])) t) :
    Yields t (planRoutes o).run (.ok (routesPlan o files r)) t := by
  refine (yields_projectStep_iff.2 hconfig).run_bind_iff.2 ?_
  rw [hnone, List.isEmpty_nil, if_pos rfl]
  refine (yields_projectStep_iff.2 hclients).run_bind_iff.2 ?_
  refine (yields_projectStep_iff.2 hmanifest).run_bind_iff.2 ?_
  refine (yields_projectStep_iff.2 hadded).run_bind_iff.2 ?_
  exact yields_run_pure_iff.2 ⟨rfl, rfl⟩

/-- **Routes of client modules that stand in the manifest** are their ids there, and there is
nothing to warn of. -/
theorem exists_routes {o : RoutesOptions} {m : Manifest} {names : List String}
    {idOf : String → String} (hnone : o.files = [])
    (hconfig : Yields t (Config.load o.root).run (.ok {}) t)
    (hclients : Yields t (clientFiles (apiOf o.root)).run
      (.ok (names.map (join (apiOf o.root)))) t)
    (hmanifest : Yields t (Manifest.load (apiOf o.root)).run (.ok m) t)
    (hnames : ∀ n ∈ names, IsName n)
    (hfiles : ∀ n ∈ names, ∃ text : String,
      t.lookup (join (apiOf o.root) n) = .ok (.file text.toUTF8))
    (hids : ∀ n ∈ names, m.collection? n = some (idOf n)) (hnodup : (names.map idOf).Nodup)
    (hwritable : o.dryRun = false → Writable t (o.output.getD (routesOf o.root))) :
    ∃ report t', Yields t (generate o.dryRun (planRoutes o)) (.ok report) t' ∧
      report.warnings = [] ∧ report.collections = names.map idOf := by
  have hadded := @yields_addFiles t _ (endsInName_api o.root) idOf names
    { manifest := m, known := knownWith .empty } hnames hfiles hids hnodup
  have hplan := yields_planRoutes hnone hconfig hclients hmanifest hadded
  obtain ⟨files, t', hcarry⟩ := exists_carryOut (p := routesPlan o _ _) rfl hwritable
  exact ⟨_, t', yields_generate_iff.2 ⟨_, t, hplan, hcarry⟩, rfl, List.nil_append _⟩

/-! ### After several runs -/

/-- Whether ids are the latest of several runs, for the client files of these in the order of their
names, and none of them occurs twice. -/
def Collects (ids found : List String) : Prop :=
  ∃ files : List String, files.Pairwise (· < ·) ∧
    (∀ file, file ∈ files ↔ ∃ id ∈ ids, clientFileOf id = file) ∧
    found.map some = files.map (latest clientFileOf ids) ∧ found.Nodup

/-- How runs of the command for clients and the command for routes go together. -/
structure Composes (root : String) (t₀ : Tree) (ids : List String) (t : Tree) : Prop where
  /-- Runs that succeed as the first one succeed in any order and any number of times. -/
  succeed : ∀ ids', (∀ id ∈ ids', ∃ t₁, Runs root t₀ [id] t₁) → ∃ t', Runs root t₀ ids' t'
  /-- The command for routes collects the latest ids, wherever it may write. -/
  routes : ∀ o : RoutesOptions, o.root = root → o.files = [] →
    (o.dryRun = false → Writable t (o.output.getD (routesOf root))) →
    ∃ report t', Yields t (generate o.dryRun (planRoutes o)) (.ok report) t' ∧
      report.warnings = [] ∧ Collects ids report.collections
  /-- The files depend on the latest id of each entity only. -/
  files : ∀ ids' t', Runs root t₀ ids' t' →
    (∀ e, latest entityOf ids' e = latest entityOf ids e) → ∀ x, t'.item? x = t.item? x
  /-- Runs of different entities may change places. -/
  reordered : ∀ ids' t', Runs root t₀ ids' t' →
    (∀ e, ids'.filter (entityOf · == e) = ids.filter (entityOf · == e)) →
    ∀ x, t'.item? x = t.item? x
  /-- The last run of an entity may be repeated. -/
  repeated : ∀ lexicon report t',
    Yields t (generate false (planClient { lexicon, root })) (.ok report) t' →
    latest entityOf ids (entityOf report.source) = some report.source →
    ∀ x, t'.item? x = t.item? x

variable {base : Location} {ids ids' : List String}

/-- Before the first run there are no client modules. -/
theorem Fresh.clientFiles (h : Fresh root t) :
    Yields t (clientFiles (apiOf root)).run (.ok []) t := by
  by_cases hthere : ∃ k, t.kind (apiOf root) = .ok k
  · obtain ⟨k, hkind⟩ := hthere
    cases k with
    | file => exact absurd hkind h.no_file
    | directory =>
      obtain ⟨husable, place, hplace, hitem⟩ := Tree.kind_eq_directory_iff.1 hkind
      obtain ⟨names, hnames, -, hmem⟩ := exists_clientFiles husable hplace hitem
      have hnone : names = [] := by
        refine List.eq_nil_iff_forall_not_mem.2 fun n hn => ?_
        obtain ⟨hthere, hclient, hfile⟩ := (hmem n).1 hn
        exact h.no_client n (h.proper.isName place n hthere) hclient hfile
      rwa [hnone] at hnames
  · exact yields_clientFiles_of_missing (not_exists.1 hthere)

namespace After

/-- The client module of an id is there. -/
theorem lookup_client (h : After root t₀ base ids t) {id : String}
    (hid : latest clientFileOf ids (clientFileOf id) = some id) :
    t.lookup (join (apiOf root) (clientFileOf id)) =
      .ok (.file (Client.ofId id).render.toUTF8) := by
  have hmem := (of_latest_eq_some hid).1
  have hwritten : written ids (clientFileOf id) = some (Client.ofId id).render := by
    rw [written, if_neg (List.ne_nil_of_mem hmem),
      if_neg (ne_manifest_of_isClientFile (isClientFile_clientFileOf id)), hid]
    rfl
  obtain ⟨husable, hshort⟩ := h.fits _ _ hwritten
  refine (Tree.lookup_join_eq_ok_iff (h.leads h.leads_api) (h.bare id hmem).isName).2
    ⟨husable, ?_, hshort, ?_⟩
  · rw [h.item, itemAfter_place (List.ne_nil_of_mem hmem)]
  · rw [h.item, itemAfter_below, hwritten]

/-- **The client modules that are found** are those of the runs. -/
theorem exists_names (h : After root t₀ base ids t) (hfresh : Fresh root t₀) (hids : ids ≠ []) :
    ∃ names : List String,
      Yields t (clientFiles (apiOf root)).run (.ok (names.map (join (apiOf root)))) t ∧
        names.Pairwise (· < ·) ∧ ∀ n, n ∈ names ↔ ∃ id ∈ ids, clientFileOf id = n := by
  have hleads := h.leads h.leads_api
  have hdirectory : t.item? (base ++ ["src", "api"]) = some .directory := by
    rw [h.item, itemAfter_place hids]
  obtain ⟨names, hnames, hsorted, hmem⟩ :=
    exists_clientFiles (h.usable_api hids) hleads hdirectory
  refine ⟨names, hnames, hsorted, fun n => ?_⟩
  rw [hmem, ← exists_latest_iff]
  constructor
  · rintro ⟨hitem, hclient, hfile⟩
    -- A client module that no run has written would have been there before the first run.
    by_contra hlatest
    have hold : t.item? (base ++ ["src", "api"] ++ [n]) =
        t₀.item? (base ++ ["src", "api"] ++ [n]) := by
      have hnone : latest clientFileOf ids n = none :=
        Option.eq_none_iff_forall_ne_some.2 fun id hid => hlatest ⟨id, hid⟩
      rw [h.item, itemAfter_below, written, if_neg hids,
        if_neg (ne_manifest_of_isClientFile hclient), hnone]
      rfl
    rw [hold] at hitem
    have hname := hfresh.proper.isName _ n hitem
    obtain ⟨item, hlookup, hkind⟩ := Tree.kind_eq_ok_iff.1 hfile
    obtain ⟨husable, -, hshort, hthere⟩ := (Tree.lookup_join_eq_ok_iff hleads hname).1 hlookup
    refine hfresh.no_client n hname hclient (Tree.kind_eq_ok_iff.2 ⟨item, ?_, hkind⟩)
    exact (Tree.lookup_join_eq_ok_iff h.leads_api hname).2
      ⟨husable, hfresh.proper.parent _ n hitem, hshort, hold ▸ hthere⟩
  · rintro ⟨id, hid⟩
    obtain ⟨-, rfl⟩ := of_latest_eq_some hid
    have hlookup := h.lookup_client hid
    have hitem := ((Tree.lookup_join_eq_ok_iff hleads
      (h.bare id (of_latest_eq_some hid).1).isName).1 hlookup).2.2.2
    exact ⟨by rw [hitem]; rfl, isClientFile_clientFileOf id,
      Tree.kind_eq_ok_iff.2 ⟨_, hlookup, rfl⟩⟩

/-- **The command for routes** collects the latest ids of the runs. -/
theorem exists_routes (h : After root t₀ base ids t) (hfresh : Fresh root t₀) (hids : ids ≠ [])
    {o : RoutesOptions} (hroot : o.root = root) (hnone : o.files = [])
    (hwritable : o.dryRun = false → Writable t (o.output.getD (routesOf root))) :
    ∃ report t', Yields t (generate o.dryRun (planRoutes o)) (.ok report) t' ∧
      report.warnings = [] ∧ Collects ids report.collections := by
  subst hroot
  obtain ⟨names, hnames, hsorted, hmem⟩ := h.exists_names hfresh hids
  let idOf := fun n => (latest clientFileOf ids n).getD ""
  have hlatest : ∀ n ∈ names, latest clientFileOf ids n = some (idOf n) := by
    intro n hn
    obtain ⟨id, hid⟩ := exists_latest_iff.2 ((hmem n).1 hn)
    simp only [idOf, hid, Option.getD_some]
  have hfile : ∀ n ∈ names, clientFileOf (idOf n) = n ∧ idOf n ∈ ids := fun n hn =>
    (of_latest_eq_some (hlatest n hn)).symm
  have hnodup : (names.map idOf).Nodup := by
    refine List.Nodup.map_on (fun m hm n hn heq => ?_) ?_
    · rw [← (hfile m hm).1, heq, (hfile n hn).1]
    · refine hsorted.imp ?_
      rintro m n hlt rfl
      exact String.lt_irrefl m hlt
  obtain ⟨report, t', hroutes, hwarnings, hcollections⟩ := Command.exists_routes hnone
    (h.config hfresh) hnames (h.manifest hfresh)
    (fun n hn => (hfile n hn).1 ▸ (h.bare _ (hfile n hn).2).isName)
    (fun n hn => ⟨_, (hfile n hn).1 ▸ h.lookup_client (by rw [(hfile n hn).1, hlatest n hn])⟩)
    (fun n hn => (collection?_manifestOf ids n).trans (hlatest n hn)) hnodup hwritable
  refine ⟨report, t', hroutes, hwarnings, names, hsorted, hmem, ?_, hcollections ▸ hnodup⟩
  rw [hcollections, List.map_map]
  exact List.map_congr_left fun n hn => (hlatest n hn).symm

end After

/-- **Runs with the same latest ids** leave the same files. -/
theorem item?_eq_of_runs (hfresh : Fresh root t₀) (h : Runs root t₀ ids t)
    (h' : Runs root t₀ ids' t')
    (hlatest : ∀ file, latest clientFileOf ids' file = latest clientFileOf ids file)
    (x : Location) : t'.item? x = t.item? x := by
  rcases after_of_runs hfresh h with ⟨rfl, rfl⟩ | ⟨-, base, hafter⟩ <;>
    rcases after_of_runs hfresh h' with ⟨rfl, rfl⟩ | ⟨-, base', hafter'⟩
  · rfl
  · rw [hafter'.item, itemAfter_congr hlatest, itemAfter_nil]
  · rw [hafter.item, ← itemAfter_congr hlatest, itemAfter_nil]
  · rw [hafter'.item, hafter.item, itemAfter_congr hlatest,
      hafter'.leads_root.eq hafter.leads_root]

/-- **Runs of the command for clients and the command for routes go together.** -/
theorem composes_runs (hfresh : Fresh root t₀) (h : Runs root t₀ ids t) :
    Composes root t₀ ids t where
  succeed ids' hfirst := exists_runs hfresh hfirst
  routes o hroot hnone hwritable := by
    rcases after_of_runs hfresh h with ⟨rfl, rfl⟩ | ⟨hids, base, hafter⟩
    · subst hroot
      obtain ⟨report, t', hroutes, hwarnings, hcollections⟩ := @exists_routes _ o _ [] id hnone
        hfresh.defaults hfresh.clientFiles hfresh.manifest nofun nofun nofun List.nodup_nil
        hwritable
      refine ⟨report, t', hroutes, hwarnings, [], .nil, by simp, ?_, ?_⟩ <;> simp [hcollections]
    · exact hafter.exists_routes hfresh hids hroot hnone hwritable
  files ids' t' h' hlatest := item?_eq_of_runs hfresh h h' (latest_clientFileOf hlatest)
  reordered ids' t' h' hfilter := by
    refine item?_eq_of_runs hfresh h h' (latest_clientFileOf fun e => ?_)
    rw [latest, hfilter, latest]
  repeated lexicon report t' hrun hlatest := by
    have hmem := (of_latest_eq_some hlatest).1
    rcases after_of_runs hfresh h with ⟨rfl, rfl⟩ | ⟨-, base, hafter⟩
    · cases hmem
    · have hagain := h.run hrun (hafter.bare _ hmem)
      refine item?_eq_of_runs hfresh h hagain (latest_clientFileOf fun e => ?_)
      rw [latest_concat]
      split
      · next he => rw [← he, hlatest]
      · rfl

/-- The text of a record lexicon. -/
def recordText (id : String) : String :=
  "\x7b\"lexicon\": 1, \"id\": \"" ++ id ++ "\", \"defs\": \x7b\"main\": " ++
    "\x7b\"type\": \"record\", \"record\": \x7b\"type\": \"object\"\x7d\x7d\x7d\x7d"

/-- A project with a module of the repository client and three record lexicons. -/
def notesProject : Tree where
  items := [
    (["src"], .directory), (["src", "sdk"], .directory),
    (["src", "sdk", "atproto.ts"], .file "".toUTF8),
    (["old.json"], .file (recordText "com.example.note").toUTF8),
    (["event.json"], .file (recordText "com.example.event").toUTF8),
    (["new.json"], .file (recordText "org.example.note").toUTF8)]

/-- Two ids of one entity, and one of another between them. -/
def noteIds : List String := ["com.example.note", "com.example.event", "org.example.note"]

theorem kind_notesProject_api (k : Kind) : notesProject.kind (apiOf ".") ≠ .ok k := by
  have hmissing : notesProject.kind (apiOf ".") = .error .notFound := by decide +kernel
  rw [hmissing]
  exact nofun

theorem fresh_notesProject : Fresh "." notesProject := by
  have hconfig : notesProject.lookup (join "." Config.fileName) = .error .notFound := rfl
  refine fresh_of_missing (by decide +kernel) ?_ kind_notesProject_api
  exact yields_readSettings_iff.2 ⟨.inr ⟨by rw [hconfig]; exact nofun, rfl⟩, rfl⟩

/-- A lexicon of the project can be run on its own. -/
theorem exists_runs_notesProject {lexicon id : String}
    (hfile : notesProject.lookup lexicon = .ok (.file (recordText id).toUTF8))
    (hrecord : recordId? (recordText id) = some id)
    (hid : IsBareId id ∧ Usable (join (apiOf ".") (clientFileOf id)) ∧
      (clientFileOf id).utf8ByteSize ≤ maxName) : ∃ t, Runs "." notesProject [id] t :=
  exists_runs_of_missing fresh_notesProject kind_notesProject_api rfl ⟨_, hfile, hrecord⟩ hid.1
    hid.2.1 hid.2.2 (by decide +kernel)

theorem composes_runs_notesProject : ∃ t, Fresh "." notesProject ∧
    Runs "." notesProject noteIds t ∧ Composes "." notesProject noteIds t := by
  have hold : ∃ t, Runs "." notesProject ["com.example.note"] t :=
    @exists_runs_notesProject "old.json" _ rfl (by decide +kernel) (by decide +kernel)
  have hevent : ∃ t, Runs "." notesProject ["com.example.event"] t :=
    @exists_runs_notesProject "event.json" _ rfl (by decide +kernel) (by decide +kernel)
  have hnew : ∃ t, Runs "." notesProject ["org.example.note"] t :=
    @exists_runs_notesProject "new.json" _ rfl (by decide +kernel) (by decide +kernel)
  obtain ⟨t, hruns⟩ : ∃ t, Runs "." notesProject noteIds t :=
    exists_runs fresh_notesProject (by simp [noteIds, hold, hevent, hnew])
  exact ⟨t, fresh_notesProject, hruns, composes_runs fresh_notesProject hruns⟩

end Lexgen.Command
