/-
# Where a module specifier leads

Two ways are what they share and what is left of each (`exists_shared`), so a specifier climbs as
often as names of the one are left, and goes down through those of the other (`follow_specifier`).
A specifier is written from names only. So it can lead to the module only if both paths go up
equally often (`count_up_of_follow_eq`), and then it does if both go up before they go down
(`follow_eq_of_forward`). The repository client is a module with a file extension; the types
directory has none, and what stands behind the last dot of its name is lost.

Key definitions: `Apart`, `Config.LeadsToSdk`, `Config.LeadsToTypes`.
Key theorems: `exists_shared`, `follow_specifier`, `count_up_of_follow_eq`, `follow_eq_of_forward`,
`leadsToSdk_of_relative`, `leadsToTypes_of_onlyNames`.
-/
import Lexgen.Project.Config
import Lexgen.Proofs.Files.Destination

namespace Lexgen.Project

open Lexgen.Files

/-! ### What two ways share -/

/-- Whether two ways do not start with the same name. -/
def Apart (up down : List String) : Prop := ∀ n, up.head? = some n → down.head? ≠ some n

/-- Two ways are what they share, and then what is left of each. -/
theorem exists_shared : ∀ source target : List String, ∃ shared up down,
    dropShared source target = (up, down) ∧ source = shared ++ up ∧ target = shared ++ down ∧
      Apart up down
  | [], target => ⟨[], [], target, rfl, rfl, rfl, fun n h => by cases h⟩
  | a :: as, [] => ⟨[], a :: as, [], rfl, rfl, rfl, fun n _ h => by cases h⟩
  | a :: as, b :: bs => by
    rw [dropShared]
    split
    · next heq =>
      obtain ⟨shared, up, down, hdrop, hsource, htarget, hapart⟩ := exists_shared as bs
      refine ⟨a :: shared, up, down, hdrop, ?_, ?_, hapart⟩
      · rw [hsource, List.cons_append]
      · rw [htarget, heq, List.cons_append]
    · next hne =>
      refine ⟨[], a :: as, b :: bs, rfl, rfl, rfl, fun n ha hb => hne ?_⟩
      exact (Option.some.inj ha).trans (Option.some.inj hb).symm

/-! ### The steps of a specifier -/

theorem filterMap_stepOf_ups (up : List String) :
    (up.map fun _ => "..").filterMap stepOf = List.replicate up.length .up := by
  rw [List.map_const']
  exact List.filterMap_replicate_of_some rfl

/-- **A specifier** climbs as often as names of the source are left, and goes down through the
names that are left of the target. -/
theorem follow_specifier {source target up down : List String}
    (hdrop : dropShared source target = (up, down)) (h : ∀ n ∈ down, IsName n)
    (d : Destination) : d.follow (specifier source target) = (d.climb up.length).below down := by
  have hslash : ∀ p ∈ down, '/' ∉ p.toList := fun p hp => (h p hp).no_slash
  rw [specifier, hdrop, Destination.follow, ← Destination.walk_names,
    ← Destination.walk_replicate_up]
  match up, down with
  | [], [] => rfl
  | [], n :: down =>
    have htext : "./" ++ "/".intercalate (n :: down) = "/".intercalate ("." :: n :: down) := by
      rw [String.intercalate_cons_cons]
      rfl
    show d.walk (steps ("./" ++ "/".intercalate (n :: down))) = _
    rw [htext, steps_intercalate (by decide) (List.forall_mem_cons.2 ⟨by decide, hslash⟩),
      filterMap_stepOf h]
    rfl
  | u :: up, down =>
    have hups : ∀ p ∈ (up.map fun _ => "..") ++ down, '/' ∉ p.toList := by
      intro p hp
      rcases List.mem_append.1 hp with hp | hp
      · obtain ⟨_, -, rfl⟩ := List.mem_map.1 hp
        decide
      · exact hslash p hp
    show d.walk (steps ("/".intercalate (".." :: ((up.map fun _ => "..") ++ down)))) = _
    rw [steps_intercalate (by decide) (List.forall_mem_cons.2 ⟨by decide, hups⟩),
      List.filterMap_append, filterMap_stepOf_ups, filterMap_stepOf h, ← Destination.walk_append]
    rfl

/-- From a way of names to another, a specifier leads there. -/
theorem follow_specifier_names {source target : List String} (h : ∀ n ∈ target, IsName n)
    (ups : Nat) :
    Destination.follow { ups, names := source } (specifier source target) =
      { ups, names := target } := by
  obtain ⟨shared, up, down, hdrop, rfl, rfl, -⟩ := exists_shared source target
  rw [follow_specifier hdrop fun n hn => h n (List.mem_append_right shared hn)]
  have hups : up.length - (shared.length + up.length) = 0 := by omega
  simp [Destination.climb, Destination.below, hups]

/-- How an import starts that is relative to the importing module. -/
def Dotted (text : String) : Prop :=
  text = "." ∨ text = ".." ∨ ∃ rest, text = "./" ++ rest ∨ text = "../" ++ rest

theorem dotted_specifier (source target : List String) : Dotted (specifier source target) := by
  rw [specifier]
  split
  · exact .inl rfl
  · exact .inr (.inr ⟨_, .inl rfl⟩)
  · next up down _ hdown _ =>
    cases up with
    | nil => exact (hdown rfl).elim
    | cons u up =>
      rw [List.map_cons, List.cons_append]
      cases hrest : (up.map fun _ => "..") ++ down with
      | nil => exact .inr (.inl (String.intercalate_singleton ..))
      | cons next rest =>
        exact .inr (.inr ⟨_, .inr (by rw [String.intercalate_cons_cons]; rfl)⟩)

namespace Config

/-! ### The repository client -/

/-- The directory of the client modules. -/
def clientsPlace (c : Config) : Destination := locate c.layout.api

/-- The steps to the repository client without its file extension. -/
def sdkSteps (c : Config) : List Step := dropExtension (steps c.layout.sdk)

/-- The repository client without its file extension. -/
def sdkPlace (c : Config) : Destination := Destination.walk {} c.sdkSteps

/-- Where the import of the repository client leads. -/
structure LeadsToSdk (c : Config) : Prop where
  /-- The names of the two paths are all that the import knows of: it climbs as often as names of
  the client directory are not shared, and goes down through those of the repository client. -/
  place : ∃ shared up down, names c.layout.api = shared ++ up ∧
    c.sdkSteps.filterMap Step.name? = shared ++ down ∧ Apart up down ∧
    c.clientsPlace.follow c.sdkImport = (c.clientsPlace.climb up.length).below down
  /-- It does not lead to the repository client unless both paths go up equally often. -/
  level : c.clientsPlace.follow c.sdkImport = c.sdkPlace →
    (steps c.layout.api).count .up = c.sdkSteps.count .up
  /-- If neither path goes up behind a name, it leads there exactly then. -/
  forward : Forward (steps c.layout.api) → Forward c.sdkSteps →
    (c.clientsPlace.follow c.sdkImport = c.sdkPlace ↔
      (steps c.layout.api).count .up = c.sdkSteps.count .up)

section RepositoryClient

variable {c : Config}

theorem isName_of_mem_sdkSteps {n : String} (h : n ∈ c.sdkSteps.filterMap Step.name?) :
    IsName n :=
  isName_of_mem_dropExtension (mem_filterMap_name?.1 h)

theorem exists_sdkPlace (c : Config) : ∃ shared up down, names c.layout.api = shared ++ up ∧
    c.sdkSteps.filterMap Step.name? = shared ++ down ∧ Apart up down ∧
    c.clientsPlace.follow c.sdkImport = (c.clientsPlace.climb up.length).below down := by
  obtain ⟨shared, up, down, hdrop, hsource, htarget, hapart⟩ :=
    exists_shared (names c.layout.api) (c.sdkSteps.filterMap Step.name?)
  refine ⟨shared, up, down, hsource, htarget, hapart, follow_specifier hdrop (fun n hn => ?_) _⟩
  exact isName_of_mem_sdkSteps (htarget ▸ List.mem_append_right shared hn)

theorem count_up_of_follow_eq (hapi : .root ∉ steps c.layout.api) (hsdk : .root ∉ c.sdkSteps)
    (h : c.clientsPlace.follow c.sdkImport = c.sdkPlace) :
    (steps c.layout.api).count .up = c.sdkSteps.count .up := by
  obtain ⟨shared, up, down, hsource, htarget, -, hplace⟩ := exists_sdkPlace c
  have himport := c.clientsPlace.level_below_climb up.length down
  have hclients := Destination.level_walk hapi {}
  have hmodule := Destination.level_walk hsdk {}
  -- Both level equations count names, and the names are counted by what is shared.
  rw [← hplace, h] at himport
  rw [htarget] at hmodule
  rw [← names, hsource] at hclients
  simp only [clientsPlace, sdkPlace, locate, Destination.follow] at himport
  simp only [List.length_append, List.length_nil] at hclients hmodule
  omega

theorem follow_eq_of_forward (hapi : .root ∉ steps c.layout.api) (hsdk : .root ∉ c.sdkSteps)
    (hapiForward : Forward (steps c.layout.api)) (hsdkForward : Forward c.sdkSteps)
    (h : (steps c.layout.api).count .up = c.sdkSteps.count .up) :
    c.clientsPlace.follow c.sdkImport = c.sdkPlace := by
  have hclients : c.clientsPlace = { ups := 0 + (steps c.layout.api).count .up
                                     names := names c.layout.api } :=
    walk_of_forward hapi hapiForward 0
  have hmodule : c.sdkPlace = { ups := 0 + c.sdkSteps.count .up
                                names := c.sdkSteps.filterMap Step.name? } :=
    walk_of_forward hsdk hsdkForward 0
  rw [hclients, hmodule, h]
  exact follow_specifier_names (fun n hn => isName_of_mem_sdkSteps hn) _

/-- **The import of the repository client**, from a client directory to a module that are both
given by relative paths. -/
theorem leadsToSdk_of_relative (hapi : isRooted c.layout.api = false)
    (hsdk : isRooted c.layout.sdk = false) : LeadsToSdk c := by
  have hapiRoot := root_not_mem_steps hapi
  have hsdkRoot : .root ∉ c.sdkSteps := root_not_mem_dropExtension (root_not_mem_steps hsdk)
  have hlevel := count_up_of_follow_eq hapiRoot hsdkRoot
  refine ⟨exists_sdkPlace c, hlevel, fun hapiForward hsdkForward => ⟨hlevel, ?_⟩⟩
  exact follow_eq_of_forward hapiRoot hsdkRoot hapiForward hsdkForward

end RepositoryClient

/-- A project whose client modules and repository client are both beside it. -/
def outerProject : Config := { layout := { api := "../out/./api", sdk := "../sdk.ts" } }

theorem leadsToSdk_outerProject :
    isRooted outerProject.layout.api = false ∧ isRooted outerProject.layout.sdk = false ∧
      LeadsToSdk outerProject ∧
      outerProject.clientsPlace.follow outerProject.sdkImport = outerProject.sdkPlace := by
  have hleads : LeadsToSdk outerProject := leadsToSdk_of_relative (by decide) (by decide)
  have hreached := (hleads.forward (by decide +kernel) (by decide +kernel)).2 (by decide +kernel)
  exact ⟨by decide, by decide, hleads, hreached⟩

/-- A project whose repository client is beside it, and whose client modules are in it. -/
def sharedSdk : Config := { layout := { sdk := "../shared/atproto.ts" } }

/-- The import stays in the project. -/
theorem not_reached_sharedSdk :
    isRooted sharedSdk.layout.api = false ∧ isRooted sharedSdk.layout.sdk = false ∧
      sharedSdk.sdkImport = "../../shared/atproto" ∧
      sharedSdk.clientsPlace.follow sharedSdk.sdkImport = { names := ["shared", "atproto"] } ∧
      sharedSdk.clientsPlace.follow sharedSdk.sdkImport ≠ sharedSdk.sdkPlace := by
  decide +kernel

/-! ### The types directory -/

/-- Whether a path goes to names only. -/
def OnlyNames (path : String) : Prop := ∀ s ∈ steps path, s.name?.isSome

instance (path : String) : Decidable (OnlyNames path) :=
  inferInstanceAs (Decidable (∀ s ∈ steps path, s.name?.isSome))

theorem OnlyNames.steps_eq {path : String} (h : OnlyNames path) :
    steps path = (names path).map .name := by
  rw [names, List.map_filterMap]
  refine (List.filterMap_some.symm).trans (List.filterMap_congr fun s hs => ?_)
  have hname := h s hs
  cases s with
  | name n => rfl
  | _ => cases hname

theorem OnlyNames.locate_eq {path : String} (h : OnlyNames path) :
    locate path = { names := names path } := by
  rw [locate, Destination.follow, h.steps_eq, Destination.walk_names]
  rfl

/-- Where the import of the types directory leads. -/
structure LeadsToTypes (c : Config) : Prop where
  dotted : Dotted c.typesDir
  /-- It leads to what is left of the directory without a file extension. -/
  place : c.clientsPlace.follow c.typesDir =
    { names := (dropExtension (steps c.layout.types)).filterMap Step.name? }
  /-- That is the directory if its own name has no dot behind the first character. -/
  whole : c.clientsPlace.follow c.typesDir = locate c.layout.types ↔
    ∀ n, (names c.layout.types).getLast? = some n → '.' ∉ n.toList.tail

/-- **The import of the types directory**, from a client directory, both given by names only. -/
theorem leadsToTypes_of_onlyNames {c : Config} (hapi : OnlyNames c.layout.api)
    (htypes : OnlyNames c.layout.types) : LeadsToTypes c := by
  have hnames : ∀ n ∈ names c.layout.types, IsName n := fun n hn =>
    isName_of_mem_steps (mem_filterMap_name?.1 hn)
  have hplace : c.clientsPlace.follow c.typesDir =
      { names := (dropExtension (steps c.layout.types)).filterMap Step.name? } := by
    rw [clientsPlace, hapi.locate_eq]
    exact follow_specifier_names
      (fun n hn => isName_of_mem_dropExtension (mem_filterMap_name?.1 hn)) 0
  refine ⟨dotted_specifier _ _, hplace, ?_⟩
  rw [hplace, htypes.locate_eq, htypes.steps_eq]
  simp only [Destination.mk.injEq, true_and, names_dropExtension_eq_iff hnames, stem_eq_self_iff]

/-- A project with types in a hidden directory. -/
def hiddenTypes : Config := { layout := { types := "src/.v1/.types" } }

theorem leadsToTypes_hiddenTypes :
    OnlyNames hiddenTypes.layout.api ∧ OnlyNames hiddenTypes.layout.types ∧
      LeadsToTypes hiddenTypes ∧
      hiddenTypes.clientsPlace.follow hiddenTypes.typesDir = locate hiddenTypes.layout.types := by
  have hleads : LeadsToTypes hiddenTypes := leadsToTypes_of_onlyNames (by decide) (by decide)
  have hlast : (names hiddenTypes.layout.types).getLast? = some ".types" := by decide +kernel
  refine ⟨by decide, by decide, hleads, hleads.whole.2 fun n hn => ?_⟩
  rw [← Option.some.inj (hlast.symm.trans hn)]
  decide

/-- A project with a dot in the name of its types directory. -/
def dottedTypes : Config := { layout := { types := "src/gen.types" } }

/-- The import leads to another directory. -/
theorem not_whole_dottedTypes :
    OnlyNames dottedTypes.layout.api ∧ OnlyNames dottedTypes.layout.types ∧
      dottedTypes.typesDir = "../gen" ∧
      dottedTypes.clientsPlace.follow dottedTypes.typesDir = { names := ["src", "gen"] } ∧
      dottedTypes.clientsPlace.follow dottedTypes.typesDir ≠ locate dottedTypes.layout.types := by
  decide +kernel

end Config

end Lexgen.Project
