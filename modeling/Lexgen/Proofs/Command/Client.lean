/-
# A run of the command for clients

A run succeeds exactly if it finds a record lexicon beside the module of the repository client and
can store two files, the client module and the manifest with one more entry. These it stores, and it
changes nothing else (`exists_report_iff`).

Key definitions: `clientPlan`, `Serves`, `Prepares`.
Key theorems: `yields_lexiconIn_iff`, `yields_planClient_prepared_iff`, `yields_planClient_iff`,
`exists_report_iff`.
-/
import Lexgen.Proofs.Client.Collection
import Lexgen.Proofs.Client.Latest
import Lexgen.Proofs.Command.Plan

namespace Lexgen.Command

open Lexgen.Client Lexgen.Data Lexgen.Files Lexgen.Project Lexgen.Routes

variable {t t' : Tree} {root : String}

/-! ### The plan -/

/-- The directory of client modules in a project with the default settings. -/
def apiOf (root : String) : String := ({} : Config).apiDir root

/-- The module of the repository client in such a project. -/
def sdkOf (root : String) : String := ({} : Config).sdkPath root

/-- The plan for a client module. -/
def clientPlan (root : String) (m : Manifest) (c : Client) : Plan where
  source := c.entity.collection
  warnings := collectionWarnings m c
  outputs := [
    ⟨join (apiOf root) c.fileName, c.render⟩,
    ⟨join (apiOf root) Manifest.fileName, (m.insert c.fileName c.entity.collection).render⟩]

/-- With the default settings the client of an id imports from the default places. -/
theorem withDefaults_ofId (id : String) :
    { Client.ofId id with
      sdkImport := ({} : Config).sdkImport, typesDir := ({} : Config).typesDir } =
      Client.ofId id := by
  have hsdk : ({} : Config).sdkImport = "../sdk/atproto" := by decide
  have htypes : ({} : Config).typesDir = "../types" := by decide
  rw [hsdk, htypes]
  rfl

theorem yields_requireSdk_iff {path : String} :
    Yields t (requireSdk path).run (.ok ()) t' ↔ t.kind path = .ok .file ∧ t' = t := by
  rw [requireSdk, yields_run_bind_iff]
  simp only [yields_run_liftM_iff, yields_isFile_iff]
  constructor
  · rintro ⟨b, _, ⟨hb, rfl⟩, h⟩
    cases b with
    | false => exact absurd h not_yields_run_throw
    | true => exact ⟨hb.1 rfl, (yields_run_pure_iff.1 h).2⟩
  · rintro ⟨hkind, rfl⟩
    exact ⟨true, _, ⟨iff_of_true rfl hkind, rfl⟩, yields_run_pure_iff.2 ⟨rfl, rfl⟩⟩

/-- A lexicon is read from the text of its file. -/
theorem yields_lexiconIn_iff {path : String} {l : Lexicon} :
    Yields t (lexiconIn path).run (.ok l) t' ↔
      (∃ text : String, t.lookup path = .ok (.file text.toUTF8) ∧ Lexicon.parse text = .ok l) ∧
        t' = t := by
  rw [lexiconIn, yields_run_bind_iff]
  simp only [yields_run_liftM_iff, yields_lexiconStep_iff]
  constructor
  · rintro ⟨answer, t₁, hread, hanswer, rfl⟩
    obtain ⟨content, t₂, hcontent, hrest⟩ := yields_bind_iff.1 hread
    cases content with
    | error fault =>
      obtain ⟨rfl, -⟩ := yields_pure_iff.1 hrest
      cases hanswer
    | ok text =>
      obtain ⟨rfl, rfl⟩ := yields_pure_iff.1 hrest
      obtain ⟨hlookup, rfl⟩ := yields_readText_iff.1 hcontent
      exact ⟨⟨text, hlookup, hanswer⟩, rfl⟩
  · rintro ⟨⟨text, hlookup, hparse⟩, rfl⟩
    exact ⟨_, _, yields_bind_iff.2 ⟨_, _, yields_readText_iff.2 ⟨hlookup, rfl⟩,
      yields_pure_iff.2 ⟨rfl, rfl⟩⟩, hparse, rfl⟩

/-- The id of the record lexicon in a text. -/
def recordId? (text : String) : Option String :=
  match Lexicon.parse text >>= fun l => Client.ofLexicon l with
  | .ok c => some c.entity.collection
  | .error _ => none

theorem recordId?_eq_some_iff {text id : String} : recordId? text = some id ↔
    ∃ l, Lexicon.parse text = .ok l ∧ Client.ofLexicon l = .ok (Client.ofId id) := by
  rw [recordId?]
  constructor
  · intro h
    split at h
    · next c hc =>
      obtain ⟨l, hparse, hclient⟩ := bind_eq_ok_iff.1 hc
      obtain ⟨-, -, -, rfl⟩ := primary?_of_ofLexicon hclient
      obtain rfl := Option.some.inj h
      exact ⟨l, hparse, hclient⟩
    · cases h
  · rintro ⟨l, hparse, hclient⟩
    rw [bind_eq_ok_iff.2 ⟨l, hparse, hclient⟩]
    rfl

/-- A record lexicon with an id that is read from its text. -/
theorem exists_lexicon_of_recordId? {text id : String} (h : recordId? text = some id) :
    ∃ l, Lexicon.parse text = .ok l ∧ Client.ofLexicon l = .ok (Client.ofId id) ∧ l.id = id := by
  obtain ⟨l, hparse, hclient⟩ := recordId?_eq_some_iff.1 h
  obtain ⟨-, -, -, hid⟩ := primary?_of_ofLexicon hclient
  exact ⟨l, hparse, hclient, (congrArg (·.entity.collection) hid).symm⟩

/-- Whether a path leads to a record lexicon with an id. -/
def Serves (t : Tree) (path id : String) : Prop :=
  ∃ text : String, t.lookup path = .ok (.file text.toUTF8) ∧ recordId? text = some id

/-- The plan for a client module in a directory, beside the manifest that was loaded there. -/
def planIn (api : String) (m : Manifest) (c : Client) : Plan where
  source := c.entity.collection
  warnings := collectionWarnings m c
  outputs := [
    ⟨join api c.fileName, c.render⟩,
    ⟨join api Manifest.fileName, (m.insert c.fileName c.entity.collection).render⟩]

/-- A run for a client module has read the settings, seen the module of the repository client and
read the lexicon: it is going to store the client `c` in the directory `api`. -/
def Prepares (t : Tree) (o : ClientOptions) (api : String) (c : Client) : Prop :=
  ∃ config l, Yields t (Config.load o.root).run (.ok config) t ∧
    t.kind (config.sdkPath o.root) = .ok .file ∧ Yields t (lexiconIn o.lexicon).run (.ok l) t ∧
    Client.ofLexicon l = .ok (Client.ofId l.id) ∧ api = config.apiDir o.root ∧
    c = { Client.ofId l.id with sdkImport := config.sdkImport, typesDir := config.typesDir }

/-- A run is prepared in one way only. -/
theorem Prepares.unique {o : ClientOptions} {api api' : String} {c c' : Client}
    (h : Prepares t o api c) (h' : Prepares t o api' c') : api' = api ∧ c' = c := by
  obtain ⟨config, l, hconfig, -, hl, -, rfl, rfl⟩ := h
  obtain ⟨config', l', hconfig', -, hl', -, rfl, rfl⟩ := h'
  obtain rfl := Except.ok.inj (hconfig.iff.1 hconfig').1
  obtain rfl := Except.ok.inj (hl.iff.1 hl').1
  exact ⟨rfl, rfl⟩

/-- **How the plan for a client module is made**: after everything else is prepared, the manifest is
loaded. The tree stays as it is. -/
theorem yields_planClient_prepared_iff {o : ClientOptions} {p : Plan} :
    Yields t (planClient o).run (.ok p) t' ↔ ∃ api c m, Prepares t o api c ∧
      Yields t (Manifest.load api).run (.ok m) t ∧ p = planIn api m c ∧ t' = t := by
  rw [planClient]
  constructor
  · intro h
    obtain ⟨config, _, hload, hchecked⟩ := yields_run_bind_iff.1 h
    have hconfig := yields_projectStep_iff.1 hload
    obtain rfl := (yields_readSettings_iff.1 hconfig).2
    obtain ⟨⟨⟩, _, hsdk, hread⟩ := yields_run_bind_iff.1 hchecked
    obtain ⟨hkind, rfl⟩ := yields_requireSdk_iff.1 (yields_projectStep_iff.1 hsdk)
    obtain ⟨l, _, hl, hmade⟩ := yields_run_bind_iff.1 hread
    obtain rfl := (yields_lexiconIn_iff.1 hl).2
    obtain ⟨c, _, hc, hlisted⟩ := yields_run_bind_iff.1 hmade
    obtain ⟨hclient, rfl⟩ := yields_lexiconStep_iff.1 hc
    obtain ⟨-, -, -, rfl⟩ := primary?_of_ofLexicon hclient
    obtain ⟨m, _, hmanifest, hplan⟩ := yields_run_bind_iff.1 hlisted
    have hm := yields_projectStep_iff.1 hmanifest
    obtain rfl := (yields_readSettings_iff.1 hm).2
    obtain ⟨rfl, rfl⟩ := yields_run_pure_iff.1 hplan
    exact ⟨_, _, m, ⟨config, l, hconfig, hkind, hl, hclient, rfl, rfl⟩, hm, rfl, rfl⟩
  · rintro ⟨api, c, m, ⟨config, l, hconfig, hkind, hl, hclient, rfl, rfl⟩, hm, rfl, rfl⟩
    refine (yields_projectStep_iff.2 hconfig).run_bind_iff.2 ?_
    refine (yields_projectStep_iff.2 (yields_requireSdk_iff.2 ⟨hkind, rfl⟩)).run_bind_iff.2 ?_
    refine hl.run_bind_iff.2 ?_
    refine (yields_lexiconStep_iff.2 ⟨hclient, rfl⟩).run_bind_iff.2 ?_
    refine (yields_projectStep_iff.2 hm).run_bind_iff.2 ?_
    exact yields_run_pure_iff.2 ⟨rfl, rfl⟩

/-- With the default settings a run is prepared by a record lexicon, beside the module of the
repository client. -/
theorem prepares_of_serves {lexicon id : String}
    (hconfig : Yields t (Config.load root).run (.ok {}) t)
    (hsdk : t.kind (sdkOf root) = .ok .file) (hserves : Serves t lexicon id) :
    Prepares t { lexicon, root } (apiOf root) (Client.ofId id) := by
  obtain ⟨text, hlookup, hrecord⟩ := hserves
  obtain ⟨l, hparse, hclient, rfl⟩ := exists_lexicon_of_recordId? hrecord
  exact ⟨{}, l, hconfig, hsdk, yields_lexiconIn_iff.2 ⟨⟨text, hlookup, hparse⟩, rfl⟩, hclient, rfl,
    (withDefaults_ofId l.id).symm⟩

/-- **With the default settings** a plan for a client module is made of a record lexicon. -/
theorem yields_planClient_iff {lexicon : String} {m : Manifest} {p : Plan}
    (hconfig : Yields t (Config.load root).run (.ok {}) t)
    (hmanifest : Yields t (Manifest.load (apiOf root)).run (.ok m) t) :
    Yields t (planClient { lexicon, root }).run (.ok p) t' ↔
      t.kind (sdkOf root) = .ok .file ∧
        (∃ id, Serves t lexicon id ∧ p = clientPlan root m (Client.ofId id)) ∧ t' = t := by
  rw [yields_planClient_prepared_iff]
  constructor
  · rintro ⟨api, c, m', ⟨config, l, hload, hkind, hl, hclient, rfl, rfl⟩, hm', rfl, rfl⟩
    obtain rfl := Except.ok.inj (hconfig.iff.1 hload).1
    obtain rfl := Except.ok.inj (hmanifest.iff.1 hm').1
    obtain ⟨⟨text, hlookup, hparse⟩, -⟩ := yields_lexiconIn_iff.1 hl
    refine ⟨hkind, ⟨l.id, ⟨text, hlookup, recordId?_eq_some_iff.2 ⟨l, hparse, hclient⟩⟩, ?_⟩, rfl⟩
    rw [← withDefaults_ofId]
    rfl
  · rintro ⟨hkind, ⟨id, hserves, rfl⟩, rfl⟩
    exact ⟨_, _, m, prepares_of_serves hconfig hkind hserves, hmanifest, rfl, rfl⟩

/-! ### The directory of client modules -/

theorem apiOf_eq (root : String) : apiOf root = join root "src/api" := rfl

theorem sdkOf_eq (root : String) : sdkOf root = join root "src/sdk/atproto.ts" := rfl

theorem pieces_api : pieces "src/api" = ["src", "api"] := by decide

theorem pieces_sdk : pieces "src/sdk/atproto.ts" = ["src", "sdk", "atproto.ts"] := by decide

theorem endsInName_relative_api : EndsInName "src/api" := ⟨["src"], "api", pieces_api, by decide⟩

theorem endsInName_api (root : String) : EndsInName (apiOf root) :=
  endsInName_relative_api.join (by decide) root

/-- Beside the module of the repository client is the directory of client modules. -/
theorem exists_leads_of_sdk (h : t.kind (sdkOf root) = .ok .file) :
    ∃ base, t.Leads root base ∧ t.Leads (apiOf root) (base ++ ["src", "api"]) := by
  have hsrc : IsName "src" := by decide
  have hrelative : isRooted "src/sdk/atproto.ts" = false := by decide
  obtain ⟨item, hitem, -⟩ := Tree.kind_eq_ok_iff.1 h
  obtain ⟨place, hplace, -⟩ := Tree.lookup_eq_ok_iff.1 hitem
  rw [sdkOf_eq, Tree.follow_join_eq_ok_iff hrelative, pieces_sdk] at hplace
  obtain ⟨-, base, hbase, hwalk⟩ := hplace
  obtain ⟨hdirectory, hshort, hwalk⟩ := (Tree.walk_cons_eq_ok_iff hsrc).1 hwalk
  obtain ⟨hsource, -, -⟩ := (Tree.walk_cons_eq_ok_iff (by decide)).1 hwalk
  refine ⟨base, hbase, ?_⟩
  rw [apiOf_eq, Tree.leads_join_iff (by decide) endsInName_relative_api, pieces_api]
  have hstep : t.walk (base ++ ["src"]) ["api"] = .ok (base ++ ["src"] ++ ["api"]) :=
    (Tree.walk_cons_eq_ok_iff (by decide)).2 ⟨hsource, by decide, rfl⟩
  rw [List.append_assoc] at hstep
  exact ⟨base, hbase, (Tree.walk_cons_eq_ok_iff hsrc).2 ⟨hdirectory, hshort, hstep⟩⟩

/-- **A run stores two files**, the client module and the manifest with its entry, and succeeds if
it can. -/
theorem exists_report_iff {lexicon id : String} {m : Manifest} {place : Location}
    (hconfig : Yields t (Config.load root).run (.ok {}) t)
    (hmanifest : Yields t (Manifest.load (apiOf root)).run (.ok m) t)
    (hplace : t.Leads (apiOf root) place) (hid : IsName (clientFileOf id)) :
    (∃ report, Yields t (generate false (planClient { lexicon, root })) (.ok report) t' ∧
        report.source = id) ↔
      (t.kind (sdkOf root) = .ok .file ∧ Serves t lexicon id) ∧
        (Storable t (apiOf root) place (clientFileOf id) ∧
          Storable t (apiOf root) place Manifest.fileName) ∧
        t' = (t.stored place (clientFileOf id) (Client.ofId id).render).stored place
          Manifest.fileName (m.insert (clientFileOf id) id).render := by
  have hapi := endsInName_api root
  have hne : Manifest.fileName ≠ clientFileOf id :=
    (ne_manifest_of_isClientFile (isClientFile_clientFileOf id)).symm
  have houtputs : (clientPlan root m (Client.ofId id)).outputs = [
      ⟨join (apiOf root) (clientFileOf id), (Client.ofId id).render⟩,
      ⟨join (apiOf root) Manifest.fileName, (m.insert (clientFileOf id) id).render⟩] := rfl
  have hcarry := @exists_carryOut_pair_iff t t' _ _ _ _ _ houtputs
  constructor
  · rintro ⟨report, h, hid'⟩
    obtain ⟨p, _, hp, hreport⟩ := yields_generate_iff.1 h
    obtain ⟨hsdk, ⟨id', hserves, rfl⟩, hsame⟩ := (yields_planClient_iff hconfig hmanifest).1 hp
    have hsource : id' = id := by
      obtain ⟨files, -, hfiles⟩ := yields_carryOut_iff.1 hreport
      rw [← hid', ← hfiles]
      rfl
    subst hsource
    rw [hsame] at hreport
    obtain ⟨how, t₁, hclient, hserved⟩ := hcarry.1 ⟨report, hreport, hid'⟩
    obtain ⟨hstorable, rfl⟩ := (exists_yields_store_iff hplace hapi hid).1 ⟨how, hclient⟩
    rw [exists_yields_store_iff (hstorable.leads _ hplace) hapi isName_manifest,
      hstorable.stored_iff hne] at hserved
    exact ⟨⟨hsdk, hserves⟩, ⟨hstorable, hserved.1⟩, hserved.2⟩
  · rintro ⟨⟨hsdk, hserves⟩, ⟨hstorable, hstorable'⟩, rfl⟩
    have hplan := (yields_planClient_iff hconfig hmanifest).2 ⟨hsdk, ⟨id, hserves, rfl⟩, rfl⟩
    obtain ⟨how, hclient⟩ := (exists_yields_store_iff hplace hapi hid).2 ⟨hstorable, rfl⟩
    obtain ⟨report, hreport, hsource⟩ := hcarry.2 ⟨how, _, hclient,
      (exists_yields_store_iff (hstorable.leads _ hplace) hapi isName_manifest).2
        ⟨(hstorable.stored_iff hne).2 hstorable', rfl⟩⟩
    exact ⟨report, yields_generate_iff.2 ⟨_, t, hplan, hreport⟩, hsource⟩

end Lexgen.Command
