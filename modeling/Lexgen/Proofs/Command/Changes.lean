/-
# What a run changes

A plan is made without changing anything (`within_planTypes`, `within_planClient`,
`within_planRoutes`), so a run that fails before its first file is stored, or that only shows its
files, leaves the tree as it was. The files of a plan are stored one after the other. If all of them
are, each is read back as it was rendered and no other file has changed (`delivered_of_yields`); if
one is not, those before it were stored (`exists_delivered_of_error`). Types and routes are one
file, so such a run changes no file if it fails. The command for clients stores the client module
first and the manifest second. So there is one way for a run that fails to change a file, namely
that the manifest cannot be stored any more (`HalfStored`).

Key definitions: `Request.plan?`, `Delivered`, `KeepsFiles`, `HalfStored`.
Key theorems: `delivered_of_yields`, `exists_delivered_of_error`, `keepsFiles_run`.
-/
import Lexgen.Proofs.Command.Routes
import Lexgen.Proofs.Project.Changes

namespace Lexgen.Command

open Lexgen.Client Lexgen.Data Lexgen.Files Lexgen.Project Lexgen.Routes

variable {α : Type} {t t' : Tree}

/-! ### Plans are made without changes -/

section Plans

theorem within_projectStep {R : Tree → Tree → Prop} {stage : Stage}
    {step : ExceptT Problem (StateM Tree) α} (h : Within R step.run) :
    Within R (projectStep stage step).run :=
  within_map h

theorem within_lexiconStep (stage : Stage) (step : Except Lexicon.Error α) :
    Within Eq (lexiconStep (m := StateM Tree) stage step).run :=
  within_pure _

theorem within_lexiconIn (path : String) : Within Eq (lexiconIn (m := StateM Tree) path).run := by
  have hread : Within Eq (readLexicon (m := StateM Tree) path) :=
    within_bind (within_readText path) fun a => by cases a <;> exact within_pure _
  exact within_run_bind (within_run_liftM hread) fun a => within_lexiconStep _ a

theorem within_load (root : String) : Within Eq (Config.load (m := StateM Tree) root).run :=
  within_readSettings _ _

theorem within_loadManifest (directory : String) :
    Within Eq (Manifest.load (m := StateM Tree) directory).run :=
  within_readSettings _ _

theorem within_requireSdk (path : String) : Within Eq (requireSdk (m := StateM Tree) path).run := by
  refine within_run_bind (within_run_liftM (within_isFile path)) fun there => ?_
  cases there with
  | false => exact within_run_throw _
  | true => exact within_run_pure _

theorem within_planTypes (o : TypesOptions) : Within Eq (planTypes (m := StateM Tree) o).run :=
  within_run_bind (within_lexiconIn o.lexicon) fun _ =>
    within_run_bind (within_lexiconStep _ _) fun _ =>
      within_run_bind (within_projectStep (within_pure _)) fun _ => within_run_pure _

theorem within_planClient (o : ClientOptions) : Within Eq (planClient (m := StateM Tree) o).run :=
  within_run_bind (within_projectStep (within_load o.root)) fun _ =>
    within_run_bind (within_projectStep (within_requireSdk _)) fun _ =>
      within_run_bind (within_lexiconIn o.lexicon) fun _ =>
        within_run_bind (within_lexiconStep _ _) fun _ =>
          within_run_bind (within_projectStep (within_loadManifest _)) fun _ => within_run_pure _

theorem within_filterAuxM {ε : Type} {p : String → ExceptT ε (StateM Tree) Bool}
    (hp : ∀ path, Within Eq (p path).run) : ∀ (paths kept : List String),
      Within Eq (paths.filterAuxM p kept).run
  | [], _ => within_run_pure _
  | path :: paths, _ =>
    within_run_bind (hp path) fun _ => within_filterAuxM hp paths _

theorem within_filterM {ε : Type} {p : String → ExceptT ε (StateM Tree) Bool}
    (hp : ∀ path, Within Eq (p path).run) (paths : List String) :
    Within Eq (paths.filterM p).run := by
  rw [List.filterM]
  exact within_run_bind (within_filterAuxM hp _ _) fun _ => within_run_pure _

theorem within_clientFiles (directory : String) :
    Within Eq (clientFiles (m := StateM Tree) directory).run := by
  refine within_run_bind (within_run_liftM (within_isThere directory)) fun there => ?_
  cases there with
  | false => exact within_run_pure _
  | true =>
    refine within_run_bind (within_orProblem (within_list directory)) fun found => ?_
    refine within_filterM (fun path => ?_) _
    exact within_run_liftM (within_isFile path)

theorem within_addFiles : ∀ (paths : List String) (r : RouteConfig),
    Within Eq (addFiles (m := StateM Tree) r paths).run
  | [], _ => within_run_pure _
  | path :: paths, r => by
    have hfile : Within Eq (r.addFile (m := StateM Tree) path).run :=
      within_run_bind (within_orProblem (within_readText path)) fun _ => within_run_pure _
    exact within_run_bind hfile fun _ =>
      within_run_bind (within_addFiles paths _) fun _ => within_run_pure _

theorem within_planRoutes (o : RoutesOptions) :
    Within Eq (planRoutes (m := StateM Tree) o).run := by
  refine within_run_bind (within_projectStep (within_load o.root)) fun config => ?_
  dsimp only
  split
  · exact within_run_bind (within_projectStep (within_clientFiles _)) fun _ =>
      within_run_bind (within_projectStep (within_loadManifest _)) fun _ =>
        within_run_bind (within_projectStep (within_addFiles _ _)) fun _ => within_run_pure _
  · exact within_run_bind (within_run_pure _) fun _ =>
      within_run_bind (within_projectStep (within_loadManifest _)) fun _ =>
        within_run_bind (within_projectStep (within_addFiles _ _)) fun _ => within_run_pure _

end Plans

/-! ### The last piece of a path -/

/-- The name of a client module ends like one, behind the slashes in it too. -/
theorem exists_last_piece_clientFile (e : Name.Entity) :
    ∃ name, (pieces e.clientFile).getLast? = some name ∧ isClientFile name = true := by
  have hchars : e.clientFile.toList =
      e.base.toList ++ (Name.clientEnding ++ Name.moduleExtension).toList := by
    simp [Name.Entity.clientFile]
  have hending : ∀ c ∈ (Name.clientEnding ++ Name.moduleExtension).toList,
      (c == '/') = false := by
    have hall : ((Name.clientEnding ++ Name.moduleExtension).toList.all fun c => c != '/') =
        true := by decide
    intro c hc
    simpa using List.all_eq_true.1 hall c hc
  obtain ⟨front, last, -, hsplit⟩ := Text.exists_splitOnP_append hending e.base.toList
  refine ⟨String.ofList (last ++ (Name.clientEnding ++ Name.moduleExtension).toList), ?_, ?_⟩
  · rw [pieces, hchars, List.splitOn_eq_splitOnP, hsplit, List.map_append, List.map_singleton,
      List.getLast?_concat]
  · rw [isClientFile, List.isSuffixOf_iff_suffix, String.toList_ofList]
    exact List.suffix_append ..

/-- The two files of a client module have different names. -/
theorem last_pieces_ne (api : String) (c : Client) :
    (pieces (join api c.fileName)).getLast? ≠ (pieces (join api Manifest.fileName)).getLast? := by
  obtain ⟨name, hname, hclient⟩ := exists_last_piece_clientFile c.entity
  rw [getLast?_pieces_join, getLast?_pieces_join, Client.fileName, hname,
    isName_manifest.pieces_eq]
  exact fun heq => ne_manifest_of_isClientFile hclient (Option.some.inj heq)

/-! ### Delivering the files of a plan -/

/-- The files of a plan are all stored: each of them is read back as it was rendered, at a location
that has the name in which its path ends, and no other file has changed. -/
structure Delivered (t : Tree) (outputs : List Output) (t' : Tree) : Prop
    extends Tree.Grows t t' where
  holds : ∀ o ∈ outputs, ∃ place, t'.follow o.path (pieces o.path) = .ok place ∧
    (pieces o.path).getLast? = place.getLast? ∧ t'.item? place = some (.file o.text.toUTF8)
  others : ∀ x, t'.file? x ≠ t.file? x →
    ∃ o ∈ outputs, t'.follow o.path (pieces o.path) = .ok x

theorem delivered_nil (t : Tree) : Delivered t [] t where
  toGrows := refl_of Tree.Grows t
  holds := by simp
  others := fun x hx => absurd rfl hx

/-- Directories that are made afterwards keep the files. -/
theorem Delivered.extends {outputs : List Output} {t₁ : Tree} (h : Delivered t outputs t₁)
    (h' : Tree.Extends t₁ t') : Delivered t outputs t' where
  toGrows := trans_of Tree.Grows h.toGrows h'.toGrows
  holds o ho := by
    obtain ⟨place, hfollow, hlast, hitem⟩ := h.holds o ho
    exact ⟨place, h'.follow_eq hfollow, hlast, (Tree.item?_eq_file_iff (h'.files place)).2 hitem⟩
  others x hx := by
    rw [h'.files] at hx
    obtain ⟨o, ho, hfollow⟩ := h.others x hx
    exact ⟨o, ho, h'.follow_eq hfollow⟩

/-- One more file is stored, before the others. -/
theorem Delivered.cons {o : Output} {outputs : List Output} {t₁ : Tree} {place : Location}
    (hfirst : Stores t o.path o.text t₁ place) (h : Delivered t₁ outputs t')
    (hne : ∀ o' ∈ outputs, (pieces o.path).getLast? ≠ (pieces o'.path).getLast?) :
    Delivered t (o :: outputs) t' := by
  obtain ⟨name, -, hlast, hname⟩ := hfirst.named
  have hleads := h.follow_eq hfirst.leads
  have hstays : t'.file? place = t₁.file? place := by
    by_contra hchanged
    obtain ⟨o', ho', hfollow⟩ := h.others place hchanged
    obtain ⟨place', hfollow', hlast', -⟩ := h.holds o' ho'
    cases Except.ok.inj (hfollow.symm.trans hfollow')
    exact hne o' ho' (by rw [hlast', hlast, hname])
  refine ⟨trans_of Tree.Grows hfirst.toGrows h.toGrows, ?_, fun x hx => ?_⟩
  · rw [List.forall_mem_cons]
    have hholds := (Tree.item?_eq_file_iff hstays).2 hfirst.holds
    exact ⟨⟨place, hleads, by rw [hlast, hname], hholds⟩, h.holds⟩
  · rw [List.exists_mem_cons_iff]
    by_cases hplace : x = place
    · exact .inl (hplace ▸ hleads)
    · rw [← hfirst.others x hplace] at hx
      exact .inr (h.others x hx)

/-- **Files that are delivered** are the only ones that change, if their names are different. -/
theorem delivered_of_yields : ∀ {outputs : List Output} {t t' : Tree}
    {files : List (String × Outcome)},
    (outputs.map fun o => (pieces o.path).getLast?).Nodup →
    Yields t (deliverAll false outputs).run (.ok files) t' → Delivered t outputs t'
  | [], _, _, _, _, h => by
    obtain ⟨-, rfl⟩ := yields_deliverAll_nil_iff.1 h
    exact delivered_nil _
  | o :: outputs, t, t', _, hnodup, h => by
    rw [List.map_cons, List.nodup_cons] at hnodup
    obtain ⟨file, t₁, hfirst, rest, hrest, -⟩ := yields_deliverAll_cons_iff.1 h
    obtain ⟨how, hstore, -⟩ := yields_deliver_iff.1 hfirst
    obtain ⟨place, hstores⟩ := stores_of_yields hstore
    refine (delivered_of_yields hnodup.2 hrest).cons hstores fun o' ho' heq => hnodup.1 ?_
    exact List.mem_map.2 ⟨o', ho', heq.symm⟩

/-- The report lists the files of the plan. -/
theorem paths_of_yields_deliverAll {dryRun : Bool} : ∀ {outputs : List Output} {t t' : Tree}
    {files : List (String × Outcome)}, Yields t (deliverAll dryRun outputs).run (.ok files) t' →
      files.map Prod.fst = outputs.map Output.path
  | [], _, _, _, h => by
    obtain ⟨rfl, -⟩ := yields_deliverAll_nil_iff.1 h
    rfl
  | o :: outputs, _, _, _, h => by
    obtain ⟨file, t₁, hfirst, rest, hrest, rfl⟩ := yields_deliverAll_cons_iff.1 h
    have hpath : file.1 = o.path := by
      cases dryRun with
      | true =>
        obtain ⟨rfl, -⟩ := yields_preview_iff.1 hfirst
        rfl
      | false =>
        obtain ⟨how, -, rfl⟩ := yields_deliver_iff.1 hfirst
        rfl
    rw [List.map_cons, List.map_cons, hpath, paths_of_yields_deliverAll hrest]

/-- Where delivering fails, the files before the one that cannot be stored are. -/
theorem exists_delivered_of_error : ∀ {outputs : List Output} {t t' : Tree} {p : Problem},
    Yields t (deliverAll false outputs).run (.error p) t' →
      ∃ done o rest files t₁, outputs = done ++ o :: rest ∧
        Yields t (deliverAll false done).run (.ok files) t₁ ∧
        Yields t₁ (store o.path o.text).run (.error p) t'
  | [], _, _, _, h => by cases (yields_pure_iff.1 h).1
  | o :: outputs, t, t', p, h => by
    rw [deliverAll, List.mapM_cons, yields_run_bind_error_iff] at h
    rcases h with h | ⟨file, t₁, hfirst, h⟩
    · rw [Output.deliver, if_neg Bool.false_ne_true, yields_run_bind_error_iff] at h
      rcases h with h | ⟨how, t₁, -, h⟩
      · exact ⟨[], o, outputs, [], t, rfl, yields_deliverAll_nil_iff.2 ⟨rfl, rfl⟩, h⟩
      · cases (yields_pure_iff.1 h).1
    · rcases yields_run_bind_error_iff.1 h with h | ⟨rest, t₂, -, h⟩
      · obtain ⟨done, o', rest, files, t₂, rfl, hdone, herror⟩ := exists_delivered_of_error h
        refine ⟨o :: done, o', rest, file :: files, t₂, rfl, ?_, herror⟩
        exact yields_deliverAll_cons_iff.2 ⟨file, t₁, hfirst, files, hdone, rfl⟩
      · cases (yields_pure_iff.1 h).1

/-- To show files keeps them all. -/
theorem within_preview : ∀ outputs : List Output, Within Eq (deliverAll true outputs).run
  | [] => within_run_pure _
  | o :: outputs => by
    rw [deliverAll, List.mapM_cons]
    refine within_run_bind ?_ fun file => ?_
    · rw [Output.deliver, if_pos rfl]
      exact within_run_pure _
    · exact within_run_bind (within_preview outputs) fun rest => within_run_pure _

theorem yields_carryOut_error {dryRun : Bool} {p : Plan} {failure : Failure}
    (h : Yields t (p.carryOut dryRun).run (.error failure) t') :
    ∃ problem, Yields t (deliverAll dryRun p.outputs).run (.error problem) t' := by
  rw [Plan.carryOut, yields_run_bind_error_iff] at h
  rcases h with h | ⟨files, t₁, -, h⟩
  · obtain ⟨e | files, hdelivered, herror⟩ := yields_map_iff.1 h
    · exact ⟨e, hdelivered⟩
    · cases herror
  · cases (yields_pure_iff.1 h).1

/-! ### The files of a plan have different names -/

/-- Whatever a step gives has a property. -/
def Gives {ε : Type} (Q : α → Prop) (x : ExceptT ε (StateM Tree) α) : Prop :=
  ∀ t a t', Yields t x.run (.ok a) t' → Q a

theorem gives_bind {ε β : Type} {Q : β → Prop} {x : ExceptT ε (StateM Tree) α}
    {f : α → ExceptT ε (StateM Tree) β} (h : ∀ a, Gives Q (f a)) : Gives Q (x >>= f) := by
  intro t b t' hb
  obtain ⟨a, t₁, -, ha⟩ := yields_run_bind_iff.1 hb
  exact h a t₁ b t' ha

theorem gives_pure {ε : Type} {Q : α → Prop} {a : α} (h : Q a) :
    Gives Q (pure a : ExceptT ε (StateM Tree) α) := by
  intro t b t' hb
  obtain ⟨rfl, -⟩ := yields_run_pure_iff.1 hb
  exact h

theorem gives_planTypes (o : TypesOptions) :
    Gives (fun p => ∃ output, p.outputs = [output]) (planTypes o) :=
  gives_bind fun _ => gives_bind fun _ => gives_bind fun _ => gives_pure ⟨_, rfl⟩

theorem gives_planRoutes (o : RoutesOptions) :
    Gives (fun p => ∃ output, p.outputs = [output]) (planRoutes o) := by
  refine gives_bind fun config => ?_
  dsimp only
  split
  · exact gives_bind fun _ => gives_bind fun _ => gives_bind fun _ => gives_pure ⟨_, rfl⟩
  · exact gives_bind fun _ => gives_bind fun _ => gives_bind fun _ => gives_pure ⟨_, rfl⟩

/-! ### Runs -/

/-- Whether a request asks to keep all files. -/
def Request.isDryRun : Request → Bool
  | .types o => o.dryRun
  | .client o => o.dryRun
  | .routes o => o.dryRun
  | .completions _ => false

/-- The plan of a request that generates files. -/
def Request.plan? : Request → Option (ExceptT Failure (StateM Tree) Plan)
  | .types o => some (planTypes o)
  | .client o => some (planClient o)
  | .routes o => some (planRoutes o)
  | .completions _ => none

theorem exists_completions_of_plan {request : Request} (h : request.plan? = none) :
    ∃ shell, request = .completions shell := by
  cases request with
  | completions shell => exact ⟨shell, rfl⟩
  | types o => cases h
  | client o => cases h
  | routes o => cases h

theorem within_plan {request : Request} {plan : ExceptT Failure (StateM Tree) Plan}
    (h : request.plan? = some plan) : Within Eq plan.run := by
  cases request with
  | types o =>
    cases h
    exact within_planTypes o
  | client o =>
    cases h
    exact within_planClient o
  | routes o =>
    cases h
    exact within_planRoutes o
  | completions shell => cases h

theorem serve_eq {request : Request} {plan : ExceptT Failure (StateM Tree) Plan}
    (h : request.plan? = some plan) :
    serve request = answerOf <$> generate request.isDryRun plan := by
  cases request with
  | types o =>
    cases h
    rfl
  | client o =>
    cases h
    rfl
  | routes o =>
    cases h
    rfl
  | completions shell => cases h

/-- A plan is for one file, or for a client module and the manifest. -/
theorem outputs_of_plan {request : Request} {plan : ExceptT Failure (StateM Tree) Plan}
    (hplan : request.plan? = some plan) {p : Plan} (h : Yields t plan.run (.ok p) t') :
    (∃ output, p.outputs = [output]) ∨
      ∃ o api c m, request = .client o ∧ Prepares t o api c ∧
        Yields t (Manifest.load api).run (.ok m) t ∧ p = planIn api m c := by
  cases request with
  | types o =>
    cases hplan
    exact .inl (gives_planTypes o _ _ _ h)
  | client o =>
    cases hplan
    obtain ⟨api, c, m, hprepares, hm, rfl, -⟩ := yields_planClient_prepared_iff.1 h
    exact .inr ⟨o, api, c, m, rfl, hprepares, hm, rfl⟩
  | routes o =>
    cases hplan
    exact .inl (gives_planRoutes o _ _ _ h)
  | completions shell => cases hplan

theorem last_pieces_nodup {request : Request} {plan : ExceptT Failure (StateM Tree) Plan}
    (hplan : request.plan? = some plan) {p : Plan} (h : Yields t plan.run (.ok p) t') :
    (p.outputs.map fun o => (pieces o.path).getLast?).Nodup := by
  rcases outputs_of_plan hplan h with ⟨output, houtput⟩ | ⟨o, api, c, m, -, -, -, rfl⟩
  · simp [houtput]
  · simpa [planIn] using last_pieces_ne api c

/-- What a run promises about files. -/
structure KeepsFiles (t : Tree) (arguments : List String) (answer : Answer) (t' : Tree) : Prop where
  /-- A run that fails changes no file. -/
  failed : answer.exit ≠ 0 → ∀ x, t'.file? x = t.file? x
  /-- A dry run changes no file. -/
  dryRun : ∀ request, readRequest {} arguments = .ok request → request.isDryRun = true →
    ∀ x, t'.file? x = t.file? x
  /-- A run that generates nothing changes no file. -/
  idle : (∀ request, readRequest {} arguments = .ok request → request.plan? = none) →
    ∀ x, t'.file? x = t.file? x
  /-- A run that succeeds changes the files that it reports, and these hold what was rendered. -/
  succeeded : answer.exit = 0 → ∀ request plan, readRequest {} arguments = .ok request →
    request.plan? = some plan → request.isDryRun = false → ∃ p report,
      Yields t plan.run (.ok p) t ∧ Yields t (generate false plan) (.ok report) t' ∧
      answer = answerOf (.ok report) ∧ report.files.map Prod.fst = p.outputs.map Output.path ∧
      Delivered t p.outputs t'

/-- A run for a client module that stored the module and then failed to store the manifest. Unless
there is a slash in the name of the module, the system does not take the path of the manifest, or
the directories that were made have led that path to a directory. -/
structure HalfStored (t : Tree) (o : ClientOptions) (api : String) (c : Client) (t' : Tree) :
    Prop where
  wet : o.dryRun = false
  prepared : Prepares t o api c
  client : Delivered t [⟨join api c.fileName, c.render⟩] t'
  blocked : IsName c.fileName → ¬ Usable (join api Manifest.fileName) ∨
    (t.kind (join api Manifest.fileName) ≠ .ok .directory ∧
      t'.kind (join api Manifest.fileName) = .ok .directory)

theorem keepsFiles_of_stays {arguments : List String} {answer : Answer}
    (hexit : answer.exit = 0 → ∀ request plan, readRequest {} arguments = .ok request →
      request.plan? = some plan → request.isDryRun = true)
    (h : ∀ x, t'.file? x = t.file? x) : KeepsFiles t arguments answer t' where
  failed _ := h
  dryRun _ _ _ := h
  idle _ := h
  succeeded hok request plan hrequest hplan hwet := by
    rw [hexit hok request plan hrequest hplan] at hwet
    cases hwet

/-- No manifest is loaded from a directory. -/
theorem not_directory_of_yields_loadManifest {api : String} {m : Manifest}
    (h : Yields t (Manifest.load api).run (.ok m) t') :
    t.kind (join api Manifest.fileName) ≠ .ok .directory := by
  intro hkind
  obtain ⟨item, hlookup, hitem⟩ := Tree.kind_eq_ok_iff.1 hkind
  rcases (yields_readSettings_iff.1 h).1 with ⟨text, htext, -⟩ | ⟨hnone, -⟩
  · cases Except.ok.inj (hlookup.symm.trans htext)
    cases hitem
  · exact hnone item hlookup

/-- The client module was stored, and then the manifest could not be. -/
theorem halfStored_of_error {o : ClientOptions} {api text : String} {c : Client} {m : Manifest}
    {files : List (String × Outcome)} {problem : Problem} {t₁ : Tree} (hwet : o.dryRun = false)
    (hc : Prepares t o api c) (hm : Yields t (Manifest.load api).run (.ok m) t)
    (hclient : Yields t (deliverAll false [⟨join api c.fileName, c.render⟩]).run (.ok files) t₁)
    (hmanifest : Yields t₁ (store (join api Manifest.fileName) text).run (.error problem) t') :
    HalfStored t o api c t' where
  wet := hwet
  prepared := hc
  client := by
    have hnodup : ([(⟨join api c.fileName, c.render⟩ : Output)].map fun o =>
        (pieces o.path).getLast?).Nodup := by simp
    exact (delivered_of_yields hnodup hclient).extends (extends_of_yields_store_error hmanifest)
  blocked hname := by
    obtain ⟨file, t₂, hfirst, rest, hrest, -⟩ := yields_deliverAll_cons_iff.1 hclient
    obtain ⟨-, rfl⟩ := yields_deliverAll_nil_iff.1 hrest
    obtain ⟨how, hstored, -⟩ := yields_deliver_iff.1 hfirst
    exact (blocked_of_yields_store_error hname isName_manifest (by decide) hstored
      hmanifest).imp_right fun hkind => ⟨not_directory_of_yields_loadManifest hm, hkind⟩

/-- A run that fails although its plan was made. -/
theorem stays_or_halfStored {request : Request} {plan : ExceptT Failure (StateM Tree) Plan}
    (hplan : request.plan? = some plan) {p : Plan} (hp : Yields t plan.run (.ok p) t)
    {failure : Failure} (h : Yields t (p.carryOut request.isDryRun).run (.error failure) t') :
    (∀ x, t'.file? x = t.file? x) ∨
      ∃ o api c, request = .client o ∧ HalfStored t o api c t' := by
  obtain ⟨problem, hproblem⟩ := yields_carryOut_error h
  cases hdry : request.isDryRun with
  | true =>
    rw [hdry] at hproblem
    obtain rfl := within_preview _ _ _ _ hproblem
    exact .inl fun _ => rfl
  | false =>
    rw [hdry] at hproblem
    obtain ⟨done, o, rest, files, t₁, houtputs, hdone, hstore⟩ :=
      exists_delivered_of_error hproblem
    cases done with
    | nil =>
      obtain ⟨-, rfl⟩ := yields_deliverAll_nil_iff.1 hdone
      exact .inl (extends_of_yields_store_error hstore).files
    | cons first done =>
      -- Only the plan for a client module has a second file.
      rcases outputs_of_plan hplan hp with ⟨output, hone⟩ | ⟨o', api, c, m, rfl, hc, hm, rfl⟩
      · rw [hone] at houtputs
        simp at houtputs
      · obtain ⟨rfl, hrest⟩ := List.cons.inj houtputs
        cases done with
        | cons second done => simp at hrest
        | nil =>
          obtain ⟨rfl, -⟩ := List.cons.inj hrest
          exact .inr ⟨o', api, c, rfl, halfStored_of_error hdry hc hm hdone hstore⟩

section
variable {arguments : List String} {request : Request}
  {plan : ExceptT Failure (StateM Tree) Plan}

/-- A run that makes no plan. -/
theorem keepsFiles_of_none {answer : Answer}
    (hnone : ∀ request, readRequest {} arguments = .ok request → request.plan? = none) :
    KeepsFiles t arguments answer t :=
  keepsFiles_of_stays (fun _ request plan hok hplan => by
    rw [hnone request hok] at hplan
    cases hplan) fun _ => rfl

/-- A run that fails. -/
theorem keepsFiles_of_failure (hplan : request.plan? = some plan) {failure : Failure}
    (h : Yields t (generate request.isDryRun plan) (.error failure) t') :
    KeepsFiles t arguments (answerOf (.error failure)) t' ∨
      ∃ o api c, request = .client o ∧ HalfStored t o api c t' := by
  have hstays : (∀ x, t'.file? x = t.file? x) →
      KeepsFiles t arguments (answerOf (.error failure)) t' :=
    keepsFiles_of_stays fun hok => absurd hok Nat.one_ne_zero
  rcases yields_run_bind_error_iff.1 h with hnoplan | ⟨p, t₁, hp, hcarry⟩
  · obtain rfl := within_plan hplan _ _ _ hnoplan
    exact .inl (hstays fun _ => rfl)
  · obtain rfl := within_plan hplan _ _ _ hp
    exact (stays_or_halfStored hplan hp hcarry).imp_left hstays

/-- A run that succeeds. -/
theorem keepsFiles_of_report (hrequest : readRequest {} arguments = .ok request)
    (hplan : request.plan? = some plan) {report : Report}
    (h : Yields t (generate request.isDryRun plan) (.ok report) t') :
    KeepsFiles t arguments (answerOf (.ok report)) t' := by
  obtain ⟨p, t₁, hp, hcarry⟩ := yields_generate_iff.1 h
  obtain rfl := within_plan hplan _ _ _ hp
  obtain ⟨files, hfiles, rfl⟩ := yields_carryOut_iff.1 hcarry
  cases hdry : request.isDryRun with
  | true =>
    rw [hdry] at hfiles
    obtain rfl := within_preview _ _ _ _ hfiles
    refine keepsFiles_of_stays (fun _ request' plan' hok _ => ?_) fun _ => rfl
    cases Except.ok.inj (hrequest.symm.trans hok)
    exact hdry
  | false =>
    rw [hdry] at hfiles h
    refine ⟨fun hexit => absurd rfl hexit, fun request' hok htrue => ?_,
      fun hnone => ?_, fun _ request' plan' hok hplan' _ => ?_⟩
    · cases Except.ok.inj (hrequest.symm.trans hok)
      rw [hdry] at htrue
      cases htrue
    · rw [hnone request hrequest] at hplan
      cases hplan
    · cases Except.ok.inj (hrequest.symm.trans hok)
      cases Option.some.inj (hplan.symm.trans hplan')
      exact ⟨p, _, hp, h, rfl, paths_of_yields_deliverAll hfiles,
        delivered_of_yields (last_pieces_nodup hplan hp) hfiles⟩

end

/-- **Which files a run changes.** A run that fails or that is a dry run changes no file, and a run
that succeeds changes those that it reports, each of which holds what was rendered. It can be
otherwise only if the command for clients, after it has stored a client module, fails to store the
manifest. -/
theorem keepsFiles_run {arguments : List String} {answer : Answer}
    (h : Yields t (run arguments) answer t') :
    KeepsFiles t arguments answer t' ∨
      ∃ o api c, readRequest {} arguments = .ok (.client o) ∧ answer.exit = 1 ∧
        HalfStored t o api c t' := by
  rw [run] at h
  cases hrequest : readRequest {} arguments with
  | error stop =>
    rw [hrequest] at h
    obtain ⟨-, rfl⟩ := yields_pure_iff.1 h
    refine .inl (keepsFiles_of_none fun request hok => ?_)
    cases hrequest.symm.trans hok
  | ok request =>
    rw [hrequest] at h
    change Yields t (serve request) answer t' at h
    cases hplan : request.plan? with
    | none =>
      obtain ⟨shell, rfl⟩ := exists_completions_of_plan hplan
      obtain ⟨-, rfl⟩ := yields_pure_iff.1 h
      refine .inl (keepsFiles_of_none fun request hok => ?_)
      cases Except.ok.inj (hrequest.symm.trans hok)
      exact hplan
    | some plan =>
      rw [serve_eq hplan] at h
      obtain ⟨failure | report, hresult, rfl⟩ := yields_map_iff.1 h
      · refine (keepsFiles_of_failure hplan hresult).imp_right ?_
        rintro ⟨o, api, c, rfl, hhalf⟩
        exact ⟨o, api, c, rfl, rfl, hhalf⟩
      · exact .inl (keepsFiles_of_report hrequest hplan hresult)

theorem keepsFiles_notesProject : ∃ answer t',
    Yields notesProject (run ["clientgen", "new.json"]) answer t' ∧ answer.exit = 0 ∧
      KeepsFiles notesProject ["clientgen", "new.json"] answer t' := by
  let outcome := (run (m := StateM Tree) ["clientgen", "new.json"]).run notesProject
  have hrun : Yields notesProject (run ["clientgen", "new.json"]) outcome.1 outcome.2 :=
    yields_iff.2 ⟨rfl, rfl⟩
  have hexit : outcome.1.exit = 0 := by decide +kernel
  refine ⟨outcome.1, outcome.2, hrun, hexit, ?_⟩
  rcases keepsFiles_run hrun with hkeeps | ⟨o, api, c, -, hfailed, -⟩
  · exact hkeeps
  · cases hexit.symm.trans hfailed

/-- A project whose settings lead to the directory of client modules through one that is missing.
Where the manifest would be, there is a directory. -/
def detourProject : Tree where
  items := notesProject.items ++ [
    (["src", "api"], .directory), (["src", "api", Manifest.fileName], .directory),
    ([Config.fileName], .file "[paths]\napi = \"src/new/../api\"\n".toUTF8)]

/-- To store the client module makes the missing directory, and only then the directory in place of
the manifest comes to light. -/
theorem not_keepsFiles_detourProject : ∃ answer t',
    Yields detourProject (run ["clientgen", "new.json"]) answer t' ∧ answer.exit = 1 ∧
      ¬ KeepsFiles detourProject ["clientgen", "new.json"] answer t' := by
  let outcome := (run (m := StateM Tree) ["clientgen", "new.json"]).run detourProject
  have hhalf : outcome.1.exit = 1 ∧
      (outcome.2.file? ["src", "api", "note_client.ts"]).isSome = true := by decide +kernel
  obtain ⟨hexit, hnew⟩ := hhalf
  have hold : detourProject.file? ["src", "api", "note_client.ts"] = none := by decide +kernel
  refine ⟨outcome.1, outcome.2, yields_iff.2 ⟨rfl, rfl⟩, hexit, fun hkeeps => ?_⟩
  rw [hkeeps.failed (by rw [hexit]; decide), hold] at hnew
  cases hnew

end Lexgen.Command
