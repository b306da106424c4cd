/-
# Runs of the command for clients at the same time

A run of the command for a client module loads the manifest, stores the module and stores the
manifest with its entry (`completes_iff_interleave`). Runs at the same time take these turns in any
order, and no lock keeps one from loading what another is about to replace. So the manifest follows
a ledger that knows of the turns only (`matches_interleave`): it has the entries that its last
writer loaded, and that writer's own. Entries of other files stay, but of two runs that overlap the
one that stores the manifest first loses its entry (`recorded_of_concurrent`).

Key definitions: `Spares`, `Offers`, `Steady`, `interleave`, `Completes`, `Ledger`, `Concurrent`,
`Commanded`, `Recorded`.
Key theorems: `completes_iff_interleave`, `Matches.turn`, `matches_interleave`,
`Concurrent.commanded`, `recorded_of_concurrent`.
-/
import Lexgen.Proofs.Command.Changes
import Mathlib.Data.Fintype.Basic
import Mathlib.Logic.Function.Basic

namespace Lexgen.Command

open Lexgen.Client Lexgen.Data Lexgen.Files Lexgen.Project Lexgen.Routes

variable {t t' : Tree} {api : String}

/-! ### Trees on which no manifest changes -/

/-- Directories stay, and so do the files of a name, wherever they are. -/
structure Spares (name : String) (t t' : Tree) : Prop extends Tree.Grows t t' where
  files : ∀ x : Location, x.getLast? = some name → t'.file? x = t.file? x

instance (name : String) : IsPreorder Tree (Spares name) where
  refl t := ⟨refl_of Tree.Grows t, fun _ _ => rfl⟩
  trans _ _ _ h h' :=
    ⟨trans_of Tree.Grows h.toGrows h'.toGrows, fun x hx => (h'.files x hx).trans (h.files x hx)⟩

/-- To store a file spares those of other names. -/
theorem spares_of_yields_store {name path text : String} {how : Written}
    (hlast : (pieces path).getLast? ≠ some name)
    (h : Yields t (store path text).run (.ok how) t') : Spares name t t' := by
  obtain ⟨place, hstores⟩ := stores_of_yields h
  refine ⟨hstores.toGrows, fun x hx => hstores.others x ?_⟩
  rintro rfl
  obtain ⟨last, -, hpath, hplace⟩ := hstores.named
  exact hlast (hpath.trans (hplace.symm.trans hx))

theorem getLast?_of_follow_join {directory name : String} (hname : IsName name) {place : Location}
    (h : t.follow (join directory name) (pieces (join directory name)) = .ok place) :
    place.getLast? = some name := by
  obtain ⟨-, middle, -, hwalk⟩ := (Tree.follow_join_eq_ok_iff hname.isRooted_eq).1 h
  rw [hname.pieces_eq] at hwalk
  obtain ⟨-, -, hself⟩ := (Tree.walk_cons_eq_ok_iff hname).1 hwalk
  rw [← Except.ok.inj hself]
  exact List.getLast?_concat

theorem Spares.lookup_eq {directory name : String} (h : Spares name t t') (hname : IsName name)
    {content : ByteArray} (hfile : t.lookup (join directory name) = .ok (.file content)) :
    t'.lookup (join directory name) = .ok (.file content) := by
  obtain ⟨place, hfollow, hplace⟩ := Tree.lookup_eq_ok_iff.1 hfile
  have hsame := h.files place (getLast?_of_follow_join hname hfollow)
  exact Tree.lookup_eq_ok_iff.2
    ⟨place, h.follow_eq hfollow, (Tree.item?_eq_file_iff hsame).2 hplace⟩

/-! ### What runs can load before one has stored the manifest -/

/-- What a run may load as long as only files of other names are stored. -/
def Offers (t : Tree) (api : String) (m : Manifest) : Prop :=
  ∃ t', Spares Manifest.fileName t t' ∧ Yields t' (Manifest.load api).run (.ok m) t'

/-- Making directories brings no manifest to light that was out of reach. -/
def Steady (t : Tree) (api : String) : Prop :=
  ∀ t', Spares Manifest.fileName t t' → ∀ content,
    t'.lookup (join api Manifest.fileName) = .ok (.file content) →
      t.lookup (join api Manifest.fileName) = .ok (.file content)

/-- Where there is a manifest at first, every run loads it that comes before it is replaced. -/
theorem Offers.eq_or_empty {m m' : Manifest} (hm : Yields t (Manifest.load api).run (.ok m) t)
    (h : Offers t api m') : m' = m ∨ m = .empty := by
  obtain ⟨t', hspares, hm'⟩ := h
  rcases (yields_readSettings_iff.1 hm).1 with ⟨text, htext, hread⟩ | ⟨-, hempty⟩
  · have hagain : Yields t' (Manifest.load api).run (.ok m) t' :=
      yields_readSettings_iff.2
        ⟨.inl ⟨text, hspares.lookup_eq isName_manifest htext, hread⟩, rfl⟩
    exact .inl (Except.ok.inj (hagain.iff.1 hm').1)
  · exact .inr hempty.symm

theorem Offers.eq {m m' : Manifest} (hsteady : Steady t api)
    (hm : Yields t (Manifest.load api).run (.ok m) t) (h : Offers t api m') : m' = m := by
  rcases h.eq_or_empty hm with rfl | rfl
  · rfl
  · obtain ⟨t', hspares, hm'⟩ := h
    rcases (yields_readSettings_iff.1 hm').1 with ⟨text, htext, hread⟩ | ⟨-, hempty⟩
    · have hfirst : Yields t (Manifest.load api).run (.ok m') t :=
        yields_readSettings_iff.2 ⟨.inl ⟨text, hsteady t' hspares _ htext, hread⟩, rfl⟩
      exact Except.ok.inj (hm.iff.1 hfirst).1
    · exact hempty.symm

/-- A project is steady if everything above the directory of client modules is there. -/
theorem steady_of_leads {place : Location} (hproper : t.Proper) (hplace : t.Leads api place) :
    Steady t api := by
  intro t' hspares content hfile
  have hleads : t'.Leads api place := hplace.mono hspares.directories hspares.here
  obtain ⟨husable, -, hshort, hitem⟩ := (Tree.lookup_join_eq_ok_iff hleads isName_manifest).1 hfile
  have hitem' : t.item? (place ++ [Manifest.fileName]) = some (.file content) :=
    (Tree.item?_eq_file_iff (hspares.files _ List.getLast?_concat)).1 hitem
  have hparent := hproper.parent place Manifest.fileName (by rw [hitem']; rfl)
  exact (Tree.lookup_join_eq_ok_iff hplace isName_manifest).2 ⟨husable, hparent, hshort, hitem'⟩

/-- So are all projects with the default settings. -/
theorem steady_of_sdk {root : String} (hproper : t.Proper)
    (hsdk : t.kind (sdkOf root) = .ok .file) : Steady t (apiOf root) := by
  obtain ⟨base, -, hapi⟩ := exists_leads_of_sdk hsdk
  exact steady_of_leads hproper hapi

/-! ### Turns -/

/-- How far a run is that loads a value, does something else and then stores another value. -/
inductive Moment (V : Type) where
  | start
  | loaded (v : V)
  | served (v : V)
  | finished

/-- The next turn of a run for a client module. -/
def advance (api : String) (c : Client) :
    Moment Manifest → ExceptT Problem (StateM Tree) (Moment Manifest)
  | .start => do return .loaded (← Manifest.load api)
  | .loaded m => do
    let _ ← store (join api c.fileName) c.render
    return .served m
  | .served m => do
    let _ ← store (join api Manifest.fileName)
      (m.insert c.fileName c.entity.collection).render
    return .finished
  | .finished => return .finished

theorem yields_advance_start_iff {c : Client} {next : Moment Manifest} :
    Yields t (advance api c .start).run (.ok next) t' ↔
      ∃ m, Yields t (Manifest.load api).run (.ok m) t' ∧ .loaded m = next :=
  yields_run_bind_pure_iff

theorem yields_advance_loaded_iff {c : Client} {m : Manifest} {next : Moment Manifest} :
    Yields t (advance api c (.loaded m)).run (.ok next) t' ↔
      ∃ how, Yields t (store (join api c.fileName) c.render).run (.ok how) t' ∧
        .served m = next :=
  yields_run_bind_pure_iff

theorem yields_advance_served_iff {c : Client} {m : Manifest} {next : Moment Manifest} :
    Yields t (advance api c (.served m)).run (.ok next) t' ↔
      ∃ how, Yields t (store (join api Manifest.fileName)
        (m.insert c.fileName c.entity.collection).render).run (.ok how) t' ∧ .finished = next :=
  yields_run_bind_pure_iff

/-! ### The ledger of the turns -/

variable {ι : Type}

/-- What the turns say about the manifest: whose entries it has, the latest last, and for each run
those in the manifest that it holds. -/
structure Ledger (ι : Type) where
  entries : List ι := []
  moments : ι → Moment (List ι) := fun _ => .start

/-- Two runs that are equally far, with related values. -/
inductive Agrees {V W : Type} (R : V → W → Prop) : Moment V → Moment W → Prop
  | start : Agrees R .start .start
  | loaded {v : V} {w : W} : R v w → Agrees R (.loaded v) (.loaded w)
  | served {v : V} {w : W} : R v w → Agrees R (.served v) (.served w)
  | finished : Agrees R .finished .finished

/-- A manifest with the entries of some runs. -/
def withEntries (client : ι → Client) (m : Manifest) (is : List ι) : Manifest :=
  is.foldl (fun m i => m.insert (client i).fileName (client i).entity.collection) m

@[simp] theorem withEntries_nil (client : ι → Client) (m : Manifest) :
    withEntries client m [] = m := rfl

@[simp] theorem withEntries_concat (client : ι → Client) (m : Manifest) (is : List ι) (i : ι) :
    withEntries client m (is ++ [i]) =
      (withEntries client m is).insert (client i).fileName (client i).entity.collection := by
  simp [withEntries]

@[simp] theorem collection?_insert (m : Manifest) (file id x : String) :
    (m.insert file id).collection? x = if x = file then some id else m.collection? x :=
  Sorted.get?_insert m.collections file id x

/-- Other entries stay. -/
theorem collection?_withEntries_of_ne {client : ι → Client} {m : Manifest} {file : String}
    (h : ∀ i, file ≠ (client i).fileName) (is : List ι) :
    (withEntries client m is).collection? file = m.collection? file := by
  induction is using List.reverseRecOn with
  | nil => rfl
  | append_singleton is i ih => simp [h i, ih]

/-- A manifest that some runs made of what could be loaded at first. -/
def Version (t : Tree) (api : String) (client : ι → Client) (is : List ι) (m : Manifest) : Prop :=
  ∃ m₁, Offers t api m₁ ∧ m = withEntries client m₁ is

/-- The tree `t'`, on which runs that began on the tree `t` are in their moments, is as the ledger
says. -/
structure Matches (t : Tree) (api : String) (client : ι → Client) (l : Ledger ι)
    (moments : ι → Moment Manifest) (t' : Tree) : Prop where
  agrees : ∀ i, Agrees (Version t api client) (l.moments i) (moments i)
  untouched : l.entries = [] → Spares Manifest.fileName t t'
  stored : l.entries ≠ [] → ∃ m, Version t api client l.entries m ∧
    t'.lookup (join api Manifest.fileName) = .ok (.file m.render.toUTF8)

variable {client : ι → Client}

theorem matches_start (t : Tree) : Matches t api client {} (fun _ => .start) t where
  agrees _ := .start
  untouched _ := refl_of (Spares Manifest.fileName) t
  stored h := absurd rfl h

/-- What is loaded is what the ledger says. -/
theorem Matches.version {l : Ledger ι} {moments : ι → Moment Manifest}
    (h : Matches t api client l moments t') {m : Manifest}
    (hm : Yields t' (Manifest.load api).run (.ok m) t') : Version t api client l.entries m := by
  by_cases hnone : l.entries = []
  · rw [hnone]
    exact ⟨m, ⟨t', h.untouched hnone, hm⟩, rfl⟩
  · obtain ⟨m', hversion, hlookup⟩ := h.stored hnone
    rcases (yields_readSettings_iff.1 hm).1 with ⟨text, htext, hread⟩ | ⟨hmissing, -⟩
    · -- The text was rendered, so if it can be read it is read as the manifest that it is of.
      have hbytes := Except.ok.inj (hlookup.symm.trans htext)
      obtain rfl : m'.render = text := String.toByteArray_inj.1 (Item.file.inj hbytes)
      rw [Manifest.ofToml_render] at hread
      split at hread
      · cases hread
        exact hversion
      · cases hread
    · exact absurd hlookup (hmissing _)

/-! ### Taking turns -/

variable [DecidableEq ι]

/-- Runs that take turns. -/
def interleave (api : String) (client : ι → Client) :
    List ι → (ι → Moment Manifest) → ExceptT Problem (StateM Tree) (ι → Moment Manifest)
  | [], moments => return moments
  | i :: turns, moments => do
    let next ← advance api (client i) (moments i)
    interleave api client turns (Function.update moments i next)

theorem yields_interleave_cons_iff {client : ι → Client} {i : ι} {turns : List ι}
    {moments moments' : ι → Moment Manifest} :
    Yields t (interleave api client (i :: turns) moments).run (.ok moments') t' ↔
      ∃ next t₁, Yields t (advance api (client i) (moments i)).run (.ok next) t₁ ∧
        Yields t₁ (interleave api client turns (Function.update moments i next)).run
          (.ok moments') t' :=
  yields_run_bind_iff

theorem yields_interleave_append_iff {client : ι → Client} {t'' : Tree} {turns' : List ι}
    {moments'' : ι → Moment Manifest} : ∀ {t : Tree} {turns : List ι}
      {moments : ι → Moment Manifest},
    Yields t (interleave api client (turns ++ turns') moments).run (.ok moments'') t'' ↔
      ∃ moments' t', Yields t (interleave api client turns moments).run (.ok moments') t' ∧
        Yields t' (interleave api client turns' moments').run (.ok moments'') t''
  | t, [], moments => by
    constructor
    · intro h
      exact ⟨moments, t, yields_run_pure_iff.2 ⟨rfl, rfl⟩, h⟩
    · rintro ⟨moments', t', hnone, h⟩
      obtain ⟨rfl, rfl⟩ := yields_run_pure_iff.1 hnone
      exact h
  | t, i :: turns, moments => by
    simp only [List.cons_append, yields_interleave_cons_iff]
    constructor
    · rintro ⟨next, t₁, hnext, h⟩
      obtain ⟨moments', t', hturns, hrest⟩ := yields_interleave_append_iff.1 h
      exact ⟨moments', t', ⟨next, t₁, hnext, hturns⟩, hrest⟩
    · rintro ⟨moments', t', ⟨next, t₁, hnext, hturns⟩, hrest⟩
      exact ⟨next, t₁, hnext, yields_interleave_append_iff.2 ⟨moments', t', hturns, hrest⟩⟩

/-- What a run does once it is prepared: the manifest is loaded, the client module is stored, and
then the manifest with its entry. -/
def Enters (api : String) (c : Client) (t t' : Tree) : Prop :=
  ∃ m, Yields t (Manifest.load api).run (.ok m) t ∧
    ∃ how t₁, Yields t (store (join api c.fileName) c.render).run (.ok how) t₁ ∧
      ∃ how', Yields t₁ (store (join api Manifest.fileName)
        (m.insert c.fileName c.entity.collection).render).run (.ok how') t'

/-- These are the turns of a run that begins, if no other comes in between. -/
theorem yields_interleave_replicate_iff {client : ι → Client} {i : ι}
    {moments moments' : ι → Moment Manifest} (hstart : moments i = .start) :
    Yields t (interleave api client (List.replicate 3 i) moments).run (.ok moments') t' ↔
      Enters api (client i) t t' ∧ moments' = Function.update moments i .finished := by
  have hthree : List.replicate 3 i = [i, i, i] := rfl
  simp only [hthree, yields_interleave_cons_iff, hstart, Function.update_self,
    Function.update_idem]
  constructor
  · rintro ⟨_, t₁, hfirst, _, t₂, hsecond, _, t₃, hthird, hnone⟩
    obtain ⟨m, hm, rfl⟩ := yields_advance_start_iff.1 hfirst
    obtain rfl := within_loadManifest _ _ _ _ hm
    obtain ⟨how, hclient, rfl⟩ := yields_advance_loaded_iff.1 hsecond
    obtain ⟨how', hmanifest, rfl⟩ := yields_advance_served_iff.1 hthird
    obtain ⟨rfl, rfl⟩ := yields_run_pure_iff.1 hnone
    exact ⟨⟨m, hm, how, t₂, hclient, how', hmanifest⟩, rfl⟩
  · rintro ⟨⟨m, hm, how, t₁, hclient, how', hmanifest⟩, rfl⟩
    exact ⟨_, t, yields_advance_start_iff.2 ⟨m, hm, rfl⟩,
      _, t₁, yields_advance_loaded_iff.2 ⟨how, hclient, rfl⟩,
      _, t', yields_advance_served_iff.2 ⟨how', hmanifest, rfl⟩,
      yields_run_pure_iff.2 ⟨rfl, rfl⟩⟩

/-! ### Runs of the command -/

/-- A run of the command for a client module that succeeds. -/
def Completes (o : ClientOptions) (t t' : Tree) : Prop :=
  ∃ report, Yields t (generate false (planClient o)) (.ok report) t'

theorem completes_iff_enters {o : ClientOptions} {c : Client} (h : Prepares t o api c) :
    Completes o t t' ↔ Enters api c t t' := by
  have hcarry (m : Manifest) := @exists_carryOut_pair_iff t t' (planIn api m c) _ _ _ _ rfl
  constructor
  · rintro ⟨report, hreport⟩
    obtain ⟨p, t₁, hp, hstored⟩ := yields_generate_iff.1 hreport
    obtain ⟨api', c', m, h', hm, rfl, rfl⟩ := yields_planClient_prepared_iff.1 hp
    obtain ⟨rfl, rfl⟩ := h.unique h'
    have hsource : report.source = (planIn api' m c').source := by
      obtain ⟨files, -, rfl⟩ := yields_carryOut_iff.1 hstored
      rfl
    exact ⟨m, hm, (hcarry m).1 ⟨report, hstored, hsource⟩⟩
  · rintro ⟨m, hm, hstores⟩
    obtain ⟨report, hstored, -⟩ := (hcarry m).2 hstores
    exact ⟨report, yields_generate_iff.2
      ⟨_, t, yields_planClient_prepared_iff.2 ⟨api, c, m, h, hm, rfl, rfl⟩, hstored⟩⟩

/-- **A run of the command** that is prepared is its three turns, wherever the others are. -/
theorem completes_iff_interleave {o : ClientOptions} {client : ι → Client} {i : ι}
    {moments : ι → Moment Manifest} (hstart : moments i = .start)
    (h : Prepares t o api (client i)) :
    Completes o t t' ↔ Yields t (interleave api client (List.replicate 3 i) moments).run
      (.ok (Function.update moments i .finished)) t' := by
  rw [yields_interleave_replicate_iff hstart, completes_iff_enters h, and_iff_left rfl]

/-! ### The ledger and the turns -/

/-- One turn: a run takes note of the entries, and later replaces them by those and its own. -/
def Ledger.turn (l : Ledger ι) (i : ι) : Ledger ι :=
  match l.moments i with
  | .start => { l with moments := Function.update l.moments i (.loaded l.entries) }
  | .loaded held => { l with moments := Function.update l.moments i (.served held) }
  | .served held => ⟨held ++ [i], Function.update l.moments i .finished⟩
  | .finished => { l with moments := Function.update l.moments i .finished }

/-- Whose entries are in the manifest after some turns. -/
def entriesAfter (turns : List ι) : List ι := (turns.foldl Ledger.turn {}).entries

theorem agrees_update {V W : Type} {R : V → W → Prop} {held : ι → Moment V} {hand : ι → Moment W}
    (h : ∀ j, Agrees R (held j) (hand j)) {i : ι} {v : Moment V} {w : Moment W}
    (hi : Agrees R v w) (j : ι) :
    Agrees R (Function.update held i v j) (Function.update hand i w j) := by
  by_cases hj : j = i
  · subst hj
    simpa using hi
  · simpa [hj] using h j

/-- **One turn** keeps the tree as the ledger says. -/
theorem Matches.turn {l : Ledger ι} {moments : ι → Moment Manifest} {t₁ t₂ : Tree} {i : ι}
    {next : Moment Manifest} (h : Matches t api client l moments t₁)
    (hnext : Yields t₁ (advance api (client i) (moments i)).run (.ok next) t₂) :
    Matches t api client (l.turn i) (Function.update moments i next) t₂ := by
  have hi := h.agrees i
  rw [Ledger.turn]
  generalize l.moments i = held at hi ⊢
  generalize moments i = hand at hi hnext
  cases hi with
  | start =>
    obtain ⟨m, hm, rfl⟩ := yields_advance_start_iff.1 hnext
    obtain rfl := within_loadManifest _ _ _ _ hm
    exact ⟨agrees_update h.agrees (.loaded (h.version hm)), h.untouched, h.stored⟩
  | loaded hversion =>
    obtain ⟨how, hclient, rfl⟩ := yields_advance_loaded_iff.1 hnext
    have hlast := last_pieces_ne api (client i)
    rw [getLast?_pieces_join api Manifest.fileName, isName_manifest.pieces_eq] at hlast
    have hspares := spares_of_yields_store hlast hclient
    refine ⟨agrees_update h.agrees (.served hversion), fun hnone => ?_, fun hsome => ?_⟩
    · exact trans_of (Spares Manifest.fileName) (h.untouched hnone) hspares
    · obtain ⟨m, hm, hlookup⟩ := h.stored hsome
      exact ⟨m, hm, hspares.lookup_eq isName_manifest hlookup⟩
  | served hversion =>
    obtain ⟨how, hmanifest, rfl⟩ := yields_advance_served_iff.1 hnext
    obtain ⟨place, hstores⟩ := stores_of_yields hmanifest
    obtain ⟨m₁, hoffers, rfl⟩ := hversion
    refine ⟨agrees_update h.agrees .finished, fun hnone => absurd hnone (by simp), fun _ => ?_⟩
    refine ⟨_, ⟨m₁, hoffers, rfl⟩, Tree.lookup_eq_ok_iff.2 ⟨place, hstores.leads, ?_⟩⟩
    rw [withEntries_concat]
    exact hstores.holds
  | finished =>
    obtain ⟨rfl, rfl⟩ := yields_run_pure_iff.1 hnext
    exact ⟨agrees_update h.agrees .finished, h.untouched, h.stored⟩

/-- **Any number of turns**, in any order, keep the tree as the ledger says. -/
theorem matches_interleave : ∀ {turns : List ι} {l : Ledger ι}
    {moments moments' : ι → Moment Manifest} {t₁ t' : Tree}, Matches t api client l moments t₁ →
    Yields t₁ (interleave api client turns moments).run (.ok moments') t' →
      Matches t api client (turns.foldl Ledger.turn l) moments' t'
  | [], _, _, _, _, _, h, hturns => by
    obtain ⟨rfl, rfl⟩ := yields_run_pure_iff.1 hturns
    exact h
  | i :: turns, _, _, _, _, _, h, hturns => by
    obtain ⟨next, t₁, hnext, hrest⟩ := yields_interleave_cons_iff.1 hturns
    rw [List.foldl_cons]
    exact matches_interleave (h.turn hnext) hrest

/-- The first turn of all is that the manifest is loaded from the tree as it was. -/
theorem exists_load_of_interleave {turns : List ι} {moments : ι → Moment Manifest}
    (hne : turns ≠ [])
    (h : Yields t (interleave api client turns fun _ => .start).run (.ok moments) t') :
    ∃ m, Yields t (Manifest.load api).run (.ok m) t := by
  cases turns with
  | nil => exact absurd rfl hne
  | cons i turns =>
    obtain ⟨next, t₁, hfirst, -⟩ := yields_interleave_cons_iff.1 h
    obtain ⟨m, hm, -⟩ := yields_advance_start_iff.1 hfirst
    obtain rfl := within_loadManifest _ _ _ _ hm
    exact ⟨m, hm⟩

/-! ### Two runs -/

/-- The two runs. -/
inductive Side where
  | left
  | right
deriving DecidableEq

instance : Fintype Side := ⟨{.left, .right}, fun i => by cases i <;> decide⟩

/-- The other run. -/
def Side.other : Side → Side
  | .left => .right
  | .right => .left

theorem Side.other_other : ∀ i : Side, i.other.other = i := by
  decide

theorem Side.other_ne : ∀ i : Side, i.other ≠ i := by
  decide

theorem Side.eq_or_eq_other : ∀ i j : Side, j = i ∨ j = i.other := by
  decide

/-- One run is over before the other begins. -/
def oneByOne (i : Side) : List Side := List.replicate 3 i ++ List.replicate 3 i.other

theorem getLast?_oneByOne : ∀ i, (oneByOne i).getLast? = some i.other := by
  decide

/-- There are only 64 lists of six turns. -/
theorem entriesAfter_six : ∀ a b c d e f : Side, (∀ i, [a, b, c, d, e, f].count i = 3) →
    entriesAfter [a, b, c, d, e, f] =
      (if [a, b, c, d, e, f] = oneByOne f.other then [f.other] else []) ++ [f] := by
  decide

/-- **Whose entries are left of two runs**: those of both if one was over before the other began,
and else those of the run that had the last turn. -/
theorem entriesAfter_pair {turns : List Side} (h : ∀ i, turns.count i = 3) :
    ∃ i, turns.getLast? = some i ∧
      entriesAfter turns = (if turns = oneByOne i.other then [i.other] else []) ++ [i] := by
  have hlength : turns.length = 6 := by
    have hperm : turns.Perm (oneByOne .left) :=
      List.perm_iff_count.2 fun i => (h i).trans (by cases i <;> decide)
    exact hperm.length_eq
  match turns, hlength, h with
  | [a, b, c, d, e, f], _, h => exact ⟨f, rfl, entriesAfter_six a b c d e f h⟩

/-- Two runs for client modules, prepared on the same tree, that take their turns and succeed. -/
structure Concurrent (o : Side → ClientOptions) (api : String) (client : Side → Client) (t : Tree)
    (turns : List Side) (t' : Tree) : Prop where
  prepared : ∀ i, Prepares t (o i) api (client i)
  complete : ∀ i, turns.count i = 3
  succeeds : ∃ moments,
    Yields t (interleave api client turns fun _ => .start).run (.ok moments) t'

/-- Runs that take turns are runs of the command. -/
structure Commanded (o : Side → ClientOptions) (api : String) (client : Side → Client) (t : Tree)
    (turns : List Side) (t' : Tree) : Prop where
  /-- The three turns of a run, with none in between, are all that the command does. -/
  alone : ∀ i t₁, Completes (o i) t t₁ ↔
    Yields t (interleave api client (List.replicate 3 i) fun _ => .start).run
      (.ok (Function.update (fun _ => .start) i .finished)) t₁
  /-- If one run is over before the other begins, they are two runs of the command, one after the
  other: the second is so if what the first stored did not change how it is prepared. -/
  oneByOne : ∀ i, turns = oneByOne i → ∃ t₁, Completes (o i) t t₁ ∧
    (Prepares t₁ (o i.other) api (client i.other) → Completes (o i.other) t₁ t')

theorem Concurrent.commanded {o : Side → ClientOptions} {client : Side → Client}
    {turns : List Side} (h : Concurrent o api client t turns t') :
    Commanded o api client t turns t' where
  alone i _ := completes_iff_interleave rfl (h.prepared i)
  oneByOne := by
    rintro i rfl
    obtain ⟨moments, hturns⟩ := h.succeeds
    obtain ⟨moments₁, t₁, hfirst, hsecond⟩ := yields_interleave_append_iff.1 hturns
    obtain ⟨henters, rfl⟩ := (yields_interleave_replicate_iff rfl).1 hfirst
    refine ⟨t₁, (completes_iff_enters (h.prepared i)).2 henters, fun hprepared => ?_⟩
    have hstart : Function.update (fun _ => Moment.start) i Moment.finished i.other =
        (Moment.start : Moment Manifest) := Function.update_of_ne i.other_ne _ _
    obtain ⟨henters', -⟩ := (yields_interleave_replicate_iff hstart).1 hsecond
    exact (completes_iff_enters hprepared).2 henters'

/-- What two runs make of the manifest `m` in the tree `t`. -/
structure Recorded (api : String) (client : Side → Client) (t : Tree) (m : Manifest)
    (turns : List Side) (m' : Manifest) : Prop where
  /-- Entries of other files stay. -/
  others : ∀ file id, (∀ i, file ≠ (client i).fileName) → m.collection? file = some id →
    m'.collection? file = some id
  /-- The run that has the last turn has its entry. -/
  latest : ∀ i, turns.getLast? = some i →
    m'.collection? (client i).fileName = some (client i).entity.collection
  /-- If one run is over before the other begins, both have. -/
  both : (∃ i, turns = oneByOne i) → ∀ i,
    m'.collection? (client i).fileName = some (client i).entity.collection
  /-- Otherwise the other run has not, unless it was there before. -/
  lost : (∀ i, turns ≠ oneByOne i) → Steady t api → ∀ i, turns.getLast? ≠ some i →
    m'.collection? (client i).fileName = m.collection? (client i).fileName

theorem fileName_eq_iff {c d : Client} :
    c.fileName = d.fileName ↔ c.entity.base = d.entity.base := by
  rw [← String.toList_inj, ← String.toList_inj]
  simp [Client.fileName, Name.Entity.clientFile]

theorem fileName_other_ne {client : Side → Client}
    (hne : (client .left).entity.base ≠ (client .right).entity.base) (i : Side) :
    (client i.other).fileName ≠ (client i).fileName := by
  rw [ne_eq, fileName_eq_iff]
  cases i with
  | left => exact hne.symm
  | right => exact hne

/-- What the entries that are left of two runs mean for the manifest that they found. -/
theorem recorded_withEntries {client : Side → Client} {turns : List Side} {i : Side}
    {m m₁ : Manifest} (hne : (client .left).entity.base ≠ (client .right).entity.base)
    (hlast : turns.getLast? = some i) (hm : Yields t (Manifest.load api).run (.ok m) t)
    (hoffers : Offers t api m₁) :
    Recorded api client t m turns
      (withEntries client m₁ ((if turns = oneByOne i.other then [i.other] else []) ++ [i])) where
  others := by
    intro file id hfile hid
    rw [collection?_withEntries_of_ne hfile]
    rcases hoffers.eq_or_empty hm with rfl | rfl
    · exact hid
    · cases hid
  latest := by
    intro j hj
    obtain rfl := Option.some.inj (hlast.symm.trans hj)
    simp
  both := by
    rintro ⟨first, hfirst⟩ j
    rw [hfirst, getLast?_oneByOne] at hlast
    obtain rfl := Option.some.inj hlast
    rw [hfirst, Side.other_other, if_pos rfl]
    rcases Side.eq_or_eq_other first j with rfl | rfl
    · simp [withEntries, (fileName_other_ne hne j).symm]
    · simp [withEntries]
  lost := by
    intro hoverlap hsteady j hj
    obtain rfl := hoffers.eq hsteady hm
    rcases Side.eq_or_eq_other i j with rfl | rfl
    · exact absurd hlast hj
    · simp [withEntries, hoverlap i.other, fileName_other_ne hne i]

/-- **What two runs at the same time leave in the manifest**: all entries of other files, and the
entries of both runs if one was over before the other began, but else only that of the run that had
the last turn. The turns are those of the command. -/
theorem recorded_of_concurrent {o : Side → ClientOptions} {client : Side → Client}
    {turns : List Side} (hne : (client .left).entity.base ≠ (client .right).entity.base)
    (h : Concurrent o api client t turns t') :
    Commanded o api client t turns t' ∧ ∃ m m',
      Yields t (Manifest.load api).run (.ok m) t ∧
      t'.lookup (join api Manifest.fileName) = .ok (.file m'.render.toUTF8) ∧
      Recorded api client t m turns m' := by
  obtain ⟨moments, hturns⟩ := h.succeeds
  obtain ⟨i, hlast, hentries⟩ := entriesAfter_pair h.complete
  have hmatches := matches_interleave (matches_start t) hturns
  have hafter : (turns.foldl Ledger.turn {}).entries =
      (if turns = oneByOne i.other then [i.other] else []) ++ [i] := hentries
  obtain ⟨m', ⟨m₁, hoffers, rfl⟩, hlookup⟩ :=
    hmatches.stored (by rw [hafter]; exact List.concat_ne_nil _ _)
  obtain ⟨m, hm⟩ := exists_load_of_interleave (by rintro rfl; cases hlast) hturns
  rw [hafter] at hlookup
  exact ⟨h.commanded, m, _, hm, hlookup, recorded_withEntries hne hlast hm hoffers⟩

/-- Two runs in the project of notes. -/
def notesOptions : Side → ClientOptions
  | .left => { lexicon := "new.json" }
  | .right => { lexicon := "event.json" }

/-- The client modules of these runs. -/
def notesClients : Side → Client
  | .left => Client.ofId "org.example.note"
  | .right => Client.ofId "com.example.event"

/-- The second run begins and ends after the first has loaded the manifest. -/
def secondWithin : List Side := [.left, .right, .right, .right, .left, .left]

theorem prepares_notesProject (i : Side) :
    Prepares notesProject (notesOptions i) (apiOf ".") (notesClients i) := by
  have hprepares := @prepares_of_serves notesProject "."
  have hsdk : notesProject.kind (sdkOf ".") = .ok .file := by decide +kernel
  cases i with
  | left =>
    exact hprepares fresh_notesProject.defaults hsdk
      ⟨recordText "org.example.note", rfl, by decide +kernel⟩
  | right =>
    exact hprepares fresh_notesProject.defaults hsdk
      ⟨recordText "com.example.event", rfl, by decide +kernel⟩

theorem steady_notesProject : Steady notesProject (apiOf ".") :=
  steady_of_sdk fresh_notesProject.proper (by decide +kernel)

/-- What the turns leave. -/
def notesOutcome : Tree :=
  ((interleave (apiOf ".") notesClients secondWithin fun _ => .start).run.run notesProject).2

theorem concurrent_notesProject :
    Concurrent notesOptions (apiOf ".") notesClients notesProject secondWithin notesOutcome :=
  ⟨prepares_notesProject, by decide, exists_yields_of_isOk (by decide +kernel)⟩

theorem entity_ne_notesClients :
    (notesClients .left).entity.base ≠ (notesClients .right).entity.base := by
  decide +kernel

theorem recorded_notesProject : Steady notesProject (apiOf ".") ∧
    Commanded notesOptions (apiOf ".") notesClients notesProject secondWithin notesOutcome ∧
    ∃ m m', Yields notesProject (Manifest.load (apiOf ".")).run (.ok m) notesProject ∧
      notesOutcome.lookup (join (apiOf ".") Manifest.fileName) = .ok (.file m'.render.toUTF8) ∧
      Recorded (apiOf ".") notesClients notesProject m secondWithin m' :=
  ⟨steady_notesProject, recorded_of_concurrent entity_ne_notesClients concurrent_notesProject⟩

/-- The first run has loaded the manifest without the entry of the second, and stores it so. -/
theorem not_both_notesProject :
    (notesClients .left).entity.base ≠ (notesClients .right).entity.base ∧
      Concurrent notesOptions (apiOf ".") notesClients notesProject secondWithin notesOutcome ∧
      ∃ m', Yields notesOutcome (Manifest.load (apiOf ".")).run (.ok m') notesOutcome ∧
        m'.collection? (notesClients .right).fileName = none := by
  let load := Manifest.load (m := StateM Tree) (apiOf ".")
  have hlost : (load.run.run notesOutcome).1.toOption.bind
      (·.collection? (notesClients .right).fileName) = none := by decide +kernel
  obtain ⟨m', hm'⟩ : ∃ m', Yields notesOutcome load.run (.ok m') (load.run.run notesOutcome).2 :=
    exists_yields_of_isOk (by decide +kernel)
  rw [(yields_iff.1 hm').1] at hlost
  rw [← within_loadManifest _ _ _ _ hm'] at hm'
  exact ⟨entity_ne_notesClients, concurrent_notesProject, m', hm', hlost⟩

end Lexgen.Command
