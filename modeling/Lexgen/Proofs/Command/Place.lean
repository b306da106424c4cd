/-
# Client modules stay in their directory

The file name of a client module is the entity of the id with an ending. If the entity has no slash,
this is a plain name, so the path of the module is that of the directory with one more step
(`steps_join_name`). Then the files that a run changes are the module and the manifest in that
directory (`ofClient_of_yields`), and the listing of the directory finds the module
(`listed_of_delivered`). With a slash the path has a step more, or starts from the root.

Key definitions: `OfClient`, `StaysIn`.
Key theorems: `ofClient_of_yields`, `listed_of_delivered`, `staysIn_iff_isName`,
`staysIn_ofLexicon_iff`.
-/
import Lexgen.Proofs.Command.Changes
import Lexgen.Proofs.Files.Destination

namespace Lexgen.Command

open Lexgen.Client Lexgen.Data Lexgen.Files Lexgen.Project Lexgen.Routes

variable {t t' : Tree} {o : ClientOptions} {api : String} {c : Client}

/-! ### The files that a run changes -/

/-- Whether a location is that of the client module or of the manifest in a directory. -/
def OfClient (t : Tree) (api : String) (c : Client) (x : Location) : Prop :=
  ∃ place, t.Leads api place ∧ (x = place ++ [c.fileName] ∨ x = place ++ [Manifest.fileName])

/-- A file that is changed by storing the files of a client module is one of these, in the directory
of client modules. -/
theorem ofClient_of_delivered (hname : IsName c.fileName) {outputs : List Output}
    (hpaths : ∀ output ∈ outputs,
      output.path = join api c.fileName ∨ output.path = join api Manifest.fileName)
    (h : Delivered t outputs t') {x : Location} (hx : t'.file? x ≠ t.file? x) :
    OfClient t' api c x := by
  obtain ⟨output, houtput, hfollow⟩ := h.others x hx
  rcases hpaths output houtput with hpath | hpath
  · rw [hpath] at hfollow
    obtain ⟨place, hplace, -, hself⟩ := Tree.exists_of_follow_join_name hname hfollow
    exact ⟨place, hplace, .inl hself⟩
  · rw [hpath] at hfollow
    obtain ⟨place, hplace, -, hself⟩ := Tree.exists_of_follow_join_name isName_manifest hfollow
    exact ⟨place, hplace, .inr hself⟩

/-- A run that succeeds delivers the module and the manifest. -/
theorem exists_delivered_of_report {report : Report} (hprepares : Prepares t o api c)
    (h : Yields t (generate false (planClient o)) (.ok report) t') :
    ∃ m, Delivered t (planIn api m c).outputs t' := by
  obtain ⟨p, t₁, hplan, hcarry⟩ := yields_generate_iff.1 h
  obtain ⟨api', c', m, hprepares', -, rfl, rfl⟩ := yields_planClient_prepared_iff.1 hplan
  obtain ⟨rfl, rfl⟩ := hprepares.unique hprepares'
  obtain ⟨files, hfiles, -⟩ := yields_carryOut_iff.1 hcarry
  refine ⟨m, delivered_of_yields ?_ hfiles⟩
  simpa [planIn] using last_pieces_ne api' c'

/-- **The files that a run changes**, whether it succeeds or not, are in the directory of client
modules. -/
theorem ofClient_of_yields (hname : IsName c.fileName) (hprepares : Prepares t o api c)
    {result : Except Failure Report}
    (h : Yields t (generate o.dryRun (planClient o)) result t') {x : Location}
    (hx : t'.file? x ≠ t.file? x) : OfClient t' api c x := by
  cases result with
  | error failure =>
    have hplan : (Request.client o).plan? = some (planClient o) := rfl
    have hfailed : KeepsFiles t [] _ t' ∨ _ := keepsFiles_of_failure hplan h
    rcases hfailed with hkeeps | ⟨o', api', c', heq, hhalf⟩
    · exact absurd (hkeeps.failed Nat.one_ne_zero x) hx
    · cases heq
      obtain ⟨rfl, rfl⟩ := hprepares.unique hhalf.prepared
      refine ofClient_of_delivered hname (fun output houtput => ?_) hhalf.client hx
      rw [List.mem_singleton.1 houtput]
      exact .inl rfl
  | ok report =>
    cases hdry : o.dryRun with
    | true =>
      rw [hdry] at h
      obtain ⟨p, t₁, hplan, hcarry⟩ := yields_generate_iff.1 h
      obtain rfl := within_planClient o _ _ _ hplan
      obtain ⟨files, hfiles, -⟩ := yields_carryOut_iff.1 hcarry
      obtain rfl := within_preview _ _ _ _ hfiles
      exact absurd rfl hx
    | false =>
      rw [hdry] at h
      obtain ⟨m, hdelivered⟩ := exists_delivered_of_report hprepares h
      refine ofClient_of_delivered hname ?_ hdelivered hx
      simp [planIn]

/-- **The listing of the directory** finds a module that was delivered. -/
theorem listed_of_delivered (hname : IsName c.fileName) (hapi : api ≠ "") {m : Manifest}
    (h : Delivered t (planIn api m c).outputs t') :
    ∃ files, Yields t' (clientFiles api).run (.ok files) t' ∧ join api c.fileName ∈ files := by
  obtain ⟨below, hfollow, -, hitem⟩ := h.holds ⟨join api c.fileName, c.render⟩ List.mem_cons_self
  obtain ⟨place, hplace, hdirectory, rfl⟩ := Tree.exists_of_follow_join_name hname hfollow
  have husable : Usable api := (Tree.follow_eq_ok_iff.1 hfollow).1.of_join hapi hname
  have hclient : isClientFile c.fileName = true := by
    obtain ⟨last, hlast, hclient⟩ := exists_last_piece_clientFile c.entity
    rw [← Client.fileName, hname.pieces_eq, List.getLast?_singleton] at hlast
    exact Option.some.inj hlast ▸ hclient
  have hkind : t'.kind (join api c.fileName) = .ok .file :=
    Tree.kind_eq_ok_iff.2 ⟨_, Tree.lookup_eq_ok_iff.2 ⟨_, hfollow, hitem⟩, rfl⟩
  obtain ⟨names, hnames, -, hmem⟩ := exists_clientFiles husable hplace hdirectory
  refine ⟨_, hnames, List.mem_map_of_mem ((hmem _).2 ⟨?_, hclient, hkind⟩)⟩
  rw [hitem]
  rfl

/-! ### The directory of a client module -/

/-- A client module that is meant for a directory stays in it. -/
structure StaysIn (api : String) (c : Client) : Prop where
  /-- Its path is that of the directory with one more step, to its name. -/
  path : steps (join api c.fileName) = steps api ++ [.name c.fileName]
  /-- A run, whether it succeeds or not, changes no file but the module and the manifest in the
  directory. -/
  changes : ∀ t o result t', Prepares t o api c →
    Yields t (generate o.dryRun (planClient o)) result t' →
    ∀ x, t'.file? x ≠ t.file? x → OfClient t' api c x
  /-- After a run that succeeds the listing of the directory finds the module. -/
  listed : api ≠ "" → ∀ t o report t', Prepares t o api c →
    Yields t (generate false (planClient o)) (.ok report) t' →
    ∃ files, Yields t' (clientFiles api).run (.ok files) t' ∧ join api c.fileName ∈ files

theorem staysIn_iff_isName : StaysIn api c ↔ IsName c.fileName := by
  constructor
  · intro h
    have hlast : Step.name c.fileName ∈ steps (join api c.fileName) := by
      rw [h.path]
      exact List.mem_append_right _ (List.mem_singleton_self _)
    exact isName_of_mem_steps hlast
  · intro hname
    refine ⟨steps_join_name hname, fun t o result t' hprepares h x hx => ?_,
      fun hapi t o report t' hprepares h => ?_⟩
    · exact ofClient_of_yields hname hprepares h hx
    · obtain ⟨m, hdelivered⟩ := exists_delivered_of_report hprepares h
      exact listed_of_delivered hname hapi hdelivered

/-- **When a client module stays in its directory**, whichever that is and wherever the module
imports from: if the last dotted segment of the id has no slash. -/
theorem staysIn_ofLexicon_iff {l : Lexicon} (h : Client.ofLexicon l = .ok c)
    (api sdkImport typesDir : String) :
    StaysIn api { c with sdkImport, typesDir } ↔ '/' ∉ Name.lastSegment l.id.toList := by
  obtain ⟨-, -, -, rfl⟩ := primary?_of_ofLexicon h
  exact staysIn_iff_isName.trans isName_clientFileOf_iff

theorem staysIn_eventRecord : ∃ l c, Lexicon.parse (recordText "com.example.event") = .ok l ∧
    Client.ofLexicon l = .ok c ∧ StaysIn "src/api" c := by
  obtain ⟨l, hparse, hclient, hid⟩ :=
    @exists_lexicon_of_recordId? (recordText "com.example.event") "com.example.event"
      (by decide +kernel)
  have hsegment : '/' ∉ Name.lastSegment l.id.toList := by
    rw [hid]
    decide
  exact ⟨l, _, hparse, hclient, (staysIn_ofLexicon_iff hclient "src/api" _ _).2 hsegment⟩

/-- With a slash in the last segment of the id the module goes to a directory of its own below that
of the client modules, and with a slash in front to the root. -/
theorem not_staysIn_slashedRecords :
    (∃ l c, Lexicon.parse (recordText "com.example.drafts/note") = .ok l ∧
      Client.ofLexicon l = .ok c ∧ ∀ n,
        steps (join "src/api" c.fileName) ≠ steps "src/api" ++ [.name n]) ∧
    ∃ l c, Lexicon.parse (recordText "com.example./note") = .ok l ∧
      Client.ofLexicon l = .ok c ∧ ∀ api,
        steps (join api c.fileName) = [.root, .name "note_client.ts"] := by
  constructor
  · obtain ⟨l, hparse, hclient, -⟩ :=
      @exists_lexicon_of_recordId? (recordText "com.example.drafts/note")
        "com.example.drafts/note" (by decide +kernel)
    refine ⟨l, _, hparse, hclient, fun n heq => ?_⟩
    have hsteps : steps (join "src/api" (clientFileOf "com.example.drafts/note")) =
        steps "src/api" ++ [.name "drafts", .name "note_client.ts"] := by decide +kernel
    cases List.append_cancel_left (hsteps.symm.trans heq)
  · obtain ⟨l, hparse, hclient, -⟩ :=
      @exists_lexicon_of_recordId? (recordText "com.example./note") "com.example./note"
        (by decide +kernel)
    refine ⟨l, _, hparse, hclient, fun api => ?_⟩
    have hfile : clientFileOf "com.example./note" = "/note_client.ts" := by decide +kernel
    show steps (join api (clientFileOf "com.example./note")) = _
    rw [hfile, join, if_pos (by decide)]
    decide

end Lexgen.Command
