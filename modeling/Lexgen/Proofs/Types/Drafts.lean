/-
# What the definitions of a lexicon declare

The drafts of a lexicon are one block for each definition, the primary definition's first and then
those of the others in the order of the document (`allDrafts_eq_ok_iff`); so each definition has a
block among them (`block_of_mem_entries`), and `Block` says what it is put together from. Which
names a block declares is known from the definition alone: `endings` lists what stands behind its
type name, and `names_of_draftsOf` says that the block declares just these, in this order. The
declarations of a lexicon succeed exactly if the drafts do, there are some, and no two have the same
name (`declarations_eq_ok_iff`).

Key definitions: `Blocks`, `Block`, `endings`, `declaredNames`.
Key theorems: `declarations_eq_ok_iff`, `allDrafts_eq_ok_iff`, `block_of_draftsOf`,
`names_of_draftsOf`, `names_allDrafts`.
-/
import Lexgen.Data.Steps
import Lexgen.Types.Module
import Mathlib.Data.List.Forall2

namespace Lexgen.Types

open Lexgen.Data Lexgen.Lexicon Lexgen.TypeScript

/-! ### Names that occur twice -/

theorem firstRepeatedFrom?_eq_none_iff : ∀ {seen names : List String},
    firstRepeatedFrom? seen names = none ↔ names.Nodup ∧ ∀ name ∈ names, name ∉ seen
  | _, [] => by simp [firstRepeatedFrom?]
  | seen, name :: rest => by
    unfold firstRepeatedFrom?
    split
    · next h =>
      have h : name ∈ seen := by simpa using h
      simp [h]
    · next h =>
      have h : name ∉ seen := by simpa using h
      rw [firstRepeatedFrom?_eq_none_iff, List.nodup_cons]
      simp only [List.mem_cons, not_or, forall_eq_or_imp]
      grind

@[simp] theorem firstRepeated?_eq_none_iff {names : List String} :
    firstRepeated? names = none ↔ names.Nodup := by
  rw [firstRepeated?, firstRepeatedFrom?_eq_none_iff]
  simp

/-- **When the declarations of a lexicon succeed**, and what they are then. -/
theorem declarations_eq_ok_iff {l : Lexicon} {ds : List Declaration} :
    declarations l = .ok ds ↔ ∃ drafts, allDrafts l = .ok drafts ∧
      (drafts.map Draft.name).Nodup ∧ drafts ≠ [] ∧ declare drafts = ds := by
  rw [declarations, bind_eq_ok_iff]
  refine exists_congr fun drafts => and_congr_right fun _ => ?_
  cases h : firstRepeated? (drafts.map Draft.name) with
  | some name =>
    have : ¬ (drafts.map Draft.name).Nodup := by
      rw [← firstRepeated?_eq_none_iff, h]
      simp
    simp [this]
  | none =>
    rw [firstRepeated?_eq_none_iff] at h
    cases drafts with
    | nil => simp
    | cons d rest => simp only [h, List.isEmpty_cons, true_and]; simp

@[simp] theorem Draft.name_write (n : Naming) (d : Draft) : (d.write n).name = d.name :=
  match d with
  | .interface .. => rfl
  | .alias .. => rfl

/-! ### Blocks -/

/-- Definitions beside their blocks. -/
abbrev Blocks (l : Lexicon) : List (String × Definition) → List (List Draft) → Prop :=
  List.Forall₂ fun e b => draftsOf l e.1 e.2 = .ok b

theorem blocks_eq_ok_iff {l : Lexicon} : ∀ {defs : List (String × Definition)}
    {drafts : List Draft}, blocks l defs = .ok drafts ↔
      ∃ bs, Blocks l defs bs ∧ bs.flatten = drafts
  | [], drafts => by
    simp only [blocks, Except.ok.injEq, List.forall₂_nil_left_iff, exists_eq_left,
      List.flatten_nil]
  | (name, d) :: rest, drafts => by
    rw [blocks, bind_eq_ok_iff]
    simp only [bind_eq_ok_iff, pure_eq_ok_iff, blocks_eq_ok_iff]
    constructor
    · rintro ⟨b, hb, others, ⟨bs, hbs, rfl⟩, rfl⟩
      exact ⟨b :: bs, .cons hb hbs, rfl⟩
    · rintro ⟨bs, hbs, rfl⟩
      obtain ⟨b, others, hb, hothers, rfl⟩ := List.forall₂_cons_left_iff.mp hbs
      exact ⟨b, hb, _, ⟨others, hothers, rfl⟩, rfl⟩

/-- The drafts of a lexicon are the blocks of its definitions, the primary one's first. -/
theorem allDrafts_eq_ok_iff {l : Lexicon} {drafts : List Draft} :
    allDrafts l = .ok drafts ↔ ∃ e, l.primary? = some e ∧
      ∃ bs, Blocks l (e :: l.supporting e.1) bs ∧ bs.flatten = drafts := by
  rw [allDrafts, bind_eq_ok_iff]
  refine exists_congr fun e => ?_
  rw [blocks_eq_ok_iff, Lexicon.primary]
  cases l.primary? with
  | none => simp
  | some p => simp

theorem mem_entries_of_primary? {l : Lexicon} {e : String × Definition} (h : l.primary? = some e) :
    e ∈ l.defs.entries := by
  unfold Lexicon.primary? at h
  split at h
  · next d hd =>
    cases h
    exact Ordered.get?_eq_some_iff.mp hd
  · obtain ⟨kind, -, hk⟩ := List.exists_of_findSome?_eq_some h
    exact List.mem_of_find?_eq_some hk

/-- The definitions that are emitted are those of the lexicon. -/
theorem mem_primary_supporting_iff {l : Lexicon} {e : String × Definition}
    (h : l.primary? = some e) {x : String × Definition} :
    x ∈ e :: l.supporting e.1 ↔ x ∈ l.defs.entries := by
  rw [List.mem_cons, Lexicon.supporting, List.mem_filter]
  constructor
  · rintro (rfl | ⟨hx, -⟩)
    · exact mem_entries_of_primary? h
    · exact hx
  · intro hx
    by_cases hname : x.1 = e.1
    · have hget := Ordered.get?_eq_some_iff.mpr (mem_entries_of_primary? h)
      have hget' := Ordered.get?_eq_some_iff.mpr hx
      rw [hname, hget] at hget'
      exact Or.inl (Prod.ext hname (Option.some.inj hget').symm)
    · exact Or.inr ⟨hx, by simpa using hname⟩

theorem exists_mem_of_forall₂ {α β : Type} {R : α → β → Prop} {a : α} :
    ∀ {as : List α} {bs : List β}, List.Forall₂ R as bs → a ∈ as → ∃ b ∈ bs, R a b
  | _, _, .cons hr hrest, ha => by
    rcases List.mem_cons.mp ha with rfl | ha
    · exact ⟨_, List.mem_cons_self, hr⟩
    · obtain ⟨b, hb, hab⟩ := exists_mem_of_forall₂ hrest ha
      exact ⟨b, List.mem_cons_of_mem _ hb, hab⟩

/-- Every definition has its block among the drafts. -/
theorem block_of_mem_entries {l : Lexicon} {drafts : List Draft} (h : allDrafts l = .ok drafts)
    {e : String × Definition} (he : e ∈ l.defs.entries) :
    ∃ block, draftsOf l e.1 e.2 = .ok block ∧ block <:+: drafts := by
  obtain ⟨p, hp, bs, hbs, rfl⟩ := allDrafts_eq_ok_iff.mp h
  obtain ⟨block, hblock, hok⟩ :=
    exists_mem_of_forall₂ hbs ((mem_primary_supporting_iff hp).mpr he)
  exact ⟨block, hok, List.infix_of_mem_flatten hblock⟩

/-- What the block of a definition is put together from. -/
inductive Block (l : Lexicon) (name : String) : Definition → List Draft → Prop where
  | record {r : Record} {d : Draft} : recordDraft l name r = .ok d → Block l name (.record r) [d]
  | query {q : Query} {params output : List Draft} :
    parameterDrafts l name q.parameters = .ok params → outputDrafts l name q.output = .ok output →
    Block l name (.query q) (params ++ output ++ errorDrafts l name q.errors)
  | procedure {p : Procedure} {params input output : List Draft} :
    parameterDrafts l name p.parameters = .ok params → inputDrafts l name p.input = .ok input →
    outputDrafts l name p.output = .ok output →
    Block l name (.procedure p) (params ++ input ++ output ++ errorDrafts l name p.errors)
  | subscription {s : Subscription} {params message : List Draft} :
    parameterDrafts l name s.parameters = .ok params →
    messageDrafts l name s.message = .ok message →
    Block l name (.subscription s) (params ++ message ++ errorDrafts l name s.errors)
  | schema {s : Schema} {d : Draft} : schemaDraft l name s = .ok d → Block l name (.schema s) [d]

theorem block_of_draftsOf {l : Lexicon} {name : String} {d : Definition} {block : List Draft}
    (h : draftsOf l name d = .ok block) : Block l name d block := by
  cases d with
  | record r =>
    obtain ⟨draft, hd, h⟩ := bind_eq_ok_iff.mp h
    exact pure_eq_ok_iff.mp h ▸ .record hd
  | query q =>
    obtain ⟨params, hp, h⟩ := bind_eq_ok_iff.mp h
    obtain ⟨output, ho, h⟩ := bind_eq_ok_iff.mp h
    exact pure_eq_ok_iff.mp h ▸ .query hp ho
  | procedure p =>
    obtain ⟨params, hp, h⟩ := bind_eq_ok_iff.mp h
    obtain ⟨input, hi, h⟩ := bind_eq_ok_iff.mp h
    obtain ⟨output, ho, h⟩ := bind_eq_ok_iff.mp h
    exact pure_eq_ok_iff.mp h ▸ .procedure hp hi ho
  | subscription s =>
    obtain ⟨params, hp, h⟩ := bind_eq_ok_iff.mp h
    obtain ⟨message, hm, h⟩ := bind_eq_ok_iff.mp h
    exact pure_eq_ok_iff.mp h ▸ .subscription hp hm
  | schema s =>
    obtain ⟨draft, hd, h⟩ := bind_eq_ok_iff.mp h
    exact pure_eq_ok_iff.mp h ▸ .schema hd

/-! ### The names of a block -/

/-- The ending of the parameters of an operation, if they are declared. -/
def parameterEndings : Option Schema → List String
  | none => []
  | some s => if s.properties.isEmpty then [] else ["Params"]

/-- The ending of a part of an operation, if it has a schema. -/
def partEndings (ending : String) (schema : Option Schema) : List String :=
  if schema.isSome then [ending] else []

/-- The ending of the errors of an operation, if there are any. -/
def errorEndings (errors : List NamedError) : List String :=
  if errors.isEmpty then [] else ["Error"]

/-- What stands behind the type name of a definition in the names that it declares. -/
def endings : Definition → List String
  | .record _ => [""]
  | .query q =>
    parameterEndings q.parameters ++ partEndings "Output" (q.output.bind (·.schema)) ++
      errorEndings q.errors
  | .procedure p =>
    parameterEndings p.parameters ++ partEndings "Input" (p.input.bind (·.schema)) ++
      partEndings "Output" (p.output.bind (·.schema)) ++ errorEndings p.errors
  | .subscription s =>
    parameterEndings s.parameters ++ partEndings "Message" (s.message.bind (·.schema)) ++
      errorEndings s.errors
  | .schema _ => [""]

section Names

variable {l : Lexicon} {name location : String}

theorem name_of_interfaceOf {doc discriminant : Option String} {s : Schema} {d : Draft}
    (h : interfaceOf l name location doc discriminant s = .ok d) : d.name = name := by
  obtain ⟨ps, -, rfl⟩ := map_eq_ok_iff.mp h
  rfl

theorem name_of_declareSchema {doc : Option String} {s : Schema} {d : Draft}
    (h : declareSchema l name location doc s = .ok d) : d.name = name := by
  unfold declareSchema at h
  split at h
  · exact name_of_interfaceOf h
  · obtain ⟨shape, -, rfl⟩ := map_eq_ok_iff.mp h
    rfl

theorem names_of_parameterDrafts {parameters : Option Schema} {block : List Draft}
    (h : parameterDrafts l name parameters = .ok block) :
    block.map Draft.name = (parameterEndings parameters).map (l.typeName name ++ ·) := by
  unfold parameterDrafts at h
  split at h
  · cases h
    rfl
  · next s =>
    split at h
    · next hp =>
      cases h
      simp [parameterEndings, hp]
    · next hp =>
      obtain ⟨d, hd, hb⟩ := bind_eq_ok_iff.mp h
      cases hb
      simp [parameterEndings, hp, name_of_interfaceOf hd]

theorem names_of_partDrafts {part : String} {description : Option String} {schema : Option Schema}
    {block : List Draft} (h : partDrafts l name part location description schema = .ok block) :
    block.map Draft.name = (partEndings part schema).map (l.typeName name ++ ·) := by
  unfold partDrafts at h
  split at h
  · cases h
    rfl
  · obtain ⟨d, hd, hb⟩ := bind_eq_ok_iff.mp h
    cases hb
    simp [partEndings, name_of_declareSchema hd]

theorem names_of_errorDrafts (errors : List NamedError) :
    (errorDrafts l name errors).map Draft.name =
      (errorEndings errors).map (l.typeName name ++ ·) := by
  unfold errorDrafts errorEndings
  split <;> rfl

theorem name_of_schemaDraft {s : Schema} {d : Draft} (h : schemaDraft l name s = .ok d) :
    d.name = l.typeName name := by
  unfold schemaDraft at h
  split at h
  · cases h
    rfl
  · exact name_of_declareSchema h

/-- **The names that a definition declares** are its type name with its endings, in order. -/
theorem names_of_draftsOf {d : Definition} {block : List Draft}
    (h : draftsOf l name d = .ok block) :
    block.map Draft.name = (endings d).map (l.typeName name ++ ·) := by
  cases block_of_draftsOf h with
  | record hd => simp [endings, name_of_interfaceOf hd]
  | query hp ho =>
    simp only [endings, List.map_append, names_of_parameterDrafts hp, names_of_partDrafts ho,
      names_of_errorDrafts]
  | procedure hp hi ho =>
    simp only [endings, List.map_append, names_of_parameterDrafts hp, names_of_partDrafts hi,
      names_of_partDrafts ho, names_of_errorDrafts]
  | subscription hp hm =>
    simp only [endings, List.map_append, names_of_parameterDrafts hp, names_of_partDrafts hm,
      names_of_errorDrafts]
  | schema hd => simp [endings, name_of_schemaDraft hd]

end Names

/-- The names that a definition declares. -/
def declaredNames (l : Lexicon) (e : String × Definition) : List String :=
  (endings e.2).map (l.typeName e.1 ++ ·)

theorem names_of_blocks {l : Lexicon} :
    ∀ {defs : List (String × Definition)} {bs : List (List Draft)}, Blocks l defs bs →
      bs.flatten.map Draft.name = defs.flatMap (declaredNames l)
  | _, _, .nil => rfl
  | _, _, .cons hok hrest => by
    rw [List.flatten_cons, List.map_append, List.flatMap_cons, names_of_draftsOf hok,
      names_of_blocks hrest, declaredNames]

/-- The drafts of a lexicon have the names that its definitions declare, in the order in which the
definitions are emitted. -/
theorem names_allDrafts {l : Lexicon} {drafts : List Draft} (h : allDrafts l = .ok drafts) :
    ∃ e, l.primary? = some e ∧
      drafts.map Draft.name = (e :: l.supporting e.1).flatMap (declaredNames l) := by
  obtain ⟨e, hprimary, bs, hbs, rfl⟩ := allDrafts_eq_ok_iff.mp h
  exact ⟨e, hprimary, names_of_blocks hbs⟩

/-- Operations declare names with endings only, all others their own name. -/
theorem empty_mem_endings_iff (d : Definition) : "" ∈ endings d ↔ d.isOperation = false := by
  cases d with
  | record r => simp [endings, Definition.isOperation, Definition.kind]
  | query q =>
    simp only [endings, parameterEndings, partEndings, errorEndings, Definition.isOperation,
      Definition.kind]
    grind
  | procedure p =>
    simp only [endings, parameterEndings, partEndings, errorEndings, Definition.isOperation,
      Definition.kind]
    grind
  | subscription s =>
    simp only [endings, parameterEndings, partEndings, errorEndings, Definition.isOperation,
      Definition.kind]
    grind
  | schema s => simp [endings, Definition.isOperation, Definition.kind]

/-! ### Small lexicons -/

/-- An object with properties of which none is required. -/
def objectSchema (properties : List (String × Schema)) : Schema :=
  ⟨{ keyword := some .object }, properties, none⟩

/-- A schema of texts. -/
def textSchema : Schema := ⟨{ keyword := some .string }, [], none⟩

/-- A schema of lists. -/
def listSchema (items : Schema) : Schema := ⟨{ keyword := some .array }, [], some items⟩

/-- A record with properties of which none is required. -/
def recordOf (properties : List (String × Schema)) : Definition :=
  .record { schema := some (objectSchema properties) }

/-- A lexicon of notes. -/
def noteLexicon (defs : List (String × Definition)) : Lexicon :=
  ⟨"com.example.note", none, .ofList defs⟩

end Lexgen.Types
