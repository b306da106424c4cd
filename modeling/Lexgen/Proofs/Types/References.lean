/-
# References and what they stand for

A reference is met at a location; `mentions` lists those of a schema in the order in which they are
resolved, and `definitionMentions` those of a definition. `ResolvesTo` ties them to the texts of the
shapes made of the schema: each reference stands for one of the texts, and a text that no reference
stands for is of a basic type. One lemma for nothing and one for two parts make up the proof for
schemas (`resolvesTo_resolve`), and hence for the drafts of a definition (`resolvesTo_draftsOf`).

A local reference stands for the type name of a definition that exists. Whether that definition
declares the name depends on its kind: operations declare names with endings only
(`typeName_mem_declaredNames_iff`).

Key definitions: `Mention`, `mentions`, `definitionMentions`, `ResolvesTo`, `contribution`, `Lands`.
Key theorems: `resolvesTo_resolve`, `resolvesTo_draftsOf`, `contribution_of_mem`,
`typeName_mem_declaredNames_iff`, `references_declarations`.
-/
import Lexgen.Proofs.Types.Names

namespace Lexgen.Types

open Lexgen.Data Lexgen.Lexicon Lexgen.TypeScript

/-! ### References in schemas and definitions -/

/-- A reference with the location at which it is met. -/
structure Mention where
  reference : String
  location : String
deriving DecidableEq, Repr

/-- The type that a mentioned reference stands for. -/
def Mention.resolve (l : Lexicon) (m : Mention) : Except Error String :=
  resolveRef l m.reference m.location

mutual

/-- The references in a schema that was met at a location, in the order in which they are
resolved. -/
def mentions (location : String) : Schema → List Mention
  | ⟨f, ps, it⟩ =>
    match f.dollarRef <|> f.ref with
    | some reference => [⟨reference, location⟩]
    | none =>
      match f.keyword with
      | some .array => itemMentions (location ++ "[]") it
      | some .union => f.refs.map (⟨·, location⟩)
      | _ => if (Schema.mk f ps it).isShape then propertyMentions location ps else []

/-- The references in the items of an array. -/
def itemMentions (location : String) : Option Schema → List Mention
  | none => []
  | some s => mentions location s

/-- The references in the properties of an object. -/
def propertyMentions (location : String) : List (String × Schema) → List Mention
  | [] => []
  | (name, s) :: rest => mentions (location ++ "." ++ name) s ++ propertyMentions location rest

end

/-- The references in the parameters of an operation. -/
def parameterMentions (name : String) : Option Schema → List Mention
  | none => []
  | some s => propertyMentions (name ++ ".parameters") s.properties

/-- The references in a part of an operation. -/
def partMentions (name location : String) (schema : Option Schema) : List Mention :=
  itemMentions (name ++ "." ++ location) schema

/-- The references in a definition, in the order in which they are resolved. -/
def definitionMentions (name : String) : Definition → List Mention
  | .record r => propertyMentions name (r.schema.getD Schema.blank).properties
  | .query q =>
    parameterMentions name q.parameters ++
      partMentions name "output" (q.output.bind (·.schema))
  | .procedure p =>
    parameterMentions name p.parameters ++
      partMentions name "input" (p.input.bind (·.schema)) ++
      partMentions name "output" (p.output.bind (·.schema))
  | .subscription s =>
    parameterMentions name s.parameters ++
      partMentions name "message" (s.message.bind (·.schema))
  | .schema s => if s.facets.keyword = some .token then [] else mentions name s

/-! ### The texts of shapes -/

mutual

/-- The texts that a shape is put together from. -/
def Shape.texts : Shape → List String
  | .text type => [type]
  | .union types => types
  | .array item => texts item
  | .object _ properties => textsOf properties

/-- The texts that the types of properties are put together from. -/
def Shape.textsOf : List (Property × Shape) → List String
  | [] => []
  | (_, s) :: rest => texts s ++ textsOf rest

end

/-- The texts that the types of a draft are put together from. -/
def Draft.texts : Draft → List String
  | .interface _ _ _ properties => Shape.textsOf properties
  | .alias _ _ shape => shape.texts

/-- The types that are written without a reference. -/
inductive BasicType : String → Prop where
  | any : BasicType anyType
  | leaf (f : Facets) : BasicType (leafType f)
  | literal (s : String) : BasicType (stringLiteral s)
  | literals (ss : List String) : BasicType (Union.ofStrings ss).text

/-- Each of the references stands for one of the texts, and a text that none of them stands for is
of a basic type. -/
structure ResolvesTo (l : Lexicon) (ms : List Mention) (texts : List String) : Prop where
  stands : ∀ m ∈ ms, ∃ t ∈ texts, m.resolve l = .ok t
  basic_or_stands : ∀ t ∈ texts, BasicType t ∨ ∃ m ∈ ms, m.resolve l = .ok t

namespace ResolvesTo

variable {l : Lexicon}

/-- Texts of basic types without references. -/
theorem basic {texts : List String} (h : ∀ t ∈ texts, BasicType t) : ResolvesTo l [] texts where
  stands := by simp
  basic_or_stands := fun t ht => Or.inl (h t ht)

theorem append {ms ns : List Mention} {ts us : List String} (h : ResolvesTo l ms ts)
    (h' : ResolvesTo l ns us) : ResolvesTo l (ms ++ ns) (ts ++ us) where
  stands := by
    intro m hm
    rcases List.mem_append.mp hm with hm | hm
    · obtain ⟨t, ht, hok⟩ := h.stands m hm
      exact ⟨t, List.mem_append_left _ ht, hok⟩
    · obtain ⟨t, ht, hok⟩ := h'.stands m hm
      exact ⟨t, List.mem_append_right _ ht, hok⟩
  basic_or_stands := by
    intro t ht
    rcases List.mem_append.mp ht with ht | ht
    · refine (h.basic_or_stands t ht).imp_right ?_
      rintro ⟨m, hm, hok⟩
      exact ⟨m, List.mem_append_left _ hm, hok⟩
    · refine (h'.basic_or_stands t ht).imp_right ?_
      rintro ⟨m, hm, hok⟩
      exact ⟨m, List.mem_append_right _ hm, hok⟩

/-- One reference. -/
theorem single {m : Mention} {t : String} (h : m.resolve l = .ok t) : ResolvesTo l [m] [t] where
  stands := by simpa using h
  basic_or_stands := by simpa using Or.inr h

end ResolvesTo

/-! ### Resolving schemas -/

section Schemas

variable {l : Lexicon}

theorem resolvesTo_resolveRefs {location : String} : ∀ {refs : List String} {types : List String},
    resolveRefs l location refs = .ok types → ResolvesTo l (refs.map (⟨·, location⟩)) types
  | [], types, h => by
    cases h
    exact .basic (by simp)
  | reference :: rest, types, h => by
    obtain ⟨type, htype, h⟩ := bind_eq_ok_iff.mp h
    obtain ⟨others, hothers, h⟩ := bind_eq_ok_iff.mp h
    have hstands : Mention.resolve l ⟨reference, location⟩ = .ok type := htype
    rw [← pure_eq_ok_iff.mp h]
    exact (ResolvesTo.single hstands).append (resolvesTo_resolveRefs hothers)

mutual

/-- **The references in a schema** stand for the texts of its shape. -/
theorem resolvesTo_resolve : ∀ {location : String} {s : Schema} {shape : Shape},
    resolve l location s = .ok shape → ResolvesTo l (mentions location s) shape.texts
  | location, ⟨f, ps, it⟩, shape, h => by
    unfold resolve at h
    split at h
    · next reference href =>
      obtain ⟨type, htype, rfl⟩ := map_eq_ok_iff.mp h
      have hstands : Mention.resolve l ⟨reference, location⟩ = .ok type := htype
      simp only [mentions, href, Shape.texts]
      exact .single hstands
    · next href =>
      split at h
      · next hkeyword =>
        obtain ⟨item, hitem, rfl⟩ := map_eq_ok_iff.mp h
        simp only [mentions, href, hkeyword, Shape.texts]
        exact resolvesTo_resolveItems hitem
      · next hkeyword =>
        obtain ⟨types, htypes, rfl⟩ := map_eq_ok_iff.mp h
        simp only [mentions, href, hkeyword, Shape.texts]
        exact resolvesTo_resolveRefs htypes
      · next harray hunion =>
        split at h
        · next hshape =>
          obtain ⟨properties, hproperties, rfl⟩ := map_eq_ok_iff.mp h
          simp only [mentions, href, hshape, if_true, Shape.texts]
          exact resolvesTo_resolveProperties hproperties
        · next hshape =>
          cases h
          simp only [mentions, href, hshape, Shape.texts]
          exact .basic (by simpa using BasicType.leaf f)

theorem resolvesTo_resolveItems : ∀ {location : String} {it : Option Schema} {shape : Shape},
    resolveItems l location it = .ok shape → ResolvesTo l (itemMentions location it) shape.texts
  | location, none, shape, h => by
    cases h
    rw [itemMentions, Shape.texts]
    exact .basic (by simpa using BasicType.any)
  | location, some s, shape, h => by
    rw [resolveItems] at h
    rw [itemMentions]
    exact resolvesTo_resolve h

theorem resolvesTo_resolveProperties : ∀ {location : String} {required : List String}
    {ps : List (String × Schema)} {properties : List (Property × Shape)},
    resolveProperties l location required ps = .ok properties →
      ResolvesTo l (propertyMentions location ps) (Shape.textsOf properties)
  | location, required, [], properties, h => by
    rw [resolveProperties] at h
    cases h
    rw [propertyMentions, Shape.textsOf]
    exact .basic (by simp)
  | location, required, (name, s) :: rest, properties, h => by
    rw [resolveProperties] at h
    obtain ⟨shape, hshape, h⟩ := bind_eq_ok_iff.mp h
    obtain ⟨others, hothers, h⟩ := bind_eq_ok_iff.mp h
    rw [← pure_eq_ok_iff.mp h, propertyMentions, Shape.textsOf]
    exact .append (resolvesTo_resolve hshape) (resolvesTo_resolveProperties hothers)

end

/-! ### The drafts of a definition -/

theorem mentions_of_isShape {location : String} {s : Schema} (hshape : s.isShape = true)
    (href : s.reference?.isNone = true) :
    mentions location s = propertyMentions location s.properties := by
  obtain ⟨f, ps, it⟩ := s
  have hnone : (f.dollarRef <|> f.ref) = none := by
    simpa [Schema.reference?, Schema.facets] using href
  have hkeyword : f.keyword = none ∨ f.keyword = some .object ∨ f.keyword = some .params := by
    simp only [Schema.isShape, Schema.isObject, Bool.and_eq_true, Bool.or_eq_true,
      Option.isNone_iff_eq_none, beq_iff_eq] at hshape
    exact hshape.2
  rcases hkeyword with hkeyword | hkeyword | hkeyword
  all_goals simp only [mentions, hnone, hkeyword, hshape, if_true, Schema.properties]

variable {name location : String}

theorem resolvesTo_interfaceOf {doc discriminant : Option String} {s : Schema} {d : Draft}
    (h : interfaceOf l name location doc discriminant s = .ok d) :
    ResolvesTo l (propertyMentions location s.properties) d.texts := by
  obtain ⟨properties, hproperties, rfl⟩ := map_eq_ok_iff.mp h
  exact resolvesTo_resolveProperties hproperties

theorem resolvesTo_declareSchema {doc : Option String} {s : Schema} {d : Draft}
    (h : declareSchema l name location doc s = .ok d) :
    ResolvesTo l (mentions location s) d.texts := by
  unfold declareSchema at h
  split at h
  · next hshape =>
    rw [Bool.and_eq_true] at hshape
    rw [mentions_of_isShape hshape.1 hshape.2]
    exact resolvesTo_interfaceOf h
  · obtain ⟨shape, hshape, rfl⟩ := map_eq_ok_iff.mp h
    exact resolvesTo_resolve hshape

theorem resolvesTo_parameterDrafts {parameters : Option Schema} {block : List Draft}
    (h : parameterDrafts l name parameters = .ok block) :
    ResolvesTo l (parameterMentions name parameters) (block.flatMap Draft.texts) := by
  unfold parameterDrafts at h
  split at h
  · cases h
    exact .basic (by simp)
  · next s =>
    split at h
    · next hempty =>
      cases h
      rw [parameterMentions, List.isEmpty_iff.mp hempty]
      exact .basic (by simp)
    · next hp =>
      obtain ⟨d, hd, hb⟩ := bind_eq_ok_iff.mp h
      rw [← pure_eq_ok_iff.mp hb, List.flatMap_singleton]
      exact resolvesTo_interfaceOf hd

theorem resolvesTo_partDrafts {part : String} {description : Option String}
    {schema : Option Schema} {block : List Draft}
    (h : partDrafts l name part location description schema = .ok block) :
    ResolvesTo l (partMentions name location schema) (block.flatMap Draft.texts) := by
  unfold partDrafts at h
  split at h
  · cases h
    exact .basic (by simp)
  · obtain ⟨d, hd, hb⟩ := bind_eq_ok_iff.mp h
    rw [← pure_eq_ok_iff.mp hb, List.flatMap_singleton]
    exact resolvesTo_declareSchema hd

theorem resolvesTo_errorDrafts (name : String) (errors : List NamedError) :
    ResolvesTo l [] ((errorDrafts l name errors).flatMap Draft.texts) := by
  unfold errorDrafts
  split
  · exact .basic (by simp)
  · exact .basic (by simpa [Draft.texts, Shape.texts] using BasicType.literals _)

theorem resolvesTo_schemaDraft {s : Schema} {d : Draft} (h : schemaDraft l name s = .ok d) :
    ResolvesTo l (definitionMentions name (.schema s)) d.texts := by
  unfold schemaDraft at h
  rw [definitionMentions]
  split at h
  · next htoken =>
    cases h
    rw [if_pos htoken]
    exact .basic (by simpa [Draft.texts, Shape.texts] using BasicType.literal _)
  · next htoken =>
    rw [if_neg htoken]
    exact resolvesTo_declareSchema h

/-- **The references in a definition** stand for the texts of its drafts. -/
theorem resolvesTo_draftsOf {d : Definition} {block : List Draft}
    (h : draftsOf l name d = .ok block) :
    ResolvesTo l (definitionMentions name d) (block.flatMap Draft.texts) := by
  cases block_of_draftsOf h with
  | record hd =>
    rw [List.flatMap_singleton]
    exact resolvesTo_interfaceOf hd
  | @query q _ _ hp ho =>
    have hall := ((resolvesTo_parameterDrafts hp).append (resolvesTo_partDrafts ho)).append
      (resolvesTo_errorDrafts name q.errors)
    rwa [List.append_nil, ← List.flatMap_append, ← List.flatMap_append] at hall
  | @procedure p _ _ _ hp hi ho =>
    have hall := (((resolvesTo_parameterDrafts hp).append (resolvesTo_partDrafts hi)).append
      (resolvesTo_partDrafts ho)).append (resolvesTo_errorDrafts name p.errors)
    rwa [List.append_nil, ← List.flatMap_append, ← List.flatMap_append, ← List.flatMap_append]
      at hall
  | @subscription s _ _ hp hm =>
    have hall := ((resolvesTo_parameterDrafts hp).append (resolvesTo_partDrafts hm)).append
      (resolvesTo_errorDrafts name s.errors)
    rwa [List.append_nil, ← List.flatMap_append, ← List.flatMap_append] at hall
  | schema hd =>
    rw [List.flatMap_singleton]
    exact resolvesTo_schemaDraft hd

end Schemas

/-! ### What definitions contribute -/

/-- The declarations that a definition contributes to the module of its lexicon. -/
def contribution (l : Lexicon) (e : String × Definition) : Except Error (List Declaration) := do
  let drafts ← allDrafts l
  let block ← draftsOf l e.1 e.2
  return block.map (Draft.write (Naming.ofDrafts drafts))

section Contributions

variable {l : Lexicon} {ds : List Declaration}

/-- Each definition contributes a stretch of the module, with the names that it declares. -/
theorem contribution_of_mem (h : declarations l = .ok ds) {e : String × Definition}
    (he : e ∈ l.defs.entries) : ∃ block c, draftsOf l e.1 e.2 = .ok block ∧
      contribution l e = .ok c ∧ c <:+: ds ∧ c.map Declaration.name = declaredNames l e := by
  obtain ⟨drafts, hdrafts, -, -, rfl⟩ := declarations_eq_ok_iff.mp h
  obtain ⟨block, hblock, hpart⟩ := block_of_mem_entries hdrafts he
  refine ⟨block, block.map (Draft.write (Naming.ofDrafts drafts)), hblock, ?_, ?_, ?_⟩
  · rw [contribution, hdrafts, hblock]
    rfl
  · exact (hpart.map _).trans (List.infix_append [] _ _)
  · have hnames : Declaration.name ∘ Draft.write (Naming.ofDrafts drafts) = Draft.name :=
      funext fun d => d.name_write _
    rw [List.map_map, hnames, names_of_draftsOf hblock, declaredNames]

/-- A definition declares its type name unless it is an operation. -/
theorem typeName_mem_declaredNames_iff {name : String} {d : Definition} :
    l.typeName name ∈ declaredNames l (name, d) ↔ d.isOperation = false := by
  rw [← empty_mem_endings_iff, declaredNames, List.mem_map]
  constructor
  · rintro ⟨ending, hending, heq⟩
    have hlength : (l.typeName name ++ ending).length = (l.typeName name).length :=
      congrArg String.length heq
    rw [String.length_append] at hlength
    have hempty : ending = "" := String.length_eq_zero_iff.mp (by omega)
    exact hempty ▸ hending
  · exact fun hempty => ⟨"", hempty, String.append_empty⟩

/-- Declarations of a module with the same name are the same. -/
theorem eq_of_name_eq (h : declarations l = .ok ds) {d d' : Declaration} (hd : d ∈ ds)
    (hd' : d' ∈ ds) (hname : d.name = d'.name) : d = d' := by
  obtain ⟨drafts, -, hnodup, -, rfl⟩ := declarations_eq_ok_iff.mp h
  exact List.inj_on_of_nodup_map (names_declare_nodup hnodup) hd hd' hname

/-- A local reference stands for the type name of a definition that exists. -/
theorem resolve_local {m : Mention} {t : String} (h : m.resolve l = .ok t)
    (hlocal : (Target.ofReference m.reference).isLocal l = true) :
    ∃ target, l.get? (Target.ofReference m.reference).definition = some target ∧
      t = l.typeName (Target.ofReference m.reference).definition := by
  simp only [Mention.resolve, resolveRef, hlocal, Bool.not_true, Bool.false_eq_true, if_false] at h
  split at h
  · cases h
  · next hsome =>
    obtain ⟨target, htarget⟩ := Option.ne_none_iff_exists'.mp (by simpa using hsome)
    exact ⟨target, htarget, (Except.ok.inj h).symm⟩

/-- Where a local reference lands: it stands for the type name of a definition that exists. That
definition itself declares the name exactly if it is not an operation, and then nothing else in the
module has the name. -/
structure Lands (l : Lexicon) (ds : List Declaration) (m : Mention)
    (target : String × Definition) (c : List Declaration) : Prop where
  named : (Target.ofReference m.reference).definition = target.1
  found : l.get? target.1 = some target.2
  stands : m.resolve l = .ok (l.typeName target.1)
  contributes : contribution l target = .ok c
  within : c <:+: ds
  declared_iff : l.typeName target.1 ∈ c.map Declaration.name ↔ target.2.isOperation = false
  nowhere_else : target.2.isOperation = false → ∀ d ∈ ds, d.name = l.typeName target.1 → d ∈ c

theorem lands_of_resolve (h : declarations l = .ok ds) {m : Mention} {t : String}
    (hok : m.resolve l = .ok t) (hlocal : (Target.ofReference m.reference).isLocal l = true) :
    ∃ target c, t = l.typeName target.1 ∧ Lands l ds m target c := by
  obtain ⟨target, hget, rfl⟩ := resolve_local hok hlocal
  generalize hname : (Target.ofReference m.reference).definition = name at hget hok
  obtain ⟨-, c, -, hc, hpart, hnames⟩ := contribution_of_mem h (Ordered.get?_eq_some_iff.mp hget)
  have hiff : l.typeName name ∈ c.map Declaration.name ↔ target.isOperation = false := by
    rw [hnames]
    exact typeName_mem_declaredNames_iff
  refine ⟨(name, target), c, rfl, hname, hget, hok, hc, hpart, hiff, fun hkind d hd hdname => ?_⟩
  obtain ⟨d', hd', hdname'⟩ := List.mem_map.mp (hiff.mpr hkind)
  rw [eq_of_name_eq h hd (hpart.subset hd') (hdname.trans hdname'.symm)]
  exact hd'

/-- **Where local references land.** The types of a definition are put together from basic types and
what its references stand for, and each of its local references lands on a definition, which
declares the name unless it is an operation. -/
theorem references_declarations (h : declarations l = .ok ds) {e : String × Definition}
    (he : e ∈ l.defs.entries) :
    ∃ block, draftsOf l e.1 e.2 = .ok block ∧
      (∀ t ∈ block.flatMap Draft.texts,
        BasicType t ∨ ∃ m ∈ definitionMentions e.1 e.2, m.resolve l = .ok t) ∧
      ∀ m ∈ definitionMentions e.1 e.2, (Target.ofReference m.reference).isLocal l = true →
        ∃ target c, l.typeName target.1 ∈ block.flatMap Draft.texts ∧ Lands l ds m target c := by
  obtain ⟨block, -, hblock, -⟩ := contribution_of_mem h he
  have hresolves := resolvesTo_draftsOf hblock
  refine ⟨block, hblock, hresolves.basic_or_stands, fun m hm hlocal => ?_⟩
  obtain ⟨t, ht, hok⟩ := hresolves.stands m hm
  obtain ⟨target, c, rfl, hlands⟩ := lands_of_resolve h hok hlocal
  exact ⟨target, c, ht, hlands⟩

end Contributions

/-- A note that refers to a person, and to an operation. -/
def linkedNote : Definition :=
  recordOf [("owner", ⟨{ dollarRef := some "#person" }, [], none⟩),
    ("found", ⟨{ dollarRef := some "#lookup" }, [], none⟩)]

/-- A lexicon of notes with what they refer to. -/
def linkedNotes : Lexicon :=
  noteLexicon [("main", linkedNote),
    ("person", .schema (objectSchema [("called", textSchema)])),
    ("lookup", .query { output := some { schema := some textSchema } })]

/-- What `linkedNotes` declares. -/
def linkedNotesModule : List Declaration := [
  .interface ⟨"Note", none, [⟨"$type", "'com.example.note'", none, false⟩,
    ⟨"owner", "Person", none, true⟩, ⟨"found", "Lookup", none, true⟩]⟩,
  .interface ⟨"Person", none, [⟨"called", "string", none, true⟩]⟩,
  .alias ⟨"LookupOutput", "string", none⟩]

theorem lands_linkedNotes : declarations linkedNotes = .ok linkedNotesModule ∧
    ("main", linkedNote) ∈ linkedNotes.defs.entries ∧
    ⟨"#person", "main.owner"⟩ ∈ definitionMentions "main" linkedNote ∧
    ∃ target c, target.1 = "person" ∧
      Lands linkedNotes linkedNotesModule ⟨"#person", "main.owner"⟩ target c := by
  have h : declarations linkedNotes = .ok linkedNotesModule := by rfl
  have hmain : ("main", linkedNote) ∈ linkedNotes.defs.entries := List.mem_cons_self
  obtain ⟨_, -, -, hlands⟩ := references_declarations h hmain
  have hmention : ⟨"#person", "main.owner"⟩ ∈ definitionMentions "main" linkedNote := by decide
  obtain ⟨target, c, -, hland⟩ := hlands _ hmention (by decide)
  exact ⟨h, hmain, hmention, target, c, hland.named.symm.trans (by decide), hland⟩

/-- A reference to an operation stands for a name that nothing in the module declares. -/
theorem not_declared_linkedNotes : declarations linkedNotes = .ok linkedNotesModule ∧
    ⟨"#lookup", "main.found"⟩ ∈ linkedNotes.defs.entries.flatMap
      (fun e => definitionMentions e.1 e.2) ∧
    (Target.ofReference "#lookup").isLocal linkedNotes = true ∧
    Mention.resolve linkedNotes ⟨"#lookup", "main.found"⟩ = .ok "Lookup" ∧
    "Lookup" ∉ linkedNotesModule.map Declaration.name :=
  ⟨by rfl, by decide, by decide, by rfl, by decide⟩

end Lexgen.Types
