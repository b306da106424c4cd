/-
# The members of an interface have different keys

The members of an interface are the properties of one object schema, and no schema declares a
property twice, so no two members have the same key. Only the interface of a record has one member
more, its discriminant, which has the key `$type`; so its keys are different exactly if `$type` is
no property of the record (`nodup_keys_declarations`, and `nodup_keys_iff_of_parse` for all that is
read from a text). For this all that a definition declares has to be known: `mem_partsOf_cases`
tells the part of a record from all others.

Key definitions: `Part.Clean`, `DeclaresDiscriminant`, `IsRecordInterface`.
Key theorems: `mem_partsOf_cases`, `Part.Holds.distinct`, `nodup_keys_declarations`,
`nodup_keys_iff_of_parse`.
-/
import Lexgen.Proofs.Lexicon.Distinct
import Lexgen.Proofs.Types.Arrangement

namespace Lexgen.Types

open Lexgen.Lexicon Lexgen.TypeScript Lexgen.Data

/-! ### Parts and the discriminant -/

namespace Part

/-- The value of the discriminant that comes before the properties. -/
def discriminant? : Part → Option String
  | .interface _ _ _ discriminant _ => discriminant
  | .typed .. => none
  | .fixed .. => none

/-- The schema of the part declares no property twice. -/
def Distinct : Part → Prop
  | .interface _ _ _ _ s => s.Distinct
  | .typed _ _ _ s => s.Distinct
  | .fixed .. => True

/-- The properties are all that the part declares, and none of them twice. -/
def Clean (part : Part) : Prop := part.discriminant? = none ∧ part.Distinct

end Part

section Parts

variable {l : Lexicon} {name location : String} {part : Part}

theorem clean_schemaPart (doc : Option String) {s : Schema} (hs : s.Distinct) :
    (schemaPart name location doc s).Clean := by
  unfold schemaPart
  split
  · exact ⟨rfl, hs⟩
  · exact ⟨rfl, hs⟩

theorem clean_of_mem_parameterParts {parameters : Option Schema}
    (h : ∀ s ∈ parameters, s.Distinct) (hpart : part ∈ parameterParts l name parameters) :
    part.Clean := by
  cases parameters with
  | none => cases hpart
  | some s =>
    rw [parameterParts] at hpart
    split at hpart
    · cases hpart
    · rw [List.mem_singleton.mp hpart]
      exact ⟨rfl, h s rfl⟩

theorem clean_of_mem_bodyParts {ending : String} {description : Option String}
    {schema : Option Schema} (h : ∀ s ∈ schema, s.Distinct)
    (hpart : part ∈ bodyParts l name ending location description schema) : part.Clean := by
  cases schema with
  | none => cases hpart
  | some s =>
    rw [List.mem_singleton.mp hpart]
    exact clean_schemaPart _ (h s rfl)

theorem clean_of_mem_errorParts {errors : List NamedError}
    (hpart : part ∈ errorParts l name errors) : part.Clean := by
  rw [errorParts] at hpart
  split at hpart
  · cases hpart
  · rw [List.mem_singleton.mp hpart]
    exact ⟨rfl, trivial⟩

/-- **What a definition declares**: a record its interface with a discriminant, any other definition
parts that are clean. -/
theorem mem_partsOf_cases {d : Definition} (hd : d.Distinct) (hpart : part ∈ partsOf l name d) :
    (∃ r doc, d = .record r ∧ part = .interface (l.typeName name) name doc
      (some (qualifiedName l name)) (r.schema.getD Schema.blank)) ∨ part.Clean := by
  have hbody {b : Option Body} (hb : ∀ c ∈ b, c.Distinct) :
      ∀ s ∈ b.bind (·.schema), s.Distinct := by
    intro s hs
    obtain ⟨c, hc, hs⟩ := Option.bind_eq_some_iff.mp hs
    exact hb c hc s hs
  cases d with
  | record r => exact .inl ⟨r, _, rfl, List.mem_singleton.mp hpart⟩
  | query q =>
    rw [partsOf, List.mem_append, List.mem_append] at hpart
    rcases hpart with (hpart | hpart) | hpart
    · exact .inr (clean_of_mem_parameterParts hd.1 hpart)
    · exact .inr (clean_of_mem_bodyParts (hbody hd.2) hpart)
    · exact .inr (clean_of_mem_errorParts hpart)
  | procedure p =>
    rw [partsOf, List.mem_append, List.mem_append, List.mem_append] at hpart
    rcases hpart with ((hpart | hpart) | hpart) | hpart
    · exact .inr (clean_of_mem_parameterParts hd.1 hpart)
    · exact .inr (clean_of_mem_bodyParts (hbody hd.2.1) hpart)
    · exact .inr (clean_of_mem_bodyParts (hbody hd.2.2) hpart)
    · exact .inr (clean_of_mem_errorParts hpart)
  | subscription s =>
    rw [partsOf, List.mem_append, List.mem_append] at hpart
    rcases hpart with (hpart | hpart) | hpart
    · exact .inr (clean_of_mem_parameterParts hd.1 hpart)
    · refine .inr (clean_of_mem_bodyParts (fun t ht => ?_) hpart)
      obtain ⟨m, hm, ht⟩ := Option.bind_eq_some_iff.mp ht
      exact hd.2 m hm t ht
    · exact .inr (clean_of_mem_errorParts hpart)
  | schema s =>
    rw [partsOf] at hpart
    split at hpart
    · rw [List.mem_singleton.mp hpart]
      exact .inr ⟨rfl, trivial⟩
    · rw [List.mem_singleton.mp hpart]
      exact .inr (clean_schemaPart _ hd)

/-- A record without a schema has no properties. -/
theorem distinct_getD {r : Record} (hr : (Definition.record r).Distinct) :
    (r.schema.getD Schema.blank).Distinct := by
  cases hschema : r.schema with
  | none => exact Schema.distinct_blank
  | some s => exact hr s hschema

theorem distinct_of_mem_partsOf {d : Definition} (hd : d.Distinct)
    (hpart : part ∈ partsOf l name d) : part.Distinct := by
  rcases mem_partsOf_cases hd hpart with ⟨r, doc, rfl, rfl⟩ | hclean
  · exact distinct_getD hd
  · exact hclean.2

theorem mem_allParts_iff {e : String × Definition} (h : l.primary? = some e) :
    part ∈ allParts l ↔ ∃ d ∈ l.defs.entries, part ∈ partsOf l d.1 d.2 := by
  rw [allParts, h, Option.toList_some, List.flatMap_singleton, List.mem_flatMap]
  exact exists_congr fun d => and_congr_left fun _ => mem_primary_supporting_iff h

theorem exists_mem_of_mem_allParts (h : part ∈ allParts l) :
    ∃ d ∈ l.defs.entries, part ∈ partsOf l d.1 d.2 := by
  cases hprimary : l.primary? with
  | none =>
    rw [allParts, hprimary] at h
    cases h
  | some e => exact (mem_allParts_iff hprimary).mp h

end Parts

/-! ### Schemas that are met in a part -/

theorem Inside.distinct {outer inner : String} {s t : Schema} (h : Inside outer s inner t)
    (hs : s.Distinct) : t.Distinct := by
  induction h with
  | self => exact hs
  | items _ _ _ hitems ih =>
    exact Schema.itemsDistinct_iff.mp (Schema.distinct_iff.mp ih).2 _ hitems
  | property _ _ _ hp ih =>
    exact Schema.allDistinct_iff.mp (Schema.distinct_iff.mp ih).1.2 _ hp

theorem Part.Holds.distinct {part : Part} {location : String} {t : Schema}
    (h : part.Holds location t) (hpart : part.Distinct) : t.Distinct := by
  cases h with
  | property hp hinside =>
    exact hinside.distinct (Schema.allDistinct_iff.mp (Schema.distinct_iff.mp hpart).1.2 _ hp)
  | typed hinside => exact hinside.distinct hpart

/-! ### The members of interfaces -/

section Members

variable {l : Lexicon} {lifted : List (Schema × Interface)} {s : Schema} {ms : List Member}

/-- The members of a schema have the names of its properties. -/
theorem MembersOf.names_perm (h : MembersOf l lifted s ms) :
    (ms.map Member.name).Perm (s.properties.map Prod.fst) := by
  have hmarks := congrArg (List.map Prod.fst) h.marks
  rw [Types.marks, List.map_map, List.map_map] at hmarks
  have hnames : ms.map Member.name = s.arrangement.map Prod.fst := hmarks
  rw [hnames]
  exact s.arrangement_perm.map Prod.fst

theorem MembersOf.nodup_names (h : MembersOf l lifted s ms) (hs : s.Distinct) :
    (ms.map Member.name).Nodup :=
  h.names_perm.nodup_iff.mpr (Schema.distinct_iff.mp hs).1.1

/-- Behind a discriminant, no name is repeated exactly if the discriminant is no property. -/
theorem MembersOf.nodup_discriminant_iff (h : MembersOf l lifted s ms) (hs : s.Distinct)
    (value : String) : ((discriminantMember value :: ms).map Member.name).Nodup ↔
      discriminantName ∉ s.properties.map Prod.fst := by
  rw [List.map_cons, List.nodup_cons, h.names_perm.mem_iff]
  exact and_iff_left (h.nodup_names hs)

end Members

/-- The definition is a record with a property that has the name of the discriminant. -/
def DeclaresDiscriminant : Definition → Prop
  | .record r => ∃ s ∈ r.schema, discriminantName ∈ s.properties.map Prod.fst
  | _ => False

/-- The interface of a record: its discriminant, and the properties of its schema. -/
def IsRecordInterface (l : Lexicon) (lifted : List (Schema × Interface)) (name : String)
    (r : Record) (i : Interface) : Prop :=
  i.name = l.typeName name ∧ ∃ ms, i.members = discriminantMember (qualifiedName l name) :: ms ∧
    MembersOf l lifted (r.schema.getD Schema.blank) ms

theorem declaresDiscriminant_iff {r : Record} : DeclaresDiscriminant (.record r) ↔
    discriminantName ∈ (r.schema.getD Schema.blank).properties.map Prod.fst := by
  cases hschema : r.schema with
  | none => simp [DeclaresDiscriminant, hschema, Schema.blank, Schema.properties]
  | some s => simp [DeclaresDiscriminant, hschema]

section Interfaces

variable {l : Lexicon} {own : List Declaration} {lifted : List (Schema × Interface)}

theorem IsRecordInterface.nodup_iff {name : String} {r : Record} {i : Interface}
    (h : IsRecordInterface l lifted name r i) (hr : (Definition.record r).Distinct) :
    i.keys.Nodup ↔ ¬ DeclaresDiscriminant (.record r) := by
  obtain ⟨-, ms, hmembers, hms⟩ := h
  rw [nodup_keys_iff, hmembers, hms.nodup_discriminant_iff (distinct_getD hr),
    declaresDiscriminant_iff]

/-- Every record has its interface. -/
theorem Arranged.exists_recordInterface (h : Arranged l own lifted)
    {p : String × Definition} (hp : l.primary? = some p) {name : String} {r : Record}
    (he : (name, .record r) ∈ l.defs.entries) :
    ∃ i, .interface i ∈ own ∧ IsRecordInterface l lifted name r i := by
  have hpart := (mem_allParts_iff hp).mpr ⟨_, he, List.mem_singleton_self _⟩
  obtain ⟨d, hd, hrenders⟩ := exists_mem_of_forall₂ h.parts hpart
  cases hrenders with
  | interface hms => exact ⟨_, hd, rfl, _, rfl, hms⟩

/-- Every interface is that of a record, or has the properties of one schema and nothing else. -/
theorem Arranged.interface_cases (h : Arranged l own lifted) (hl : l.Distinct) {i : Interface}
    (hi : .interface i ∈ own ++ lifted.map fun e => Declaration.interface e.2) :
    (∃ name r, (name, .record r) ∈ l.defs.entries ∧ IsRecordInterface l lifted name r i) ∨
      ∃ s, s.Distinct ∧ MembersOf l lifted s i.members := by
  rcases List.mem_append.mp hi with hi | hi
  · obtain ⟨part, hpart, hrenders⟩ := exists_mem_of_forall₂ h.parts.flip hi
    obtain ⟨⟨name, d⟩, he, hpart⟩ := exists_mem_of_mem_allParts hpart
    rcases mem_partsOf_cases (hl _ he) hpart with ⟨r, doc, rfl, rfl⟩ | ⟨hnone, hdistinct⟩
    · cases hrenders with
      | interface hms => exact .inl ⟨name, r, he, rfl, _, rfl, hms⟩
    · cases hrenders with
      | interface hms =>
        cases hnone
        exact .inr ⟨_, hdistinct, hms⟩
  · obtain ⟨e, he, heq⟩ := List.mem_map.mp hi
    cases heq
    obtain ⟨-, part, hpart, location, hholds⟩ := h.met e he
    obtain ⟨d, hd, hpart⟩ := exists_mem_of_mem_allParts hpart
    exact .inr ⟨e.1, hholds.distinct (distinct_of_mem_partsOf (hl d hd) hpart), h.members e he⟩

end Interfaces

/-- The keys of an interface are different exactly if it is not that of a record which declares its
discriminant as a property. -/
theorem nodup_keys_iff_of_distinct {l : Lexicon} (hl : l.Distinct) {ds : List Declaration}
    (h : declarations l = .ok ds) {i : Interface} (hi : .interface i ∈ ds) :
    i.keys.Nodup ↔
      ¬ ∃ e ∈ l.defs.entries, l.typeName e.1 = i.name ∧ DeclaresDiscriminant e.2 := by
  obtain ⟨drafts, hdrafts, -, -, hds⟩ := declarations_eq_ok_iff.mp h
  obtain ⟨p, hp, -⟩ := allDrafts_eq_ok_iff.mp hdrafts
  obtain ⟨own, lifted, hdeclare, harranged⟩ := arranged_of_allDrafts hdrafts
  have hall : ds = own ++ lifted.map fun e => Declaration.interface e.2 := by
    rw [← hdeclare, hds]
  constructor
  · rintro hnodup ⟨⟨name, d⟩, he, hname, hdeclares⟩
    cases d with
    | record r =>
      obtain ⟨i', hi', hrecord⟩ := harranged.exists_recordInterface hp he
      have hmem : .interface i' ∈ ds := hall ▸ List.mem_append_left _ hi'
      -- Names of declarations are not repeated, so it is the interface of the record.
      have heq := eq_of_name_eq h hi hmem (hname.symm.trans hrecord.1.symm)
      cases heq
      exact (hrecord.nodup_iff (hl _ he)).mp hnodup hdeclares
    | query | procedure | subscription | schema => exact hdeclares
  · intro hnone
    rcases harranged.interface_cases hl (hall ▸ hi) with ⟨name, r, he, hrecord⟩ | ⟨s, hs, hms⟩
    · refine (hrecord.nodup_iff (hl _ he)).mpr fun hdeclares => hnone ?_
      exact ⟨_, he, hrecord.1.symm, hdeclares⟩
    · exact (nodup_keys_iff i).mpr (hms.nodup_names hs)

/-- **No interface declares a member twice**, unless it is that of a record which declares its
discriminant as a property. Each member stands on a line that starts with its key, and the key is
read as the name of the member. -/
theorem nodup_keys_declarations {l : Lexicon} (hl : l.Distinct) {ds : List Declaration}
    (h : declarations l = .ok ds) {i : Interface} (hi : .interface i ∈ ds) :
    List.Forall₂ StartsWithKey i.members i.memberLines ∧
    (i.keys.Nodup ↔
      ¬ ∃ e ∈ l.defs.entries, l.typeName e.1 = i.name ∧ DeclaresDiscriminant e.2) :=
  ⟨startsWithKey_memberLines i, nodup_keys_iff_of_distinct hl h hi⟩

/-- **For a lexicon that was read** nothing has to be known of its schemas: none of them declares a
property twice. -/
theorem nodup_keys_iff_of_parse {text : String} {l : Lexicon} (hl : parse text = .ok l)
    {ds : List Declaration} (h : declarations l = .ok ds) {i : Interface}
    (hi : .interface i ∈ ds) :
    i.keys.Nodup ↔
      ¬ ∃ e ∈ l.defs.entries, l.typeName e.1 = i.name ∧ DeclaresDiscriminant e.2 :=
  nodup_keys_iff_of_distinct (distinct_of_parse hl) h hi

/-- A note with texts under the given names. -/
def namedNotes (names : List String) : Lexicon :=
  noteLexicon [("main", recordOf (names.map fun name => (name, textSchema)))]

theorem distinct_namedNotes {names : List String} (h : names.Nodup) :
    (namedNotes names).Distinct := by
  intro e he
  rw [List.mem_singleton.mp he]
  intro s hs
  cases hs
  refine Schema.distinct_iff.mpr ⟨⟨?_, Schema.allDistinct_iff.mpr fun p hp => ?_⟩, trivial⟩
  · have hnames :
        (objectSchema (names.map fun name => (name, textSchema))).properties.map Prod.fst =
          names := by
      rw [objectSchema, Schema.properties, List.map_map]
      exact List.map_id names
    rw [hnames]
    exact h
  · obtain ⟨name, -, rfl⟩ := List.mem_map.mp hp
    exact ⟨List.nodup_nil, trivial, trivial⟩

/-- What `namedNotes` declares for a text and a key that has to be quoted. -/
def quotedNote : Interface := ⟨"Note", none, [⟨"$type", "'com.example.note'", none, false⟩,
  ⟨"text", "string", none, true⟩, ⟨"it's", "string", none, true⟩]⟩

theorem nodup_keys_quotedNote :
    declarations (namedNotes ["text", "it's"]) = .ok [.interface quotedNote] ∧
    quotedNote.keys = ["$type", "text", "'it\\'s'"] ∧ quotedNote.keys.Nodup := by
  have hdeclared : declarations (namedNotes ["text", "it's"]) = .ok [.interface quotedNote] := by
    rfl
  have hdistinct := distinct_namedNotes (show ["text", "it's"].Nodup by decide)
  have hkeys := (nodup_keys_declarations hdistinct hdeclared (List.mem_singleton_self _)).2
  refine ⟨hdeclared, by decide, hkeys.mpr ?_⟩
  rintro ⟨e, he, -, hdeclares⟩
  rw [List.mem_singleton.mp he] at hdeclares
  obtain ⟨s, hs, hmem⟩ := hdeclares
  cases hs
  exact absurd hmem (by decide)

/-- A record that declares its discriminant as a property has it twice. -/
theorem repeated_key_typedNote : ∃ i, (namedNotes ["$type", "text"]).Distinct ∧
    declarations (namedNotes ["$type", "text"]) = .ok [.interface i] ∧
    i.keys = ["$type", "$type", "text"] ∧ ¬ i.keys.Nodup := by
  refine ⟨⟨"Note", none, [⟨"$type", "'com.example.note'", none, false⟩,
    ⟨"$type", "string", none, true⟩, ⟨"text", "string", none, true⟩]⟩,
    distinct_namedNotes (by decide), by rfl, by decide, by decide⟩

end Lexgen.Types
