/-
# No property is declared twice

A reader puts each property under its name, at the place of its first mention, so a schema that is
read declares no property twice, at any level. `Gives` says of a computation that may fail what all
its results have in common; the readers of schemas are followed with it as they call one another
(`gives_readSchema`), and a structure is followed field by field (`Layout.gives_read`). Hence no
lexicon that is read declares a property twice (`distinct_of_parse`).

Key definitions: `Definition.Distinct`, `Lexicon.Distinct`.
Key theorems: `gives_readSchema`, `Definition.gives_classify`, `distinct_of_parse`.
-/
import Lexgen.Lexicon.Basic
import Lexgen.Proofs.Data.Gives

namespace Lexgen.Lexicon

open Lexgen.Json Lexgen.Data

/-! ### Schemas -/

namespace Schema

/-- No name stands twice among the properties, and none in any of their schemas. -/
def DistinctProperties (ps : List (String × Schema)) : Prop :=
  (ps.map Prod.fst).Nodup ∧ AllDistinct ps

theorem allDistinct_iff : ∀ {ps : List (String × Schema)},
    AllDistinct ps ↔ ∀ e ∈ ps, e.2.Distinct
  | [] => by simp [AllDistinct]
  | (name, s) :: rest => by
    rw [AllDistinct, List.forall_mem_cons, allDistinct_iff]

theorem itemsDistinct_iff {it : Option Schema} : ItemsDistinct it ↔ ∀ s ∈ it, s.Distinct := by
  cases it <;> simp [ItemsDistinct]

theorem distinct_iff {s : Schema} :
    s.Distinct ↔ DistinctProperties s.properties ∧ ItemsDistinct s.items := by
  obtain ⟨f, ps, it⟩ := s
  rw [Distinct, DistinctProperties, and_assoc]
  rfl

theorem distinct_blank : blank.Distinct := by
  simp [blank, Distinct, AllDistinct, ItemsDistinct]

theorem Distinct.withFacets {s : Schema} (h : s.Distinct) (f : Facets) :
    (s.withFacets f).Distinct := by
  obtain ⟨_, ps, it⟩ := s
  exact h

theorem Distinct.withProperties {s : Schema} (h : s.Distinct) {ps : List (String × Schema)}
    (hps : DistinctProperties ps) : (s.withProperties ps).Distinct := by
  obtain ⟨f, _, it⟩ := s
  exact ⟨hps.1, hps.2, h.2.2⟩

theorem Distinct.withItems {s : Schema} (h : s.Distinct) {it : Option Schema}
    (hit : ItemsDistinct it) : (s.withItems it).Distinct := by
  obtain ⟨f, ps, _⟩ := s
  exact ⟨h.1, h.2.1, hit⟩

theorem distinctProperties_nil : DistinctProperties [] := ⟨List.nodup_nil, trivial⟩

/-- One more property, which takes the place of an earlier one with its name. -/
theorem DistinctProperties.putEntry {ps : List (String × Schema)} (h : DistinctProperties ps)
    (name : String) {s : Schema} (hs : s.Distinct) :
    DistinctProperties (putEntry name s ps) := by
  refine ⟨names_putEntry_nodup name s ps h.1, allDistinct_iff.mpr fun e he => ?_⟩
  have hfound := lookup_eq_some_of_mem (names_putEntry_nodup name s ps h.1) he
  rw [lookup_putEntry] at hfound
  split at hfound
  · exact Option.some.inj hfound ▸ hs
  · exact allDistinct_iff.mp h.2 _ (mem_of_lookup_eq_some hfound)

end Schema

/-! ### Reading schemas -/

theorem gives_readPlain {s : Schema} (hs : s.Distinct) (name : String) (v : Value) :
    Gives Schema.Distinct (readPlain s name v) := by
  unfold readPlain
  split
  · split
    · exact .ok (hs.withProperties Schema.distinctProperties_nil)
    · exact .error
  · split
    · split
      · exact .ok (hs.withItems trivial)
      · exact .error
    · exact .andThen fun f => .ok (hs.withFacets f)

mutual

/-- **A schema that is read declares no property twice**, at any level. -/
theorem gives_readSchema : ∀ v : Value, Gives Schema.Distinct (readSchema v)
  | .object members => by
    rw [readSchema]
    exact gives_readSchemaMembers Schema.distinct_blank members
  | .array items => by
    rw [readSchema]
    exact gives_readSchemaElements _ _ Schema.distinct_blank schemaSlots items
  | .null | .bool _ | .number _ | .string _ => by
    simp only [readSchema]
    exact .error

/-- One more field keeps it so. -/
theorem gives_readSchemaField {s : Schema} (hs : s.Distinct) (name : String) :
    ∀ v : Value, Gives Schema.Distinct (readSchemaField s name v)
  | .object members => by
    rw [readSchemaField]
    split
    · have hread := gives_readProperties Schema.distinctProperties_nil members
      exact hread.bind fun ps hps => .ok (hs.withProperties hps)
    · split
      · have hread := gives_readSchemaMembers Schema.distinct_blank members
        exact hread.bind fun item hitem => .ok (hs.withItems hitem)
      · exact .andThen fun f => .ok (hs.withFacets f)
  | .array items => by
    rw [readSchemaField]
    split
    · have hread := gives_readSchemaElements items.length 0 Schema.distinct_blank schemaSlots items
      exact hread.bind fun item hitem => .ok (hs.withItems hitem)
    · exact gives_readPlain hs name _
  | .null | .bool _ | .number _ | .string _ => by
    simp only [readSchemaField]
    exact gives_readPlain hs name _

theorem gives_readSchemaMembers {s : Schema} (hs : s.Distinct) :
    ∀ members : List (String × Value), Gives Schema.Distinct (readSchemaMembers s members)
  | [] => by
    rw [readSchemaMembers]
    exact .ok hs
  | (name, v) :: rest => by
    rw [readSchemaMembers]
    exact (gives_readSchemaField hs name v).bind fun s hs => gives_readSchemaMembers hs rest

theorem gives_readSchemaElements (total i : Nat) {s : Schema} (hs : s.Distinct)
    (slots : List FieldSlot) :
    ∀ vs : List Value, Gives Schema.Distinct (readSchemaElements total i s slots vs)
  | [] => by
    rw [readSchemaElements]
    split
    · exact .error
    · exact .ok hs
  | v :: vs => by
    cases slots with
    | nil =>
      rw [readSchemaElements]
      exact .error
    | cons slot slots =>
      rw [readSchemaElements]
      exact (gives_readSchemaField hs slot.name v).bind fun s hs =>
        gives_readSchemaElements total (i + 1) hs slots vs

/-- Each property is put under its name, so that no name stands twice. -/
theorem gives_readProperties {ps : List (String × Schema)} (hps : Schema.DistinctProperties ps) :
    ∀ members : List (String × Value),
      Gives Schema.DistinctProperties (readProperties ps members)
  | [] => by
    rw [readProperties]
    exact .ok hps
  | (name, .null) :: rest => by
    rw [readProperties]
    exact gives_readProperties (hps.putEntry name Schema.distinct_blank) rest
  | (name, .bool _) :: rest | (name, .number _) :: rest | (name, .string _) :: rest
  | (name, .array _) :: rest | (name, .object _) :: rest => by
    simp only [readProperties]
    exact (gives_readSchema _).bind fun s hs => gives_readProperties (hps.putEntry name hs) rest

end

/-! ### Reading structures -/

theorem gives_readOptional {α : Type} {p : α → Prop} {read : Value → Except Mismatch α}
    (h : ∀ v, Gives p (read v)) (v : Value) :
    Gives (fun o => ∀ a ∈ o, p a) (readOptional read v) := by
  unfold readOptional
  split
  · exact .ok fun a ha => by cases ha
  · refine (h v).map fun a ha b hb => ?_
    rw [Option.mem_some_iff] at hb
    exact hb ▸ ha

/-- An optional schema that is read declares no property twice. -/
theorem gives_readOptional_readSchema (v : Value) :
    Gives (fun o => ∀ s ∈ o, s.Distinct) (readOptional readSchema v) :=
  gives_readOptional gives_readSchema v

section Layouts

variable {α : Type} {p : α → Prop} {l : Layout α}
  (hfield : ∀ a name v, p a → Gives p (l.readField a name v))

include hfield

theorem Layout.gives_readPositions {total : Nat} : ∀ {i : Nat} {a : α} (slots : List FieldSlot)
    (vs : List Value), p a → Gives p (l.readPositions total i a slots vs)
  | i, a, slots, [], ha => by
    unfold readPositions
    split
    · exact .error
    · exact .ok ha
  | i, a, [], v :: vs, _ => by
    unfold readPositions
    exact .error
  | i, a, slot :: slots, v :: vs, ha => by
    unfold readPositions
    exact (hfield a slot.name v ha).bind fun b hb => gives_readPositions slots vs hb

/-- What holds at the start and is kept by each field holds of the structure that is read. -/
theorem Layout.gives_read (hstart : p l.start) (v : Value) : Gives p (l.read v) := by
  unfold read
  split
  · exact Gives.foldlM (fun a m ha => hfield a m.1 m.2 ha) _ hstart
  · exact gives_readPositions hfield _ _ hstart
  · exact .error

end Layouts

/-! ### Definitions -/

/-- The schema of the body declares no property twice. -/
def Body.Distinct (b : Body) : Prop := ∀ s ∈ b.schema, s.Distinct

/-- The schema of the message declares no property twice. -/
def Message.Distinct (m : Message) : Prop := ∀ s ∈ m.schema, s.Distinct

/-- No schema of the definition declares a property twice. -/
def Definition.Distinct : Definition → Prop
  | record r => ∀ s ∈ r.schema, s.Distinct
  | query q => (∀ s ∈ q.parameters, s.Distinct) ∧ ∀ b ∈ q.output, b.Distinct
  | procedure p => (∀ s ∈ p.parameters, s.Distinct) ∧ (∀ b ∈ p.input, b.Distinct) ∧
      ∀ b ∈ p.output, b.Distinct
  | subscription s => (∀ t ∈ s.parameters, t.Distinct) ∧ ∀ m ∈ s.message, m.Distinct
  | schema s => s.Distinct

/-- No schema of the lexicon declares a property twice. -/
def Distinct (l : Lexicon) : Prop := ∀ e ∈ l.defs.entries, e.2.Distinct

theorem gives_readBody (v : Value) : Gives Body.Distinct (bodyLayout.read v) := by
  refine Layout.gives_read (fun b name v hb => ?_) (fun s hs => by cases hs) v
  simp only [bodyLayout]
  split
  · exact .andThen fun _ => .ok hb
  · exact .andThen fun _ => .ok hb
  · exact (gives_readOptional_readSchema v).bind fun _ hschema => .ok hschema
  · exact .ok hb

theorem gives_readMessage (v : Value) : Gives Message.Distinct (messageLayout.read v) := by
  refine Layout.gives_read (fun m name v hm => ?_) (fun s hs => by cases hs) v
  simp only [messageLayout]
  split
  · exact .andThen fun _ => .ok hm
  · exact (gives_readOptional_readSchema v).bind fun _ hschema => .ok hschema
  · exact .ok hm

namespace Definition

theorem gives_readRecordField {r : Record} (hr : (record r).Distinct) (name : String) (v : Value) :
    Gives (fun r => (record r).Distinct) (readRecordField r name v) := by
  unfold readRecordField
  split
  · exact .andThen fun _ => .ok hr
  · exact .andThen fun _ => .ok hr
  · exact (gives_readOptional_readSchema v).bind fun _ hschema => .ok hschema
  · exact .ok hr

theorem gives_readQueryField {q : Query} (hq : (query q).Distinct) (name : String) (v : Value) :
    Gives (fun q => (query q).Distinct) (readQueryField q name v) := by
  unfold readQueryField
  split
  · exact .andThen fun _ => .ok hq
  · exact (gives_readOptional_readSchema v).bind fun _ hschema => .ok ⟨hschema, hq.2⟩
  · exact (gives_readOptional gives_readBody v).bind fun _ hbody => .ok ⟨hq.1, hbody⟩
  · exact .andThen fun _ => .ok hq
  · exact .ok hq

theorem gives_readProcedureField {p : Procedure} (hp : (procedure p).Distinct) (name : String)
    (v : Value) : Gives (fun p => (procedure p).Distinct) (readProcedureField p name v) := by
  unfold readProcedureField
  split
  · exact .andThen fun _ => .ok hp
  · exact (gives_readOptional_readSchema v).bind fun _ hschema => .ok ⟨hschema, hp.2⟩
  · exact (gives_readOptional gives_readBody v).bind fun _ hbody => .ok ⟨hp.1, hbody, hp.2.2⟩
  · exact (gives_readOptional gives_readBody v).bind fun _ hbody => .ok ⟨hp.1, hp.2.1, hbody⟩
  · exact .andThen fun _ => .ok hp
  · exact .ok hp

theorem gives_readSubscriptionField {s : Subscription} (hs : (subscription s).Distinct)
    (name : String) (v : Value) :
    Gives (fun s => (subscription s).Distinct) (readSubscriptionField s name v) := by
  unfold readSubscriptionField
  split
  · exact .andThen fun _ => .ok hs
  · exact (gives_readOptional_readSchema v).bind fun _ hschema => .ok ⟨hschema, hs.2⟩
  · exact (gives_readOptional gives_readMessage v).bind fun _ hmessage => .ok ⟨hs.1, hmessage⟩
  · exact .andThen fun _ => .ok hs
  · exact .ok hs

theorem gives_ofMembers (type : String) (members : List (String × Value)) :
    Gives Definition.Distinct (ofMembers type members) := by
  have hnone {α : Type} {p : α → Prop} : ∀ a ∈ (none : Option α), p a := fun a ha => by cases ha
  unfold ofMembers
  split
  · have hread : Gives (fun r => (record r).Distinct)
        (members.foldlM (fun r m => readRecordField r m.1 m.2) {}) :=
      Gives.foldlM (fun _ m h => gives_readRecordField h m.1 m.2) members hnone
    exact hread.map fun _ h => h
  · have hread : Gives (fun q => (query q).Distinct)
        (members.foldlM (fun q m => readQueryField q m.1 m.2) {}) :=
      Gives.foldlM (fun _ m h => gives_readQueryField h m.1 m.2) members ⟨hnone, hnone⟩
    exact hread.map fun _ h => h
  · have hread : Gives (fun p => (procedure p).Distinct)
        (members.foldlM (fun p m => readProcedureField p m.1 m.2) {}) :=
      Gives.foldlM (fun _ m h => gives_readProcedureField h m.1 m.2) members ⟨hnone, hnone, hnone⟩
    exact hread.map fun _ h => h
  · have hread : Gives (fun s => (subscription s).Distinct)
        (members.foldlM (fun s m => readSubscriptionField s m.1 m.2) {}) :=
      Gives.foldlM (fun _ m h => gives_readSubscriptionField h m.1 m.2) members ⟨hnone, hnone⟩
    exact hread.map fun _ h => h
  · exact (gives_readSchemaMembers Schema.distinct_blank members).map fun _ h => h

theorem gives_classify (v : Value) : Gives Definition.Distinct (classify v) := by
  unfold classify
  split
  · split
    · exact .error
    · exact (gives_ofMembers _ _).mapError
  · exact .error

end Definition

/-! ### Lexicons -/

theorem gives_classifyAll (source : String) : ∀ raw : List (String × Value),
    Gives (fun defs => ∀ e ∈ defs, Definition.Distinct e.2) (classifyAll source raw)
  | [] => by
    unfold classifyAll
    exact .ok fun e he => by cases he
  | (name, v) :: rest => by
    unfold classifyAll
    split
    · exact .error
    · next d hd =>
      refine (gives_classifyAll source rest).bind fun defs hdefs => .ok ?_
      exact List.forall_mem_cons.mpr ⟨Definition.gives_classify v d hd, hdefs⟩

theorem gives_ofDocument (doc : Document) : Gives Lexicon.Distinct (ofDocument doc) := by
  unfold ofDocument
  split
  · exact .error
  · next defs hdefs => exact .ok (gives_classifyAll _ _ defs hdefs)

/-- **No lexicon that is read declares a property twice.** -/
theorem distinct_of_parse {text : String} {l : Lexicon} (h : parse text = .ok l) : l.Distinct :=
  have hparse : Gives Lexicon.Distinct (parse text) := .andThen gives_ofDocument
  hparse l h

end Lexgen.Lexicon
