/-
# The annotations of a lexicon

Descriptions document a lexicon, and other annotations only bound or illustrate its values: formats,
the bounds of lengths and numbers, defaults, known values, the keys of records and the encodings of
bodies. Stripping leaves all of them out; it may keep the descriptions. No definition is lost or
moved by it. Wherever every definition is changed and keeps its kind, the lexicon has the changed
definition under each name (`get?_of_map`), the same primary one (`primary_of_map`) and the same
others (`supporting_of_map`).

Key definitions: `keepIf`, `Schema.strip`, `Definition.strip`, `Lexicon.strip`, `SameStructure`,
`SameDescriptions`.
Key theorems: `get?_of_map`, `primary_of_map`, `supporting_of_map`.
-/
import Lexgen.Lexicon.Basic

namespace Lexgen.Data

variable {α β : Type}

/-- The entries with their values changed. -/
def Ordered.map (f : α → β) (t : Ordered α) : Ordered β where
  entries := t.entries.map fun e => (e.1, f e.2)
  nodup := by
    rw [List.map_map]
    exact t.nodup

theorem lookup_map (f : α → β) (name : String) : ∀ es : List (String × α),
    (es.map fun e => (e.1, f e.2)).lookup name = (es.lookup name).map f
  | [] => rfl
  | (k, v) :: es => by
    rw [List.map_cons, lookup_cons_ite, lookup_cons_ite, lookup_map f name es]
    split <;> rfl

end Lexgen.Data

namespace Lexgen.Lexicon

open Lexgen.Data

/-! ### Stripping -/

/-- A description, if descriptions are kept. -/
def keepIf (docs : Bool) (description : Option String) : Option String :=
  if docs then description else none

@[simp] theorem keepIf_none (docs : Bool) : keepIf docs none = none := by cases docs <;> rfl

@[simp] theorem keepIf_orElse (docs : Bool) (d e : Option String) :
    keepIf docs (d <|> e) = (keepIf docs d <|> keepIf docs e) := by
  cases docs <;> rfl

/-- Facets without annotations. -/
def Facets.strip (docs : Bool) (f : Facets) : Facets :=
  { f with
    description := keepIf docs f.description
    knownValues := []
    format := none
    minLength := none
    maxLength := none
    minGraphemes := none
    maxGraphemes := none
    minimum := none
    maximum := none
    fallback := none }

section Facets

variable (docs : Bool) (f : Facets)

@[simp] theorem Facets.keyword_strip : (f.strip docs).keyword = f.keyword := rfl

@[simp] theorem Facets.required_strip : (f.strip docs).required = f.required := rfl

@[simp] theorem Facets.ref_strip : (f.strip docs).ref = f.ref := rfl

@[simp] theorem Facets.dollarRef_strip : (f.strip docs).dollarRef = f.dollarRef := rfl

@[simp] theorem Facets.refs_strip : (f.strip docs).refs = f.refs := rfl

@[simp] theorem Facets.description_strip :
    (f.strip docs).description = keepIf docs f.description := rfl

end Facets

namespace Schema

mutual

/-- A schema without annotations, at every level. -/
@[simp] def strip (docs : Bool) : Schema → Schema
  | ⟨f, ps, it⟩ => ⟨f.strip docs, stripAll docs ps, stripItems docs it⟩

/-- The schema of the items without annotations. -/
@[simp] def stripItems (docs : Bool) : Option Schema → Option Schema
  | none => none
  | some s => some (strip docs s)

/-- The schemas of properties without annotations. -/
@[simp] def stripAll (docs : Bool) : List (String × Schema) → List (String × Schema)
  | [] => []
  | (name, s) :: rest => (name, strip docs s) :: stripAll docs rest

end

end Schema

/-- A body without annotations. -/
def Body.strip (docs : Bool) (b : Body) : Body where
  description := keepIf docs b.description
  schema := b.schema.map (Schema.strip docs)

/-- A message without annotations. -/
def Message.strip (docs : Bool) (m : Message) : Message where
  description := keepIf docs m.description
  schema := m.schema.map (Schema.strip docs)

/-- An error without annotations. -/
def NamedError.strip (docs : Bool) (e : NamedError) : NamedError where
  name := e.name
  description := keepIf docs e.description

/-- A definition without annotations. -/
def Definition.strip (docs : Bool) : Definition → Definition
  | record r => record {
      description := keepIf docs r.description
      schema := r.schema.map (Schema.strip docs) }
  | query q => query {
      description := keepIf docs q.description
      parameters := q.parameters.map (Schema.strip docs)
      output := q.output.map (Body.strip docs)
      errors := q.errors.map (NamedError.strip docs) }
  | procedure p => procedure {
      description := keepIf docs p.description
      parameters := p.parameters.map (Schema.strip docs)
      input := p.input.map (Body.strip docs)
      output := p.output.map (Body.strip docs)
      errors := p.errors.map (NamedError.strip docs) }
  | subscription s => subscription {
      description := keepIf docs s.description
      parameters := s.parameters.map (Schema.strip docs)
      message := s.message.map (Message.strip docs)
      errors := s.errors.map (NamedError.strip docs) }
  | schema s => schema (s.strip docs)

/-- A lexicon without annotations; its descriptions are kept if `docs` says so. -/
def strip (docs : Bool) (l : Lexicon) : Lexicon where
  id := l.id
  description := keepIf docs l.description
  defs := l.defs.map (Definition.strip docs)

/-- Two lexicons that differ in annotations only. -/
def SameStructure (l l' : Lexicon) : Prop := l.strip false = l'.strip false

/-- Two lexicons that differ in annotations only, and in no description. -/
def SameDescriptions (l l' : Lexicon) : Prop := l.strip true = l'.strip true

/-! ### What stays -/

@[simp] theorem Schema.facets_strip (docs : Bool) (s : Schema) :
    (s.strip docs).facets = s.facets.strip docs :=
  match s with
  | ⟨_, _, _⟩ => by simp [facets]

@[simp] theorem Schema.description_strip (docs : Bool) (s : Schema) :
    (s.strip docs).description = keepIf docs s.description :=
  congrArg Facets.description (facets_strip docs s)

@[simp] theorem Schema.properties_strip (docs : Bool) (s : Schema) :
    (s.strip docs).properties = stripAll docs s.properties :=
  match s with
  | ⟨_, _, _⟩ => by simp [properties]

@[simp] theorem Schema.strip_blank (docs : Bool) : blank.strip docs = blank := by
  cases docs <;> rw [blank, strip] <;> rfl

@[simp] theorem Schema.isEmpty_stripAll (docs : Bool) (ps : List (String × Schema)) :
    (stripAll docs ps).isEmpty = ps.isEmpty := by
  cases ps <;> simp

@[simp] theorem Schema.isShape_strip (docs : Bool) (s : Schema) :
    (s.strip docs).isShape = s.isShape := by
  simp [isShape, isObject]

@[simp] theorem Schema.reference?_strip (docs : Bool) (s : Schema) :
    (s.strip docs).reference? = s.reference? := by
  simp [reference?]

@[simp] theorem Definition.kind_strip (docs : Bool) (d : Definition) :
    (d.strip docs).kind = d.kind := by
  cases d <;> rfl

/-! ### Changing every definition -/

section Map

variable {l l' : Lexicon} {f : Definition → Definition}

theorem get?_of_map (hdefs : l'.defs = l.defs.map f) (name : String) :
    l'.get? name = (l.get? name).map f := by
  rw [get?, hdefs]
  exact lookup_map f name l.defs.entries

/-- If every definition keeps its kind, the primary definition stays the primary one. -/
theorem primary_of_map (hid : l'.id = l.id) (hdefs : l'.defs = l.defs.map f)
    (hkind : ∀ d, (f d).kind = d.kind) :
    l'.primary = (fun e => (e.1, f e.2)) <$> l.primary := by
  have hfind (k : Kind) : l'.defs.entries.find? (fun e => e.2.kind == k) =
      (l.defs.entries.find? fun e => e.2.kind == k).map fun e => (e.1, f e.2) := by
    rw [hdefs]
    show (l.defs.entries.map fun e => (e.1, f e.2)).find? _ = _
    rw [List.find?_map]
    simp only [Function.comp_def, hkind]
  have hprimary : l'.primary? = l.primary?.map fun e => (e.1, f e.2) := by
    rw [primary?, primary?, get?_of_map hdefs]
    cases l.get? mainName with
    | some d => rfl
    | none =>
      simp only [Option.map_none, hfind, List.map_findSome?]
      rfl
  rw [primary, primary, hprimary, hid]
  cases l.primary? <;> rfl

theorem supporting_of_map (hdefs : l'.defs = l.defs.map f) (name : String) :
    l'.supporting name = (l.supporting name).map fun e => (e.1, f e.2) := by
  rw [supporting, hdefs]
  show (l.defs.entries.map fun e => (e.1, f e.2)).filter _ = _
  rw [List.filter_map]
  rfl

end Map

end Lexgen.Lexicon
