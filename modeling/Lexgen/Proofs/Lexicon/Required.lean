/-
# What a lexicon requires

An object schema lists the names of the properties that must be present. Which properties are on the
list is all that it says: a tidy list has the names of the required properties, each where it stands
in the document, and no other name. Two lexicons make the same demands if they are the same once
their lists are tidied, so that they differ in repeated names, in the order of names and in names
that are no properties (`Schema.tidy_eq_tidy_iff`).

Key definitions: `requiredNames`, `Schema.tidy`, `tidy`, `SameDemands`.
Key theorems: `requiredNames_eq_iff`, `Schema.tidy_eq_tidy_iff`.
-/
import Lexgen.Proofs.Lexicon.Annotations

namespace Lexgen.Lexicon

/-! ### Tidying -/

/-- The names of properties that are listed, in the order of the document. -/
def requiredNames (required : List String) (ps : List (String × Schema)) : List String :=
  (ps.map Prod.fst).filter required.contains

namespace Schema

mutual

/-- A schema whose lists of required properties are tidy, at every level. -/
def tidy : Schema → Schema
  | ⟨f, ps, it⟩ => ⟨{ f with required := requiredNames f.required ps }, tidyAll ps, tidyItems it⟩

/-- The schema of the items with tidy lists. -/
def tidyItems : Option Schema → Option Schema
  | none => none
  | some s => some (tidy s)

/-- The schemas of properties with tidy lists. -/
def tidyAll : List (String × Schema) → List (String × Schema)
  | [] => []
  | (name, s) :: rest => (name, tidy s) :: tidyAll rest

end

end Schema

/-- A body with tidy lists. -/
def Body.tidy (b : Body) : Body := { b with schema := b.schema.map Schema.tidy }

/-- A message with tidy lists. -/
def Message.tidy (m : Message) : Message := { m with schema := m.schema.map Schema.tidy }

/-- A definition with tidy lists. -/
def Definition.tidy : Definition → Definition
  | record r => record { r with schema := r.schema.map Schema.tidy }
  | query q => query { q with
      parameters := q.parameters.map Schema.tidy
      output := q.output.map Body.tidy }
  | procedure p => procedure { p with
      parameters := p.parameters.map Schema.tidy
      input := p.input.map Body.tidy
      output := p.output.map Body.tidy }
  | subscription s => subscription { s with
      parameters := s.parameters.map Schema.tidy
      message := s.message.map Message.tidy }
  | schema s => schema s.tidy

/-- A lexicon with tidy lists of required properties. -/
def tidy (l : Lexicon) : Lexicon := { l with defs := l.defs.map Definition.tidy }

/-- Two lexicons that require the same properties of the same objects and differ in nothing else. -/
def SameDemands (l l' : Lexicon) : Prop := l.tidy = l'.tidy

/-! ### What a tidy list says -/

theorem mem_requiredNames {required : List String} {ps : List (String × Schema)}
    {e : String × Schema} (he : e ∈ ps) : e.1 ∈ requiredNames required ps ↔ e.1 ∈ required := by
  rw [requiredNames, List.mem_filter, List.contains_iff_mem]
  exact and_iff_right (List.mem_map_of_mem he)

/-- Tidying keeps which properties are listed, and nothing else. -/
theorem requiredNames_eq_iff {required required' : List String} {ps : List (String × Schema)} :
    requiredNames required ps = requiredNames required' ps ↔
      ∀ e ∈ ps, e.1 ∈ required ↔ e.1 ∈ required' := by
  constructor
  · intro h e he
    rw [← mem_requiredNames he, h, mem_requiredNames he]
  · intro h
    refine List.filter_congr fun name hname => ?_
    obtain ⟨e, he, rfl⟩ := List.mem_map.1 hname
    rw [Bool.eq_iff_iff, List.contains_iff_mem, List.contains_iff_mem]
    exact h e he

/-- Lists of required names of an object make the same demands exactly if the same properties are on
them. -/
theorem Schema.tidy_eq_tidy_iff {f : Facets} {required required' : List String}
    {ps : List (String × Schema)} {it : Option Schema} :
    tidy ⟨{ f with required := required }, ps, it⟩ =
        tidy ⟨{ f with required := required' }, ps, it⟩ ↔
      ∀ e ∈ ps, e.1 ∈ required ↔ e.1 ∈ required' := by
  rw [← requiredNames_eq_iff]
  simp [tidy]

/-! ### What stays -/

@[simp] theorem Schema.facets_tidy (s : Schema) :
    s.tidy.facets = { s.facets with required := requiredNames s.facets.required s.properties } :=
  match s with
  | ⟨_, _, _⟩ => by rw [tidy]; rfl

@[simp] theorem Schema.properties_tidy (s : Schema) : s.tidy.properties = tidyAll s.properties :=
  match s with
  | ⟨_, _, _⟩ => by rw [tidy]; rfl

@[simp] theorem Schema.description_tidy (s : Schema) : s.tidy.description = s.description := by
  simp [description]

@[simp] theorem Schema.reference?_tidy (s : Schema) : s.tidy.reference? = s.reference? := by
  simp [reference?]

@[simp] theorem Schema.isEmpty_tidyAll (ps : List (String × Schema)) :
    (tidyAll ps).isEmpty = ps.isEmpty := by
  cases ps <;> simp [tidyAll]

@[simp] theorem Schema.isShape_tidy (s : Schema) : s.tidy.isShape = s.isShape := by
  simp [isShape, isObject]

@[simp] theorem Schema.tidy_blank : blank.tidy = blank := by
  rw [blank, tidy]
  rfl

@[simp] theorem Definition.kind_tidy (d : Definition) : d.tidy.kind = d.kind := by
  cases d <;> rfl

end Lexgen.Lexicon
