/-
# Only the required properties count

A list of required names is read in one way only: to ask for each property whether it is on the
list. So the shape of a schema whose lists are tidied is the shape of the schema itself
(`resolve_tidy`), and the drafts of a lexicon are the same (`allDrafts_tidy`). Everything else is
made from the drafts, so two lexicons with the same demands have the same declarations and the same
module, or fail with the same error.

Key definitions: `Part.tidy`.
Key theorems: `resolve_tidy`, `allDrafts_tidy`, `declarations_eq_of_sameDemands`.
-/
import Lexgen.Proofs.Lexicon.Required
import Lexgen.Proofs.Types.Annotations

namespace Lexgen.Types

open Lexgen.Lexicon Lexgen.TypeScript

/-! ### Resolving -/

section Resolving

variable (l : Lexicon)

@[simp] theorem resolveRef_tidy (reference location : String) :
    resolveRef l.tidy reference location = resolveRef l reference location := by
  rw [resolveRef, resolveRef, get?_of_map rfl, Option.isNone_map]
  rfl

@[simp] theorem resolveRefs_tidy (location : String) : ∀ references : List String,
    resolveRefs l.tidy location references = resolveRefs l location references
  | [] => rfl
  | reference :: rest => by
    simp [resolveRefs, resolveRefs_tidy location rest]

mutual

/-- **A schema and the schema with tidy lists have the same shape**, or the same error. -/
theorem resolve_tidy (location : String) : ∀ s : Schema,
    resolve l.tidy location s.tidy = resolve l location s
  | ⟨f, ps, it⟩ => by
    have hshape := Schema.isShape_tidy ⟨f, ps, it⟩
    have hlisted : ∀ e ∈ ps, e.1 ∈ requiredNames f.required ps ↔ e.1 ∈ f.required :=
      fun e he => mem_requiredNames he
    have hprops := resolveProperties_tidy location hlisted
    have hitems := resolveItems_tidy (location ++ "[]") it
    rw [Schema.tidy] at hshape ⊢
    rw [resolve, resolve, hshape, hprops, hitems]
    simp only [resolveRef_tidy, resolveRefs_tidy]
    rfl

theorem resolveItems_tidy (location : String) : ∀ it : Option Schema,
    resolveItems l.tidy location (Schema.tidyItems it) = resolveItems l location it
  | none => by simp [Schema.tidyItems, resolveItems]
  | some s => by simp [Schema.tidyItems, resolveItems, resolve_tidy location s]

/-- Of the names of required properties it counts only whether the name of each property is one. -/
theorem resolveProperties_tidy (location : String) {required required' : List String} :
    ∀ {ps : List (String × Schema)}, (∀ e ∈ ps, e.1 ∈ required' ↔ e.1 ∈ required) →
      resolveProperties l.tidy location required' (Schema.tidyAll ps) =
        resolveProperties l location required ps
  | [], _ => by rw [Schema.tidyAll, resolveProperties, resolveProperties]
  | (name, s) :: rest, h => by
    have hlisted : name ∈ required' ↔ name ∈ required := h (name, s) (List.mem_cons_self ..)
    have hproperty : propertyOf required' name s.tidy = propertyOf required name s := by
      simp [propertyOf, hlisted]
    have hrest := resolveProperties_tidy location fun e he => h e (List.mem_cons_of_mem _ he)
    rw [Schema.tidyAll, resolveProperties, resolveProperties, resolve_tidy _ s, hrest, hproperty]

end

end Resolving

/-! ### Drafts -/

/-- A part of a lexicon with tidy lists. -/
def Part.tidy : Part → Part
  | .interface name location doc discriminant s => .interface name location doc discriminant s.tidy
  | .typed name location doc s => .typed name location doc s.tidy
  | .fixed name doc type => .fixed name doc type

section Parts

variable (l : Lexicon) (name : String)

theorem schemaPart_tidy (location : String) (doc : Option String) (s : Schema) :
    schemaPart name location doc s.tidy = (schemaPart name location doc s).tidy := by
  simp only [schemaPart, Schema.isShape_tidy, Schema.reference?_tidy]
  split <;> rfl

theorem parameterParts_tidy (parameters : Option Schema) :
    parameterParts l.tidy name (parameters.map Schema.tidy) =
      (parameterParts l name parameters).map Part.tidy := by
  cases parameters with
  | none => rfl
  | some s =>
    simp only [Option.map_some, parameterParts, Schema.properties_tidy, Schema.isEmpty_tidyAll,
      Schema.description_tidy]
    split <;> rfl

theorem bodyParts_tidy (part location : String) (description : Option String)
    (schema : Option Schema) :
    bodyParts l.tidy name part location description (schema.map Schema.tidy) =
      (bodyParts l name part location description schema).map Part.tidy := by
  cases schema with
  | none => rfl
  | some s =>
    rw [Option.map_some, bodyParts, bodyParts, Schema.description_tidy, schemaPart_tidy]
    rfl

theorem errorParts_tidy (errors : List NamedError) :
    errorParts l.tidy name errors = (errorParts l name errors).map Part.tidy := by
  rw [errorParts, errorParts]
  split <;> rfl

/-- The parts of a definition with tidy lists are its parts with tidy lists. -/
theorem partsOf_tidy (d : Definition) :
    partsOf l.tidy name d.tidy = (partsOf l name d).map Part.tidy := by
  have hbody (b : Option Body) :
      (b.map Body.tidy).bind (·.schema) = (b.bind (·.schema)).map Schema.tidy := by
    cases b <;> rfl
  have hbodydoc (b : Option Body) :
      (b.map Body.tidy).bind (·.description) = b.bind (·.description) := by
    cases b <;> rfl
  cases d with
  | record r =>
    have hdoc : (r.schema.map Schema.tidy).bind (·.description) =
        r.schema.bind (·.description) := by
      cases r.schema with
      | none => rfl
      | some s => exact Schema.description_tidy s
    have hschema : (r.schema.map Schema.tidy).getD Schema.blank =
        (r.schema.getD Schema.blank).tidy := by
      cases r.schema with
      | none => exact Schema.tidy_blank.symm
      | some s => rfl
    simp only [Definition.tidy, partsOf, hdoc, hschema, List.map_singleton, Part.tidy]
    rfl
  | query q =>
    simp only [Definition.tidy, partsOf, hbody, hbodydoc, parameterParts_tidy, bodyParts_tidy,
      errorParts_tidy, List.map_append]
  | procedure p =>
    simp only [Definition.tidy, partsOf, hbody, hbodydoc, parameterParts_tidy, bodyParts_tidy,
      errorParts_tidy, List.map_append]
  | subscription s =>
    have hmessage : (s.message.map Message.tidy).bind (·.schema) =
        (s.message.bind (·.schema)).map Schema.tidy := by
      cases s.message <;> rfl
    have hdoc : (s.message.map Message.tidy).bind (·.description) =
        s.message.bind (·.description) := by
      cases s.message <;> rfl
    simp only [Definition.tidy, partsOf, hmessage, hdoc, parameterParts_tidy, bodyParts_tidy,
      errorParts_tidy, List.map_append]
  | schema s =>
    simp only [Definition.tidy, partsOf, Schema.facets_tidy, Schema.description_tidy,
      schemaPart_tidy]
    split <;> rfl

/-- The draft of a part with tidy lists is that of the part. -/
theorem draft_tidy (p : Part) : p.tidy.draft l.tidy = (fun d => d) <$> p.draft l := by
  rw [id_map']
  cases p with
  | interface name location doc discriminant s =>
    have hproperties : resolveProperties l.tidy location s.tidy.facets.required s.tidy.properties =
        resolveProperties l location s.facets.required s.properties := by
      simpa using resolveProperties_tidy l location fun e he => mem_requiredNames he
    simp only [Part.tidy, Part.draft, interfaceOf, hproperties]
  | typed name location doc s => simp only [Part.tidy, Part.draft, resolve_tidy]
  | fixed name doc type => rfl

/-- **The drafts of a lexicon do not depend on more** than which properties are required. -/
theorem allDrafts_tidy : allDrafts l.tidy = allDrafts l := by
  have hdrafts : allDrafts l.tidy = List.map (fun d => d) <$> allDrafts l :=
    allDrafts_of_map rfl rfl Definition.kind_tidy (partsOf_tidy l) (draft_tidy l)
  rw [hdrafts, List.map_id_fun', id_map]

end Parts

/-! ### Declarations -/

theorem declarations_tidy (l : Lexicon) : declarations l.tidy = declarations l := by
  rw [declarations, declarations, allDrafts_tidy]
  rfl

/-- Lexicons that require the same properties have the same declarations, or the same error. -/
theorem declarations_eq_of_sameDemands {l l' : Lexicon} (h : SameDemands l l') :
    declarations l = declarations l' := by
  rw [← declarations_tidy l, ← declarations_tidy l', show l.tidy = l'.tidy from h]

/-- Lexicons that require the same properties have the same module, or the same error. -/
theorem generate_eq_of_sameDemands {l l' : Lexicon} (h : SameDemands l l') :
    generate l = generate l' := by
  have htidy : l.tidy = l'.tidy := h
  have hid : l.id = l'.id := by
    show l.tidy.id = l'.tidy.id
    rw [htidy]
  rw [generate, generate, declarations_eq_of_sameDemands h, hid]

end Lexgen.Types
