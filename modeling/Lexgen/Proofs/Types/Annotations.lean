/-
# Annotations never reach the types

Stripping a lexicon of its annotations and then declaring its types is the same as declaring them
and then taking the comments off. The references are looked up in the same way (`resolve_strip`),
and the full text of an object says nothing about its comments (`Shape.inline_strip`), so the same
objects are met, in the same order, and they get the same names (`Naming.ofDrafts_strip`). Hence two
lexicons that differ in annotations only have the same declarations up to comments, and the same
module if their descriptions are the same.

Key definitions: `Shape.strip`, `Part.strip`, `Draft.strip`, `Declaration.strip`, `TypesAgree`.
Key theorems: `resolve_strip`, `allDrafts_strip`, `Naming.ofDrafts_strip`, `declarations_strip`,
`typesAgree_of_sameStructure`.
-/
import Lexgen.Proofs.Lexicon.Annotations
import Lexgen.Proofs.Types.Drafts
import Lexgen.Proofs.Types.Passes
import Lexgen.Proofs.Types.Unfolding

namespace Lexgen.TypeScript

open Lexgen.Lexicon (keepIf)

/-- A member without its comment, or with it. -/
def Member.strip (docs : Bool) (m : Member) : Member := { m with doc := keepIf docs m.doc }

/-- A declaration without its comments, or with them. -/
def Declaration.strip (docs : Bool) : Declaration → Declaration
  | .interface i => .interface ⟨i.name, keepIf docs i.doc, i.members.map (Member.strip docs)⟩
  | .alias a => .alias { a with doc := keepIf docs a.doc }

@[simp] theorem docOf_keepIf (docs : Bool) (d : Option String) :
    docOf (keepIf docs d) = keepIf docs (docOf d) := by
  cases docs <;> rfl

@[simp] theorem inlineObject_strip (docs : Bool) (ms : List Member) :
    inlineObject (ms.map (Member.strip docs)) = inlineObject ms := by
  have hsignature : Member.signature ∘ Member.strip docs = Member.signature := rfl
  rw [inlineObject, inlineObject, List.map_map, hsignature, List.isEmpty_map]

@[simp] theorem Declaration.strip_true (d : Declaration) : d.strip true = d :=
  match d with
  | .interface i => by
    have hmember : Member.strip true = id := rfl
    rw [strip, hmember, List.map_id]
    rfl
  | .alias a => rfl

end Lexgen.TypeScript

namespace Lexgen.Types

open Lexgen.Data Lexgen.Lexicon Lexgen.Name Lexgen.TypeScript

/-! ### Shapes -/

/-- A property without its description, or with it. -/
def Property.strip (docs : Bool) (p : Property) : Property := { p with doc := keepIf docs p.doc }

@[simp] theorem Property.name_strip (docs : Bool) (p : Property) :
    (p.strip docs).name = p.name := rfl

@[simp] theorem Property.member_strip (docs : Bool) (p : Property) (type : String) :
    (p.strip docs).member type = (p.member type).strip docs := rfl

namespace Shape

mutual

/-- A shape without descriptions, or with them. -/
@[simp] def strip (docs : Bool) : Shape → Shape
  | .text type => .text type
  | .union types => .union types
  | .array item => .array (strip docs item)
  | .object doc properties => .object (keepIf docs doc) (stripAll docs properties)

/-- Properties with their shapes, without descriptions or with them. -/
@[simp] def stripAll (docs : Bool) : List (Property × Shape) → List (Property × Shape)
  | [] => []
  | (p, s) :: rest => (p.strip docs, strip docs s) :: stripAll docs rest

end

end Shape

@[simp] theorem requiredFirst_strip (docs : Bool) (ms : List Member) :
    requiredFirst (ms.map (Member.strip docs)) = (requiredFirst ms).map (Member.strip docs) := by
  simp only [requiredFirst, List.filter_map, List.map_append]
  rfl

mutual

/-- The full text of a shape says nothing about descriptions. -/
@[simp] theorem Shape.inline_strip (docs : Bool) : ∀ s : Shape, (s.strip docs).inline = s.inline
  | .text _ => by simp
  | .union _ => by simp
  | .array item => by simp [inline, inline_strip docs item]
  | .object _ properties => by simp [inline, inlineMembers_stripAll docs properties]

@[simp] theorem Shape.inlineMembers_stripAll (docs : Bool) : ∀ ps : List (Property × Shape),
    inlineMembers (stripAll docs ps) = (inlineMembers ps).map (Member.strip docs)
  | [] => by simp [inlineMembers]
  | (p, s) :: rest => by
    simp [inlineMembers, inline_strip docs s, inlineMembers_stripAll docs rest]

end

@[simp] theorem Shape.inline_object_strip (docs : Bool) (doc : Option String)
    (properties : List (Property × Shape)) :
    (object (keepIf docs doc) (stripAll docs properties)).inline =
      (object doc properties).inline := by
  simpa using inline_strip docs (object doc properties)

/-! ### Resolving -/

section Resolving

variable (docs : Bool) (l : Lexicon)

@[simp] theorem resolveRef_strip (reference location : String) :
    resolveRef (l.strip docs) reference location = resolveRef l reference location := by
  rw [resolveRef, resolveRef, Lexicon.get?_of_map rfl, Option.isNone_map]
  rfl

@[simp] theorem resolveRefs_strip (location : String) : ∀ references : List String,
    resolveRefs (l.strip docs) location references = resolveRefs l location references
  | [] => rfl
  | reference :: rest => by
    simp [resolveRefs, resolveRefs_strip location rest]

theorem propertyOf_strip (required : List String) (name : String) (s : Schema) :
    propertyOf required name (s.strip docs) = (propertyOf required name s).strip docs := by
  simp [propertyOf, Property.strip]

mutual

/-- **The shape of a stripped schema** is that of the schema without the descriptions, and an error
is the same. -/
theorem resolve_strip (location : String) : ∀ s : Schema,
    resolve (l.strip docs) location (s.strip docs) = Shape.strip docs <$> resolve l location s
  | ⟨f, ps, it⟩ => by
    have hshape := Schema.isShape_strip docs ⟨f, ps, it⟩
    have hleaf : leafType (f.strip docs) = leafType f := rfl
    have hprops := resolveProperties_strip location f.required ps
    have hitems := resolveItems_strip (location ++ "[]") it
    rw [Schema.strip] at hshape ⊢
    simp only [resolve, Facets.dollarRef_strip, Facets.ref_strip, Facets.keyword_strip,
      Facets.refs_strip, Facets.required_strip, Facets.description_strip, docOf_keepIf, hshape,
      hleaf, hprops, hitems]
    cases f.dollarRef <|> f.ref with
    | some reference => simp
    | none =>
      dsimp only
      split
      · simp
      · simp
      · split <;> simp

theorem resolveItems_strip (location : String) : ∀ it : Option Schema,
    resolveItems (l.strip docs) location (Schema.stripItems docs it) =
      Shape.strip docs <$> resolveItems l location it
  | none => by simp [resolveItems]
  | some s => by simp [resolveItems, resolve_strip location s]

theorem resolveProperties_strip (location : String) (required : List String) :
    ∀ ps : List (String × Schema),
      resolveProperties (l.strip docs) location required (Schema.stripAll docs ps) =
        Shape.stripAll docs <$> resolveProperties l location required ps
  | [] => by simp [resolveProperties]
  | (name, s) :: rest => by
    simp only [Schema.stripAll, resolveProperties, resolve_strip _ s,
      resolveProperties_strip location required rest, propertyOf_strip]
    cases resolve l (location ++ "." ++ name) s with
    | error e => rfl
    | ok shape =>
      cases resolveProperties l location required rest with
      | error e => rfl
      | ok others =>
        simp [bind, Except.bind]

end

end Resolving

/-! ### Drafts -/

/-- A part of a stripped lexicon. -/
def Part.strip (docs : Bool) : Part → Part
  | .interface name location doc discriminant s =>
    .interface name location (keepIf docs doc) discriminant (s.strip docs)
  | .typed name location doc s => .typed name location (keepIf docs doc) (s.strip docs)
  | .fixed name doc type => .fixed name (keepIf docs doc) type

/-- A draft without descriptions, or with them. -/
def Draft.strip (docs : Bool) : Draft → Draft
  | .interface name doc discriminant properties =>
    .interface name (keepIf docs doc) discriminant (Shape.stripAll docs properties)
  | .alias name doc shape => .alias name (keepIf docs doc) (shape.strip docs)

@[simp] theorem Draft.name_strip (docs : Bool) (d : Draft) : (d.strip docs).name = d.name :=
  match d with
  | .interface .. => rfl
  | .alias .. => rfl

section Parts

variable (docs : Bool) (l : Lexicon) (name : String)

theorem schemaPart_strip (location : String) (doc : Option String) (s : Schema) :
    schemaPart name location (keepIf docs doc) (s.strip docs) =
      (schemaPart name location doc s).strip docs := by
  simp only [schemaPart, Schema.isShape_strip, Schema.reference?_strip]
  split <;> rfl

theorem parameterParts_strip (parameters : Option Schema) :
    parameterParts (l.strip docs) name (parameters.map (Schema.strip docs)) =
      (parameterParts l name parameters).map (Part.strip docs) := by
  cases parameters with
  | none => rfl
  | some s =>
    simp only [Option.map_some, parameterParts, Schema.properties_strip, Schema.isEmpty_stripAll,
      Schema.description_strip]
    split <;> rfl

theorem bodyParts_strip (part location : String) (description : Option String)
    (schema : Option Schema) :
    bodyParts (l.strip docs) name part location (keepIf docs description)
        (schema.map (Schema.strip docs)) =
      (bodyParts l name part location description schema).map (Part.strip docs) := by
  cases schema with
  | none => rfl
  | some s =>
    rw [Option.map_some, bodyParts, bodyParts, Schema.description_strip, ← keepIf_orElse,
      schemaPart_strip]
    rfl

theorem errorParts_strip (errors : List NamedError) :
    errorParts (l.strip docs) name (errors.map (NamedError.strip docs)) =
      (errorParts l name errors).map (Part.strip docs) := by
  have hnames : NamedError.name ∘ NamedError.strip docs = NamedError.name := rfl
  rw [errorParts, errorParts, List.isEmpty_map, List.map_map, hnames]
  split
  · rfl
  · rw [List.map_singleton, Part.strip, keepIf_none]
    rfl

/-- The description in a part of a definition, and the description kept of it. -/
theorem bind_description {α : Type} (strip : α → α) (description : α → Option String)
    (h : ∀ a, description (strip a) = keepIf docs (description a)) (part : Option α) :
    (part.map strip).bind description = keepIf docs (part.bind description) := by
  cases part with
  | none => exact (keepIf_none docs).symm
  | some a => exact h a

/-- The parts of a stripped definition are those of the definition, stripped. -/
theorem partsOf_strip (d : Definition) :
    partsOf (l.strip docs) name (d.strip docs) = (partsOf l name d).map (Part.strip docs) := by
  have hbody (b : Option Body) : (b.map (Body.strip docs)).bind (·.schema) =
      (b.bind (·.schema)).map (Schema.strip docs) := by
    cases b <;> rfl
  have hbodydoc (b : Option Body) : (b.map (Body.strip docs)).bind (·.description) =
      keepIf docs (b.bind (·.description)) :=
    bind_description docs (Body.strip docs) Body.description (fun _ => rfl) b
  cases d with
  | record r =>
    have hdoc := bind_description docs (Schema.strip docs) Schema.description
      (Schema.description_strip docs) r.schema
    have hschema : (r.schema.map (Schema.strip docs)).getD Schema.blank =
        (r.schema.getD Schema.blank).strip docs := by
      cases r.schema with
      | none => exact (Schema.strip_blank docs).symm
      | some s => rfl
    simp only [Definition.strip, partsOf, hdoc, ← keepIf_orElse, hschema, List.map_singleton,
      Part.strip]
    rfl
  | query q =>
    simp only [Definition.strip, partsOf, hbody, hbodydoc, parameterParts_strip, bodyParts_strip,
      errorParts_strip, List.map_append]
  | procedure p =>
    simp only [Definition.strip, partsOf, hbody, hbodydoc, parameterParts_strip, bodyParts_strip,
      errorParts_strip, List.map_append]
  | subscription s =>
    have hmessage : (s.message.map (Message.strip docs)).bind (·.schema) =
        (s.message.bind (·.schema)).map (Schema.strip docs) := by
      cases s.message <;> rfl
    have hdoc : (s.message.map (Message.strip docs)).bind (·.description) =
        keepIf docs (s.message.bind (·.description)) :=
      bind_description docs (Message.strip docs) Message.description (fun _ => rfl) s.message
    simp only [Definition.strip, partsOf, hmessage, hdoc, parameterParts_strip, bodyParts_strip,
      errorParts_strip, List.map_append]
  | schema s =>
    simp only [Definition.strip, partsOf, Schema.facets_strip, Facets.keyword_strip,
      Schema.description_strip, schemaPart_strip]
    split <;> rfl

/-- The draft of a stripped part is that of the part, stripped, and an error is the same. -/
theorem draft_strip (p : Part) :
    (p.strip docs).draft (l.strip docs) = Draft.strip docs <$> p.draft l := by
  cases p with
  | interface name location doc discriminant s =>
    simp [Part.strip, Part.draft, interfaceOf, resolveProperties_strip, Draft.strip]
  | typed name location doc s =>
    simp [Part.strip, Part.draft, resolve_strip, Draft.strip]
  | fixed name doc type =>
    simp [Part.strip, Part.draft, Draft.strip]

end Parts

/-! ### All drafts -/

section Map

variable {l l' : Lexicon} {g : Part → Part} {h : Draft → Draft}

theorem mapM_draft_of_map (hdraft : ∀ p, (g p).draft l' = h <$> p.draft l) :
    ∀ parts : List Part, (parts.map g).mapM (Part.draft l') =
      List.map h <$> parts.mapM (Part.draft l)
  | [] => rfl
  | p :: parts => by
    rw [List.map_cons, List.mapM_cons, List.mapM_cons, hdraft, mapM_draft_of_map hdraft parts]
    cases p.draft l with
    | error e => rfl
    | ok d => cases parts.mapM (Part.draft l) <;> rfl

/-- A change of every definition that changes the parts and their drafts one by one changes all
drafts one by one, and an error is the same. -/
theorem allDrafts_of_map {f : Definition → Definition} (hid : l'.id = l.id)
    (hdefs : l'.defs = l.defs.map f) (hkind : ∀ d, (f d).kind = d.kind)
    (hparts : ∀ name d, partsOf l' name (f d) = (partsOf l name d).map g)
    (hdraft : ∀ p, (g p).draft l' = h <$> p.draft l) :
    allDrafts l' = List.map h <$> allDrafts l := by
  rw [allDrafts_eq_mapM, allDrafts_eq_mapM, Lexicon.primary_of_map hid hdefs hkind]
  cases l.primary with
  | error e => rfl
  | ok e =>
    have hall : (((e.1, f e.2) :: l'.supporting e.1).flatMap fun d => partsOf l' d.1 d.2) =
        ((e :: l.supporting e.1).flatMap fun d => partsOf l d.1 d.2).map g := by
      have hmap : ((e.1, f e.2) :: l'.supporting e.1) =
          (e :: l.supporting e.1).map fun e => (e.1, f e.2) := by
        rw [Lexicon.supporting_of_map hdefs]
        rfl
      rw [hmap]
      simp only [List.flatMap_map, hparts, List.map_flatMap]
    show List.mapM _ _ = _
    rw [hall]
    exact mapM_draft_of_map hdraft _

end Map

/-- **The drafts of a stripped lexicon** are those of the lexicon, stripped, and an error is the
same. -/
theorem allDrafts_strip (docs : Bool) (l : Lexicon) :
    allDrafts (l.strip docs) = List.map (Draft.strip docs) <$> allDrafts l :=
  allDrafts_of_map rfl rfl (Definition.kind_strip docs) (partsOf_strip docs l) (draft_strip docs l)

/-! ### Names of repeated objects -/

mutual

/-- The same objects are met, in the same order and with the same full texts. -/
@[simp] theorem occurrences_strip (docs : Bool) : ∀ (owner name : String) (s : Shape),
    occurrences owner name (s.strip docs) = occurrences owner name s
  | _, _, .text _ => by simp
  | _, _, .union _ => by simp
  | owner, name, .array item => by simp [occurrences, occurrences_strip docs owner _ item]
  | owner, name, .object doc properties => by
    simp [occurrences, propertyOccurrences_stripAll docs _ properties]

@[simp] theorem propertyOccurrences_stripAll (docs : Bool) :
    ∀ (owner : String) (ps : List (Property × Shape)),
      propertyOccurrences owner (Shape.stripAll docs ps) = propertyOccurrences owner ps
  | _, [] => by simp
  | owner, (p, s) :: rest => by
    simp [propertyOccurrences, occurrences_strip docs owner _ s,
      propertyOccurrences_stripAll docs owner rest]

end

@[simp] theorem Draft.occurrences_strip (docs : Bool) (d : Draft) :
    (d.strip docs).occurrences = d.occurrences :=
  match d with
  | .interface name _ _ properties => propertyOccurrences_stripAll docs name properties
  | .alias name _ shape => Types.occurrences_strip docs name "" shape

/-- **Repeated objects get the same names** whatever the descriptions are. -/
@[simp] theorem Naming.ofDrafts_strip (docs : Bool) (drafts : List Draft) :
    ofDrafts (drafts.map (Draft.strip docs)) = ofDrafts drafts := by
  have hnames : Draft.name ∘ Draft.strip docs = Draft.name := funext (Draft.name_strip docs)
  simp [ofDrafts, hnames, List.flatMap_map]

/-! ### Writing and lifting -/

/-- An object that is declared by itself, without descriptions or with them. -/
def Lifted.strip (docs : Bool) (o : Lifted) : Lifted :=
  ⟨o.name, keepIf docs o.doc, Shape.stripAll docs o.properties⟩

namespace Naming

variable (docs : Bool) (n : Naming)

mutual

@[simp] theorem write_strip : ∀ s : Shape, n.write (s.strip docs) = n.write s
  | .text _ => by simp
  | .union _ => by simp
  | .array item => by simp [write, write_strip item]
  | .object doc properties => by simp [write, writeMembers_stripAll properties]

@[simp] theorem writeMembers_stripAll : ∀ ps : List (Property × Shape),
    n.writeMembers (Shape.stripAll docs ps) = (n.writeMembers ps).map (Member.strip docs)
  | [] => by simp [writeMembers]
  | (p, s) :: rest => by simp [writeMembers, write_strip s, writeMembers_stripAll rest]

end

mutual

/-- The same objects are lifted at the same places. -/
theorem lift_strip : ∀ (declared : List String) (s : Shape),
    n.lift declared (s.strip docs) =
      ((n.lift declared s).1.map (Lifted.strip docs), (n.lift declared s).2)
  | declared, .text _ => by simp [lift]
  | declared, .union _ => by simp [lift]
  | declared, .array item => by simp [lift, lift_strip declared item]
  | declared, .object doc properties => by
    simp only [Shape.strip, lift, Shape.inline_object_strip]
    cases n.lookup (Shape.object doc properties).inline with
    | none => exact liftMembers_stripAll declared properties
    | some name =>
      simp only
      split
      · rfl
      · rw [liftMembers_stripAll _ properties]
        simp only [List.map_append, List.map_singleton, Lifted.strip]

theorem liftMembers_stripAll : ∀ (declared : List String) (ps : List (Property × Shape)),
    n.liftMembers declared (Shape.stripAll docs ps) =
      ((n.liftMembers declared ps).1.map (Lifted.strip docs), (n.liftMembers declared ps).2)
  | declared, [] => by simp [liftMembers]
  | declared, (p, s) :: rest => by
    rw [Shape.stripAll, liftMembers, liftMembers, lift_strip declared s]
    simp only
    rw [liftMembers_stripAll _ rest, List.map_append]

end

@[simp] theorem interface_strip (o : Lifted) :
    Declaration.interface (n.interface (o.strip docs)) =
      (Declaration.interface (n.interface o)).strip docs := by
  simp [interface, Lifted.strip, Declaration.strip]

end Naming

section Declaring

variable (docs : Bool)

@[simp] theorem Draft.write_strip (n : Naming) (d : Draft) :
    (d.strip docs).write n = (d.write n).strip docs :=
  match d with
  | .interface name doc discriminant properties => by
    have hmember (value : String) :
        (discriminantMember value).strip docs = discriminantMember value := by
      rw [Member.strip, discriminantMember, keepIf_none]
    simp [strip, write, Declaration.strip, hmember]
  | .alias name doc shape => by simp [strip, write, Declaration.strip]

@[simp] theorem Draft.liftAll_strip (n : Naming) : ∀ (declared : List String) (ds : List Draft),
    liftAll n declared (ds.map (strip docs)) = (liftAll n declared ds).map (Lifted.strip docs)
  | _, [] => rfl
  | declared, d :: ds => by
    have hfirst : (d.strip docs).lift n declared =
        ((d.lift n declared).1.map (Lifted.strip docs), (d.lift n declared).2) :=
      match d with
      | .interface _ _ _ properties => n.liftMembers_stripAll docs declared properties
      | .alias _ _ shape => n.lift_strip docs declared shape
    rw [List.map_cons, liftAll, hfirst, liftAll]
    simp only
    rw [liftAll_strip n _ ds, List.map_append]

@[simp] theorem declare_strip (drafts : List Draft) :
    declare (drafts.map (Draft.strip docs)) = (declare drafts).map (Declaration.strip docs) := by
  simp only [declare, Naming.ofDrafts_strip, Draft.liftAll_strip, List.map_append, List.map_map,
    Function.comp_def, Draft.write_strip, Naming.interface_strip]

/-- **The declarations of a stripped lexicon** are those of the lexicon without the comments, or
with them, and an error is the same. -/
theorem declarations_strip (l : Lexicon) :
    declarations (l.strip docs) = List.map (Declaration.strip docs) <$> declarations l := by
  rw [declarations, declarations, allDrafts_strip]
  cases allDrafts l with
  | error e => rfl
  | ok drafts =>
    have hnames : (drafts.map (Draft.strip docs)).map Draft.name = drafts.map Draft.name := by
      simp
    simp only [Functor.map, Except.map, bind, Except.bind, hnames, List.isEmpty_map, declare_strip]
    cases firstRepeated? (drafts.map Draft.name) with
    | some name => rfl
    | none => cases drafts <;> rfl

end Declaring

/-! ### Two lexicons -/

/-- How the types of two lexicons agree that differ in annotations only. -/
structure TypesAgree (l l' : Lexicon) : Prop where
  /-- Both fail, with the same error, or both have declarations, the same but for the comments. -/
  declared : (∃ e, declarations l = .error e ∧ declarations l' = .error e) ∨
    ∃ ds ds', declarations l = .ok ds ∧ declarations l' = .ok ds' ∧
      ds.map (Declaration.strip false) = ds'.map (Declaration.strip false)
  /-- If the descriptions are the same too, so are the modules. -/
  generated : SameDescriptions l l' → generate l = generate l'

/-- Keeping the descriptions, stripping changes no declaration. -/
theorem declarations_strip_true (l : Lexicon) : declarations (l.strip true) = declarations l := by
  rw [declarations_strip]
  cases declarations l with
  | error e => rfl
  | ok ds => exact congrArg Except.ok (List.map_id'' Declaration.strip_true ds)

/-- **Annotations never reach the types**: lexicons that differ in nothing else have the same
declarations up to comments, lifted ones and errors included. -/
theorem typesAgree_of_sameStructure {l l' : Lexicon} (h : SameStructure l l') :
    TypesAgree l l' where
  declared := by
    have hstripped := declarations_strip false l
    rw [show l.strip false = l'.strip false from h, declarations_strip] at hstripped
    cases hl : declarations l with
    | error e =>
      cases hl' : declarations l' with
      | error e' =>
        rw [hl, hl'] at hstripped
        cases hstripped
        exact .inl ⟨e, rfl, rfl⟩
      | ok ds' =>
        rw [hl, hl'] at hstripped
        cases hstripped
    | ok ds =>
      cases hl' : declarations l' with
      | error e' =>
        rw [hl, hl'] at hstripped
        cases hstripped
      | ok ds' =>
        rw [hl, hl'] at hstripped
        exact .inr ⟨ds, ds', rfl, rfl, (Except.ok.inj hstripped).symm⟩
  generated := fun hdocs => by
    have hdocs : l.strip true = l'.strip true := hdocs
    have hid : l.id = l'.id := by
      show (l.strip true).id = (l'.strip true).id
      rw [hdocs]
    have hsame : declarations l = declarations l' := by
      rw [← declarations_strip_true l, ← declarations_strip_true l']
      rw [hdocs]
    rw [generate, generate, hsame, hid]

/-- Notes between two places, with a description and a bound everywhere they can stand. -/
def annotatedNotes (about : Option String) (longest : Option Nat) : Lexicon :=
  let text : Schema :=
    ⟨{ keyword := some .string, description := about, maxLength := longest }, [], none⟩
  let place : Schema := ⟨{ keyword := some .object, description := about }, [("at", text)], none⟩
  noteLexicon [("main", .record {
    description := about
    key := about
    schema := some (objectSchema [("from", place), ("to", place)]) })]

/-- What `annotatedNotes` declares. -/
def annotatedModule (about : Option String) : List Declaration := [
  .interface ⟨"Note", about, [⟨"$type", "'com.example.note'", none, false⟩,
    ⟨"from", "NoteFrom", about, true⟩, ⟨"to", "NoteFrom", about, true⟩]⟩,
  .interface ⟨"NoteFrom", about, [⟨"at", "string", about, true⟩]⟩]

theorem typesAgree_annotatedNotes :
    SameStructure (annotatedNotes (some "Where.") (some 300)) (annotatedNotes none none) ∧
      declarations (annotatedNotes (some "Where.") (some 300)) =
        .ok (annotatedModule (some "Where.")) ∧
      declarations (annotatedNotes none none) = .ok (annotatedModule none) ∧
      TypesAgree (annotatedNotes (some "Where.") (some 300)) (annotatedNotes none none) ∧
      generate (annotatedNotes (some "Where.") (some 300)) =
        generate (annotatedNotes (some "Where.") none) := by
  have hstructure :
      SameStructure (annotatedNotes (some "Where.") (some 300)) (annotatedNotes none none) := by
    rfl
  have hbound : SameStructure (annotatedNotes (some "Where.") (some 300))
      (annotatedNotes (some "Where.") none) := by
    rfl
  have hdocs : SameDescriptions (annotatedNotes (some "Where.") (some 300))
      (annotatedNotes (some "Where.") none) := by
    rfl
  exact ⟨hstructure, by rfl, by rfl, typesAgree_of_sameStructure hstructure,
    (typesAgree_of_sameStructure hbound).generated hdocs⟩

end Lexgen.Types
