/-
# The members of objects stand in the order of their properties

Wherever an object schema is written, its members are its properties in their arrangement, those
that are listed as required before the others. `Renders` says so of the text of a schema: an object
is written in place with its arrangement, or by the name of a lifted interface that is made from an
object schema with the same full text, and the types of its members are written in the same way,
down to every depth. The proof is by recursion over the shape that the schema has, since a shape is
written as its schema is arranged (`renders_write`); the lifted objects are those of schemas that
are met in the lexicon (`exists_inside_of_part`). An interface stands for all objects with one full
text, so only where this text tells the members are they those of each object that it stands for;
`not_named_spottedNotes` has type names for which it does not.

Key definitions: `Renders`, `RendersPart`, `Part.Holds`, `Arranged`.
Key theorems: `renders_write`, `exists_inside_of_part`, `arranged_declarations`.
-/
import Lexgen.Proofs.Types.FullText
import Lexgen.Proofs.Types.Plain
import Lexgen.Proofs.Types.Required

namespace Lexgen.Types

open Lexgen.Lexicon Lexgen.TypeScript Lexgen.Data Lexgen.Name

/-! ### What it means to be written in the arrangement -/

section Relations

variable (l : Lexicon) (lifted : List (Schema × Interface))

mutual

/-- The text of a schema in which every object is written as its properties are arranged. The
interfaces that stand for objects by name come with the schemas that they are made from. -/
inductive Renders : Schema → String → Prop where
  /-- An object in place. -/
  | object {s : Schema} {ms : List Member} : s.isObjectType = true →
    RendersAll s.facets.required s.arrangement ms → Renders s (inlineObject ms)
  /-- An object that stands by the name of a lifted interface. -/
  | named {s : Schema} {e : Schema × Interface} {text : String} : s.isObjectType = true →
    e ∈ lifted → FullText l s text → FullText l e.1 text → Renders s e.2.name
  /-- An array with the type of its items. -/
  | array {s item : Schema} {type : String} : s.reference? = none →
    s.facets.keyword = some .array → s.items = some item → Renders item type →
    Renders s (arrayOf type)
  /-- A type without objects. -/
  | other {s : Schema} {text : String} : s.isObjectType = false →
    (s.reference? = none → s.facets.keyword = some .array → s.items = none) → FullText l s text →
    Renders s text

/-- The members that properties become one by one, if the names in the list are required. -/
inductive RendersAll : List String → List (String × Schema) → List Member → Prop where
  | nil {required : List String} : RendersAll required [] []
  | cons {required : List String} {name type : String} {s : Schema} {ps : List (String × Schema)}
    {ms : List Member} : Renders s type → RendersAll required ps ms →
    RendersAll required ((name, s) :: ps)
      (⟨name, type, docOf s.description, !required.contains name⟩ :: ms)

end

/-- The members of an object schema are its properties in their arrangement. -/
def MembersOf (s : Schema) (ms : List Member) : Prop :=
  RendersAll l lifted s.facets.required s.arrangement ms

/-- The declaration that a part of a definition becomes. -/
inductive RendersPart : Part → Declaration → Prop where
  | interface {name location : String} {doc discriminant : Option String} {s : Schema}
    {ms : List Member} : MembersOf l lifted s ms →
    RendersPart (.interface name location doc discriminant s)
      (.interface ⟨name, docOf doc, discriminant.toList.map discriminantMember ++ ms⟩)
  | typed {name location type : String} {doc : Option String} {s : Schema} :
    Renders l lifted s type →
    RendersPart (.typed name location doc s) (.alias ⟨name, type, docOf doc⟩)
  | fixed {name type : String} {doc : Option String} :
    RendersPart (.fixed name doc type) (.alias ⟨name, type, docOf doc⟩)

end Relations

/-- The schemas that are met in a part, with the locations where they are met. -/
inductive Part.Holds : Part → String → Schema → Prop where
  | property {name location inner : String} {doc discriminant : Option String} {s t : Schema}
    {p : String × Schema} : p ∈ s.properties → Inside (location ++ "." ++ p.1) p.2 inner t →
    Holds (.interface name location doc discriminant s) inner t
  | typed {name location inner : String} {doc : Option String} {s t : Schema} :
    Inside location s inner t → Holds (.typed name location doc s) inner t

/-- The parts of all definitions, those of the primary one first. -/
def allParts (l : Lexicon) : List Part :=
  l.primary?.toList.flatMap fun e => (e :: l.supporting e.1).flatMap fun d => partsOf l d.1 d.2

/-- How the object schemas of a lexicon are written: `own` are the declarations of its definitions,
and `lifted` the interfaces that stand for objects, each with a schema that it is made from. -/
structure Arranged (l : Lexicon) (own : List Declaration) (lifted : List (Schema × Interface)) :
    Prop where
  /-- Each part of a definition is written with arranged members, down to every depth. -/
  parts : List.Forall₂ (RendersPart l lifted) (allParts l) own
  /-- So is each lifted interface. -/
  members : ∀ e ∈ lifted, MembersOf l lifted e.1 e.2.members
  /-- Where all type names are identifiers, the interface by whose name an object is written has the
  properties of that object, in their arrangement and with their marks. -/
  named : (∀ e ∈ l.defs.entries, isIdentifier (l.typeName e.1) = true) → ∀ e ∈ lifted, ∀ s text,
    s.isObjectType = true → FullText l s text → FullText l e.1 text →
      e.2.members.map (fun m => (m.name, m.optional)) = marks s
  /-- Lifted interfaces are made from object schemas that are met in the lexicon. -/
  met : ∀ e ∈ lifted, e.1.isObjectType = true ∧
    ∃ part ∈ allParts l, ∃ location, part.Holds location e.1

/-! ### The shapes of schemas -/

section Resolving

variable {l : Lexicon} {location : String}

theorem resolve_eq_array_iff {s : Schema} {item : Shape} :
    resolve l location s = .ok (.array item) ↔ s.reference? = none ∧
      s.facets.keyword = some .array ∧ resolveItems l (location ++ "[]") s.items = .ok item := by
  constructor
  · intro h
    obtain ⟨f, ps, it⟩ := s
    unfold resolve at h
    split at h
    · obtain ⟨type, -, hshape⟩ := map_eq_ok_iff.mp h
      cases hshape
    · next href =>
      split at h
      · next hkeyword =>
        obtain ⟨shape, hitem, hshape⟩ := map_eq_ok_iff.mp h
        cases hshape
        exact ⟨href, hkeyword, hitem⟩
      · obtain ⟨types, -, hshape⟩ := map_eq_ok_iff.mp h
        cases hshape
      · split at h
        · obtain ⟨properties, -, hshape⟩ := map_eq_ok_iff.mp h
          cases hshape
        · cases h
  · rintro ⟨href, hkeyword, hitem⟩
    rw [resolve_array href hkeyword, hitem]
    rfl

/-- Only object schemas have the shape of an object. -/
theorem isObjectType_eq_false {s : Schema} {shape : Shape} (h : resolve l location s = .ok shape)
    (hshape : ∀ doc properties, shape ≠ .object doc properties) : s.isObjectType = false := by
  rw [Bool.eq_false_iff]
  intro hobject
  obtain ⟨hisShape, href⟩ := Schema.isObjectType_iff.mp hobject
  rw [resolve_of_isShape href hisShape] at h
  obtain ⟨properties, -, rfl⟩ := map_eq_ok_iff.mp h
  exact hshape _ _ rfl

theorem Inside.trans {outer middle : String} {s t u : Schema} (h : Inside outer s middle t)
    (h' : Inside middle t location u) : Inside outer s location u := by
  induction h' with
  | self => exact h
  | items _ href hkeyword hitems ih => exact .items ih href hkeyword hitems
  | property _ href hshape hp ih => exact .property ih href hshape hp

mutual

/-- An object in the shape of a schema is the shape of an object schema that is met there. -/
theorem exists_inside_of_part {doc : Option String} {properties : List (Property × Shape)} :
    ∀ {shape : Shape} {location : String} {s : Schema}, resolve l location s = .ok shape →
      Shape.object doc properties ∈ shape.parts →
      ∃ inner t, Inside location s inner t ∧ resolve l inner t = .ok (.object doc properties)
  | .text _, _, _, _, hpart => by
    rw [Shape.parts, List.mem_singleton] at hpart
    cases hpart
  | .union _, _, _, _, hpart => by
    rw [Shape.parts, List.mem_singleton] at hpart
    cases hpart
  | .array item, location, s, h, hpart => by
    obtain ⟨href, hkeyword, hitem⟩ := resolve_eq_array_iff.mp h
    have hinner : Shape.object doc properties ∈ item.parts := by
      rw [Shape.parts, List.mem_cons] at hpart
      exact hpart.resolve_left (fun hself => by cases hself)
    cases hitems : s.items with
    | none =>
      rw [hitems, resolveItems] at hitem
      cases hitem
      rw [Shape.parts, List.mem_singleton] at hinner
      cases hinner
    | some t =>
      rw [hitems, resolveItems] at hitem
      obtain ⟨inner, u, hinside, hu⟩ := exists_inside_of_part hitem hinner
      exact ⟨inner, u, (Inside.items .self href hkeyword hitems).trans hinside, hu⟩
  | .object found ps, location, s, h, hpart => by
    obtain ⟨hobject, -, hproperties⟩ := resolve_eq_object_iff.mp h
    obtain ⟨hisShape, href⟩ := Schema.isObjectType_iff.mp hobject
    rw [Shape.parts, List.mem_cons] at hpart
    rcases hpart with hself | hpart
    · exact ⟨location, s, .self, hself ▸ h⟩
    · obtain ⟨e, he, inner, u, hinside, hu⟩ := exists_inside_of_partsOf hproperties hpart
      exact ⟨inner, u, (Inside.property .self href hisShape he).trans hinside, hu⟩

/-- The same for the shapes of properties. -/
theorem exists_inside_of_partsOf {doc : Option String} {properties : List (Property × Shape)} :
    ∀ {shapes : List (Property × Shape)} {location : String} {required : List String}
      {ps : List (String × Schema)}, resolveProperties l location required ps = .ok shapes →
      Shape.object doc properties ∈ Shape.partsOf shapes →
      ∃ p ∈ ps, ∃ inner t, Inside (location ++ "." ++ p.1) p.2 inner t ∧
        resolve l inner t = .ok (.object doc properties)
  | [], _, _, _, _, hpart => by
    rw [Shape.partsOf] at hpart
    cases hpart
  | (_, shape) :: shapes, location, required, [], h, _ => by
    rw [resolveProperties] at h
    cases h
  | (_, shape) :: shapes, location, required, (name, s) :: rest, h, hpart => by
    obtain ⟨-, hshape, hproperties⟩ := resolveProperties_eq_cons_iff.mp h
    rw [Shape.partsOf, List.mem_append] at hpart
    rw [List.exists_mem_cons_iff]
    rcases hpart with hpart | hpart
    · exact .inl (exists_inside_of_part hshape hpart)
    · exact .inr (exists_inside_of_partsOf hproperties hpart)

end

end Resolving

/-! ### Writing -/

section Writing

variable {l : Lexicon} {lifted : List (Schema × Interface)}

theorem RendersAll.append {required : List String} : ∀ {ps qs : List (String × Schema)}
    {ms ns : List Member}, RendersAll l lifted required ps ms → RendersAll l lifted required qs ns →
    RendersAll l lifted required (ps ++ qs) (ms ++ ns)
  | _, _, _, _, .nil, h' => h'
  | _, _, _, _, .cons hs h, h' => .cons hs (h.append h')

/-- Choosing the members that are required, or the others, is choosing their properties. -/
theorem RendersAll.filter {required : List String} (q : Bool → Bool) :
    ∀ {ps : List (String × Schema)} {ms : List Member}, RendersAll l lifted required ps ms →
      RendersAll l lifted required (ps.filter fun p => q (required.contains p.1))
        (ms.filter fun m => q (!m.optional))
  | _, _, .nil => .nil
  | _, _, .cons hs h => by
    rw [List.filter_cons, List.filter_cons]
    simp only [Bool.not_not]
    split
    · exact .cons hs (h.filter q)
    · exact h.filter q

/-- Members that stand in the order of the document are arranged by putting the required first. -/
theorem RendersAll.membersOf {s : Schema} {ms : List Member}
    (h : RendersAll l lifted s.facets.required s.properties ms) :
    MembersOf l lifted s (requiredFirst ms) := by
  have hrequired := h.filter fun listed => listed
  have hothers := (h.filter fun listed => !listed)
  simp only [Bool.not_not] at hothers
  exact hrequired.append hothers

/-- What is neither an object nor an array is written as it is. -/
theorem Renders.plain {location : String} {s : Schema} {shape : Shape}
    (h : resolve l location s = .ok shape)
    (hobject : ∀ doc properties, shape ≠ .object doc properties)
    (harray : ∀ item, shape ≠ .array item) : Renders l lifted s shape.inline := by
  refine .other (isObjectType_eq_false h hobject) (fun href hkeyword => ?_)
    ⟨location, shape, h, rfl⟩
  rw [resolve_array href hkeyword] at h
  obtain ⟨item, -, rfl⟩ := map_eq_ok_iff.mp h
  exact absurd rfl (harray item)

/-- Each of the full texts has a name, and a lifted interface of this name stands for objects with
the text. -/
def StandsFor (l : Lexicon) (lifted : List (Schema × Interface)) (n : Naming)
    (keys : List String) : Prop :=
  ∀ k ∈ keys, ∃ e ∈ lifted, n.lookup k = some e.2.name ∧ FullText l e.1 k

/-- Members have the names of the properties, and their marks. -/
theorem RendersAll.marks {required : List String} : ∀ {ps : List (String × Schema)}
    {ms : List Member}, RendersAll l lifted required ps ms →
    ms.map (fun m => (m.name, m.optional)) = ps.map fun p => (p.1, !required.contains p.1)
  | _, _, .nil => rfl
  | _, _, .cons _ h => by rw [List.map_cons, List.map_cons, h.marks]

theorem MembersOf.marks {s : Schema} {ms : List Member} (h : MembersOf l lifted s ms) :
    ms.map (fun m => (m.name, m.optional)) = Types.marks s :=
  RendersAll.marks h

variable {n : Naming} {keys : List String}

mutual

/-- **A shape is written as its schema is arranged**, if every object that it needs is lifted. -/
theorem renders_write (hlifted : StandsFor l lifted n keys) :
    ∀ {shape : Shape} {location : String} {s : Schema},
    resolve l location s = .ok shape → (∀ k ∈ n.needs shape, k ∈ keys) →
    Renders l lifted s (n.write shape)
  | .text type, location, s, h, _ => by
    have hplain : Renders l lifted s (Shape.text type).inline :=
      .plain h (fun _ _ heq => by cases heq) (fun _ heq => by cases heq)
    rwa [Shape.inline] at hplain
  | .union types, location, s, h, _ => by
    have hplain : Renders l lifted s (Shape.union types).inline :=
      .plain h (fun _ _ heq => by cases heq) (fun _ heq => by cases heq)
    rwa [Shape.inline] at hplain
  | .array item, location, s, h, hneeds => by
    obtain ⟨href, hkeyword, hitem⟩ := resolve_eq_array_iff.mp h
    rw [Naming.needs] at hneeds
    rw [Naming.write]
    cases hitems : s.items with
    | none =>
      rw [hitems, resolveItems] at hitem
      cases hitem
      have hobject := isObjectType_eq_false h fun _ _ heq => by cases heq
      refine .other hobject (fun _ _ => hitems) ⟨location, _, h, ?_⟩
      rw [Shape.inline, Shape.inline, Naming.write]
    | some t =>
      rw [hitems, resolveItems] at hitem
      exact .array href hkeyword hitems (renders_write hlifted hitem hneeds)
  | .object doc properties, location, s, h, hneeds => by
    obtain ⟨hobject, -, hproperties⟩ := resolve_eq_object_iff.mp h
    rw [Naming.write]
    cases hname : n.lookup (Shape.object doc properties).inline with
    | none =>
      simp only [Naming.needs, hname] at hneeds
      exact .object hobject (renders_writeMembers hlifted hproperties hneeds).membersOf
    | some name =>
      simp only [Naming.needs, hname, List.mem_singleton, forall_eq] at hneeds
      obtain ⟨e, he, hfound, htext⟩ := hlifted _ hneeds
      have heq : name = e.2.name := Option.some.inj (hname.symm.trans hfound)
      rw [heq]
      exact .named hobject he ⟨location, _, h, rfl⟩ htext

/-- The members of an object in the order of the document. -/
theorem renders_writeMembers (hlifted : StandsFor l lifted n keys) :
    ∀ {properties : List (Property × Shape)} {location : String}
    {required : List String} {ps : List (String × Schema)},
    resolveProperties l location required ps = .ok properties →
    (∀ k ∈ n.needsOf properties, k ∈ keys) →
    RendersAll l lifted required ps (n.writeMembers properties)
  | [], location, required, [], _, _ => by
    rw [Naming.writeMembers]
    exact .nil
  | [], location, required, (name, s) :: rest, h, _ => by
    rw [resolveProperties] at h
    obtain ⟨first, -, h⟩ := bind_eq_ok_iff.mp h
    obtain ⟨others, -, h⟩ := bind_eq_ok_iff.mp h
    cases pure_eq_ok_iff.mp h
  | (_, shape) :: properties, location, required, [], h, _ => by
    rw [resolveProperties] at h
    cases h
  | (p, shape) :: properties, location, required, (name, s) :: rest, h, hneeds => by
    rw [Naming.needsOf, List.forall_mem_append] at hneeds
    obtain ⟨rfl, hshape, hproperties⟩ := resolveProperties_eq_cons_iff.mp h
    rw [Naming.writeMembers]
    exact .cons (renders_write hlifted hshape hneeds.1)
      (renders_writeMembers hlifted hproperties hneeds.2)

end

end Writing

/-! ### Parts and their drafts -/

section Drafts

variable {l : Lexicon} {lifted : List (Schema × Interface)}

theorem mapM_eq_ok_iff {α β ε : Type} {f : α → Except ε β} : ∀ {as : List α} {bs : List β},
    as.mapM f = .ok bs ↔ List.Forall₂ (fun a b => f a = .ok b) as bs
  | [], bs => by
    rw [List.mapM_nil, pure_eq_ok_iff, List.forall₂_nil_left_iff, eq_comm]
  | a :: as, bs => by
    simp only [List.mapM_cons, bind_eq_ok_iff, pure_eq_ok_iff, mapM_eq_ok_iff,
      List.forall₂_cons_left_iff]
    constructor
    · rintro ⟨b, hb, rest, hrest, rfl⟩
      exact ⟨b, rest, hb, hrest, rfl⟩
    · rintro ⟨b, rest, hb, hrest, rfl⟩
      exact ⟨b, hb, rest, hrest, rfl⟩

/-- The drafts of a lexicon are those of its parts, one by one. -/
theorem forall₂_draft_of_allDrafts {drafts : List Draft} (h : allDrafts l = .ok drafts) :
    List.Forall₂ (fun part d => Part.draft l part = .ok d) (allParts l) drafts := by
  rw [allDrafts_eq_mapM, bind_eq_ok_iff] at h
  obtain ⟨e, he, h⟩ := h
  have hprimary : l.primary? = some e := by
    unfold Lexicon.primary at he
    split at he
    · next found hfound =>
      cases he
      exact hfound
    · cases he
  rw [allParts, hprimary, Option.toList_some, List.flatMap_singleton]
  exact mapM_eq_ok_iff.mp h

theorem rendersPart_write {part : Part} {d : Draft} {n : Naming} {keys : List String}
    (hlifted : StandsFor l lifted n keys) (hd : part.draft l = .ok d)
    (hneeds : ∀ k ∈ d.needs n, k ∈ keys) : RendersPart l lifted part (d.write n) := by
  cases part with
  | interface name location doc discriminant s =>
    rw [Part.draft, interfaceOf] at hd
    obtain ⟨properties, hproperties, rfl⟩ := map_eq_ok_iff.mp hd
    exact .interface (renders_writeMembers hlifted hproperties hneeds).membersOf
  | typed name location doc s =>
    obtain ⟨shape, hshape, rfl⟩ := map_eq_ok_iff.mp hd
    exact .typed (renders_write hlifted hshape hneeds)
  | fixed name doc type =>
    cases hd
    have hfixed : RendersPart l lifted (.fixed name doc type) (.alias ⟨name, type, docOf doc⟩) :=
      .fixed
    rwa [Draft.write, Naming.write]

theorem holds_of_part {part : Part} {d : Draft} (hd : part.draft l = .ok d) {doc : Option String}
    {properties : List (Property × Shape)} (hpart : Shape.object doc properties ∈ d.parts) :
    ∃ location t, part.Holds location t ∧ resolve l location t = .ok (.object doc properties) := by
  cases part with
  | interface name location _ discriminant s =>
    rw [Part.draft, interfaceOf] at hd
    obtain ⟨shapes, hshapes, rfl⟩ := map_eq_ok_iff.mp hd
    obtain ⟨p, hp, inner, t, hinside, ht⟩ := exists_inside_of_partsOf hshapes hpart
    exact ⟨inner, t, .property hp hinside, ht⟩
  | typed name location _ s =>
    obtain ⟨shape, hshape, rfl⟩ := map_eq_ok_iff.mp hd
    obtain ⟨inner, t, hinside, ht⟩ := exists_inside_of_part hshape hpart
    exact ⟨inner, t, .typed hinside, ht⟩
  | fixed name _ type =>
    cases hd
    rw [Draft.parts, Shape.parts, List.mem_singleton] at hpart
    cases hpart

/-- Every lifted object is the shape of a schema that is met in a part. -/
theorem exists_schema_of_lifted {drafts : List Draft} (h : allDrafts l = .ok drafts) {o : Lifted}
    (ho : o ∈ Draft.liftAll (Naming.ofDrafts drafts) [] drafts) :
    ∃ s, ∃ part ∈ allParts l, ∃ location, part.Holds location s ∧
      resolve l location s = .ok (.object o.doc o.properties) := by
  obtain ⟨d, hd, hpart⟩ := List.mem_flatMap.mp (mem_parts_of_mem_liftAll ho)
  obtain ⟨part, hmem, hdraft⟩ := exists_mem_of_forall₂ (forall₂_draft_of_allDrafts h).flip hd
  obtain ⟨location, s, hholds, hs⟩ := holds_of_part hdraft hpart
  exact ⟨s, part, hmem, location, hholds, hs⟩

end Drafts

/-! ### Lexicons -/

theorem arranged_of_allDrafts {l : Lexicon} {drafts : List Draft} (h : allDrafts l = .ok drafts) :
    ∃ own lifted, declare drafts = own ++ lifted.map (fun e => Declaration.interface e.2) ∧
      Arranged l own lifted := by
  let n := Naming.ofDrafts drafts
  let objects := Draft.liftAll n [] drafts
  choose! schemaOf hschemaOf using fun (o : Lifted) (ho : o ∈ objects) =>
    exists_schema_of_lifted h ho
  let lifted := objects.map fun o => (schemaOf o, n.interface o)
  have hstands : StandsFor l lifted n (objects.map Lifted.key) := by
    intro k hk
    obtain ⟨o, ho, rfl⟩ := List.mem_map.mp hk
    obtain ⟨part, -, location, -, hs⟩ := hschemaOf o ho
    exact ⟨(schemaOf o, n.interface o), List.mem_map_of_mem ho, lookup_key_of_mem_liftAll ho,
      location, _, hs, rfl⟩
  have hmembers : ∀ e ∈ lifted, MembersOf l lifted e.1 e.2.members := by
    intro e he
    obtain ⟨o, ho, rfl⟩ := List.mem_map.mp he
    obtain ⟨part, -, location, -, hs⟩ := hschemaOf o ho
    obtain ⟨-, -, hproperties⟩ := resolve_eq_object_iff.mp hs
    refine (renders_writeMembers hstands hproperties fun k hk => ?_).membersOf
    exact mem_keys_liftAll n drafts (.inr ⟨o, ho, hk⟩)
  refine ⟨drafts.map (Draft.write n), lifted, ?_, ?_⟩
  · rw [declare, List.map_map]
    rfl
  constructor
  case parts =>
    have hdrafts : List.Forall₂ (fun d part => d ∈ drafts ∧ Part.draft l part = .ok d) drafts
        (allParts l) :=
      (List.forall₂_and_left _ _).mpr ⟨fun _ hd => hd, (forall₂_draft_of_allDrafts h).flip⟩
    refine List.forall₂_map_right_iff.mpr (hdrafts.flip.imp fun part d hd => ?_)
    refine rendersPart_write hstands hd.2 fun k hk => ?_
    exact mem_keys_liftAll n drafts (.inl (List.mem_flatMap.mpr ⟨d, hd.1, hk⟩))
  case members => exact hmembers
  case named =>
    intro hl e he s text hs hstext hetext
    obtain ⟨o, ho, rfl⟩ := List.mem_map.mp he
    obtain ⟨part, -, location, -, hshape⟩ := hschemaOf o ho
    have hobject := (resolve_eq_object_iff.mp hshape).1
    rw [marks_eq_of_fullText hl hs hobject hstext hetext]
    exact (hmembers _ he).marks
  case met =>
    intro e he
    obtain ⟨o, ho, rfl⟩ := List.mem_map.mp he
    obtain ⟨part, hpart, location, hholds, hs⟩ := hschemaOf o ho
    exact ⟨(resolve_eq_object_iff.mp hs).1, part, hpart, location, hholds⟩

/-- **Object members are the properties, the required ones first.** In the declarations of a lexicon
every object, at every depth, has the properties of its schema as members, first those that are
listed as required and then the others, in the order of the document; a member may be left out
exactly if it is not listed. Nothing else about the lists of required names changes a
declaration. -/
theorem arranged_declarations (l : Lexicon) :
    (∀ ds, declarations l = .ok ds → ∃ own lifted,
      ds = own ++ lifted.map (fun e => Declaration.interface e.2) ∧ Arranged l own lifted) ∧
    ∀ l', SameDemands l l' → declarations l' = declarations l ∧ generate l' = generate l := by
  refine ⟨fun ds h => ?_, fun l' h => ?_⟩
  · obtain ⟨drafts, hdrafts, -, -, rfl⟩ := declarations_eq_ok_iff.mp h
    exact arranged_of_allDrafts hdrafts
  · exact ⟨(declarations_eq_of_sameDemands h).symm, (generate_eq_of_sameDemands h).symm⟩

/-- Notes about places, with the given names listed as required. -/
def placedNotes (required : List String) : Lexicon :=
  let place : Schema := ⟨{ keyword := some .object, required := ["line"] },
    [("near", textSchema), ("line", textSchema)], none⟩
  noteLexicon [("main", .record { schema := some ⟨{ keyword := some .object, required := required },
    [("from", listSchema place), ("text", textSchema), ("to", place)], none⟩ })]

/-- What `placedNotes` declares if the text is required. -/
def placedModule : List Declaration := [
  .interface ⟨"Note", none, [⟨"$type", "'com.example.note'", none, false⟩,
    ⟨"text", "string", none, false⟩, ⟨"from", "NoteFromItem[]", none, true⟩,
    ⟨"to", "NoteFromItem", none, true⟩]⟩,
  .interface ⟨"NoteFromItem", none, [⟨"line", "string", none, false⟩,
    ⟨"near", "string", none, true⟩]⟩]

theorem arranged_placedNotes :
    SameDemands (placedNotes ["text"]) (placedNotes ["missing", "text", "line", "text"]) ∧
    declarations (placedNotes ["missing", "text", "line", "text"]) = .ok placedModule ∧
    ∃ own lifted, placedModule = own ++ lifted.map (fun e => Declaration.interface e.2) ∧
      Arranged (placedNotes ["text"]) own lifted := by
  have hsame :
      SameDemands (placedNotes ["text"]) (placedNotes ["missing", "text", "line", "text"]) := by
    rfl
  have hdeclared : declarations (placedNotes ["text"]) = .ok placedModule := by rfl
  obtain ⟨harranged, hdemands⟩ := arranged_declarations (placedNotes ["text"])
  exact ⟨hsame, (hdemands _ hsame).1.trans hdeclared, harranged _ hdeclared⟩

/-- A place with two properties, whose types are named with a quote. -/
def spotSchema : Schema := objectSchema [("at", ⟨{ ref := some "#'up" }, [], none⟩),
  ("to", ⟨{ ref := some "#end'" }, [], none⟩)]

/-- Notes with such places behind an object with one property. Its type is a literal that reads like
the two members of a place. -/
def spottedNotes : Lexicon :=
  let literal : Schema :=
    ⟨{ keyword := some .string, literals := [.string "up; to?: End"] }, [], none⟩
  let far := objectSchema [("at", literal)]
  noteLexicon [("main", recordOf [("far", far), ("near", spotSchema), ("next", spotSchema)]),
    ("'up", .schema textSchema), ("end'", .schema textSchema)]

/-- Type names that are no identifiers can give different objects the same full text, and then one
of them stands by the name of an interface with other members. -/
theorem not_named_spottedNotes : ∃ i, declarations spottedNotes = .ok [
      .interface ⟨"Note", none, [⟨"$type", "'com.example.note'", none, false⟩,
        ⟨"far", i.name, none, true⟩, ⟨"near", i.name, none, true⟩, ⟨"next", i.name, none, true⟩]⟩,
      .alias ⟨"'up", "string", none⟩, .alias ⟨"End'", "string", none⟩, .interface i] ∧
    spotSchema.isObjectType = true ∧ marks spotSchema = [("at", true), ("to", true)] ∧
    i.members.map (fun m => (m.name, m.optional)) = [("at", true)] :=
  ⟨⟨"NoteFar", none, [⟨"at", "'up; to?: End'", none, true⟩]⟩, by rfl, by rfl, by rfl, by rfl⟩

end Lexgen.Types
