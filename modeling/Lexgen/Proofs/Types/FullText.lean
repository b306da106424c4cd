/-
# What the full text of an object tells

An object schema is written with its properties in one arrangement: those that are listed as
required, then the others, both in the order of the document. Written out in full on one line, this
arrangement can be read from the text: where all type names are identifiers, no type has the end of
a member at its top, so the text falls into its members in one way only (`intercalate_injective`),
and each member tells its name and its mark. Hence objects with the same full text have the same
properties in the same order (`marks_eq_of_fullText`).

Key definitions: `Schema.isObjectType`, `Schema.arrangement`, `FullText`, `marks`.
Key theorems: `resolve_eq_object_iff`, `intercalate_injective`, `marks_eq_of_fullText`.
-/
import Lexgen.Proofs.Types.Parentheses

namespace Lexgen.Lexicon.Schema

/-- Whether the schema is written as an object type. -/
def isObjectType (s : Schema) : Bool := s.isShape && s.reference?.isNone

/-- The properties as they are written: first those that are listed as required, then the others,
both in the order of the document. -/
def arrangement (s : Schema) : List (String × Schema) :=
  s.properties.filter (fun p => s.isRequired p.1) ++
    s.properties.filter (fun p => !s.isRequired p.1)

/-- Every property stands in the arrangement as often as in the document. -/
theorem arrangement_perm (s : Schema) : s.arrangement.Perm s.properties :=
  List.filter_append_perm ..

theorem isObjectType_iff {s : Schema} :
    s.isObjectType = true ↔ s.isShape = true ∧ s.reference? = none := by
  rw [isObjectType, Bool.and_eq_true, Option.isNone_iff_eq_none]

end Lexgen.Lexicon.Schema

namespace Lexgen.Types

open Lexgen.Lexicon Lexgen.TypeScript Lexgen.Data Lexgen.Name

/-- The text of a schema with every object in it written in place. -/
def FullText (l : Lexicon) (s : Schema) (text : String) : Prop :=
  ∃ location shape, resolve l location s = .ok shape ∧ shape.inline = text

/-! ### The shape of an object schema -/

section Resolving

variable {l : Lexicon} {location : String}

theorem resolve_eq_object_iff {s : Schema} {doc : Option String}
    {properties : List (Property × Shape)} :
    resolve l location s = .ok (.object doc properties) ↔ s.isObjectType = true ∧
      docOf s.description = doc ∧
      resolveProperties l location s.facets.required s.properties = .ok properties := by
  constructor
  · intro h
    obtain ⟨f, ps, it⟩ := s
    unfold resolve at h
    split at h
    · obtain ⟨type, -, hshape⟩ := map_eq_ok_iff.mp h
      cases hshape
    · next href =>
      split at h
      · obtain ⟨shape, -, hshape⟩ := map_eq_ok_iff.mp h
        cases hshape
      · obtain ⟨types, -, hshape⟩ := map_eq_ok_iff.mp h
        cases hshape
      · split at h
        · next hisShape =>
          obtain ⟨found, hfound, hshape⟩ := map_eq_ok_iff.mp h
          cases hshape
          exact ⟨Schema.isObjectType_iff.mpr ⟨hisShape, href⟩, rfl, hfound⟩
        · cases h
  · rintro ⟨hobject, rfl, hproperties⟩
    obtain ⟨hshape, href⟩ := Schema.isObjectType_iff.mp hobject
    rw [resolve_of_isShape href hshape, hproperties]
    rfl

theorem resolveProperties_eq_cons_iff {required : List String} {name : String} {s : Schema}
    {rest : List (String × Schema)} {p : Property} {shape : Shape}
    {shapes : List (Property × Shape)} :
    resolveProperties l location required ((name, s) :: rest) = .ok ((p, shape) :: shapes) ↔
      propertyOf required name s = p ∧ resolve l (location ++ "." ++ name) s = .ok shape ∧
      resolveProperties l location required rest = .ok shapes := by
  rw [resolveProperties]
  constructor
  · intro h
    obtain ⟨first, hfirst, h⟩ := bind_eq_ok_iff.mp h
    obtain ⟨others, hothers, h⟩ := bind_eq_ok_iff.mp h
    have hcons := pure_eq_ok_iff.mp h
    rw [List.cons.injEq, Prod.mk.injEq] at hcons
    obtain ⟨⟨hp, rfl⟩, rfl⟩ := hcons
    exact ⟨hp, hfirst, hothers⟩
  · rintro ⟨rfl, hfirst, hothers⟩
    rw [hfirst, hothers]
    rfl

/-- Each property of an object has its name and its mark from the schema. -/
theorem marks_resolveProperties {required : List String} : ∀ {ps : List (String × Schema)}
    {properties : List (Property × Shape)},
    resolveProperties l location required ps = .ok properties →
    properties.map (fun e => (e.1.name, e.1.optional)) =
      ps.map fun p => (p.1, !required.contains p.1)
  | [], properties, h => by
    rw [resolveProperties] at h
    cases h
    rfl
  | (name, s) :: rest, [], h => by
    rw [resolveProperties] at h
    obtain ⟨first, -, h⟩ := bind_eq_ok_iff.mp h
    obtain ⟨others, -, h⟩ := bind_eq_ok_iff.mp h
    cases pure_eq_ok_iff.mp h
  | (name, s) :: rest, (p, shape) :: shapes, h => by
    obtain ⟨rfl, -, hshapes⟩ := resolveProperties_eq_cons_iff.mp h
    rw [List.map_cons, List.map_cons, marks_resolveProperties hshapes]
    rfl

end Resolving

/-! ### One way to fall into members -/

/-- Two texts are cut at the first character that stands at their top in one way only. -/
theorem cut_at_top {c : Char} {as bs rest rest' : List Char} (ha : Sealed [c] as)
    (hb : Sealed [c] bs) (h : as ++ c :: rest = bs ++ c :: rest') : as = bs ∧ rest = rest' := by
  have hfound {xs more : List Char} (hx : Bracketed xs) :
      foundAtTop c {} (xs ++ c :: more) = true := by
    rw [foundAtTop_append, hx.ends, foundAtTop]
    simp [Scan.atTop]
  have hhidden {xs more : List Char} (hx : Bracketed xs) (hs : Sealed [c] (xs ++ c :: more)) :
      False := by
    have hnone := hs.absent c (List.mem_singleton_self c)
    rw [hfound hx] at hnone
    cases hnone
  rcases List.append_eq_append_iff.mp h with ⟨between, rfl, hrest⟩ | ⟨between, rfl, hrest⟩
  · cases between with
    | nil => exact ⟨(List.append_nil as).symm, (List.cons.inj hrest).2⟩
    | cons d more =>
      obtain rfl := (List.cons.inj hrest).1
      exact (hhidden ha.toBracketed hb).elim
  · cases between with
    | nil => exact ⟨List.append_nil bs, (List.cons.inj hrest).2.symm⟩
    | cons d more =>
      obtain rfl := (List.cons.inj hrest).1
      exact (hhidden hb.toBracketed ha).elim

theorem intercalate_eq_cons_cons (t u : String) (ts : List String) :
    ("; ".intercalate (t :: u :: ts)).toList =
      t.toList ++ ';' :: (' ' :: ("; ".intercalate (u :: ts)).toList) := by
  rw [String.intercalate_cons_cons, String.toList_append, String.toList_append, List.append_assoc]
  rfl

/-- A text without an end of a member at its top is no list of several texts. -/
theorem ne_intercalate {t : String} (ht : Sealed memberEnds t.toList) {u v : String}
    {us : List String} (hu : Sealed memberEnds u.toList) :
    t ≠ "; ".intercalate (u :: v :: us) := by
  intro h
  have hnone := ht.absent ';' (List.mem_singleton_self ';')
  rw [h, intercalate_eq_cons_cons, foundAtTop_append, hu.ends, foundAtTop] at hnone
  simp [Scan.atTop] at hnone

/-- **Members in a row can be told apart**, if none has the end of a member at its top. -/
theorem intercalate_injective : ∀ {ts us : List String},
    (∀ t ∈ ts, Sealed memberEnds t.toList) → (∀ u ∈ us, Sealed memberEnds u.toList) →
    ts ≠ [] → us ≠ [] → "; ".intercalate ts = "; ".intercalate us → ts = us
  | [t], [u], _, _, _, _, h => by
    rw [String.intercalate_singleton, String.intercalate_singleton] at h
    rw [h]
  | [t], u :: v :: us, ht, hu, _, _, h => by
    rw [String.intercalate_singleton] at h
    exact absurd h (ne_intercalate (ht t (by simp)) (hu u (by simp)))
  | t :: t' :: ts, [u], ht, hu, _, _, h => by
    rw [String.intercalate_singleton] at h
    exact absurd h.symm (ne_intercalate (hu u (by simp)) (ht t (by simp)))
  | t :: t' :: ts, u :: u' :: us, ht, hu, _, _, h => by
    have hchars := congrArg String.toList h
    rw [intercalate_eq_cons_cons, intercalate_eq_cons_cons] at hchars
    obtain ⟨hfirst, hrest⟩ := cut_at_top (ht t (by simp)) (hu u (by simp)) hchars
    have hothers : t' :: ts = u' :: us := by
      refine intercalate_injective (fun x hx => ht x (List.mem_cons_of_mem t hx))
        (fun x hx => hu x (List.mem_cons_of_mem u hx)) (by simp) (by simp) ?_
      exact String.toList_inj.mp (List.cons.inj hrest).2
    rw [String.toList_inj.mp hfirst, hothers]

theorem sealed_signature {m : Member} (h : Sealed memberEnds m.type.toList) :
    Sealed memberEnds m.signature.toList := by
  have hkey : Sealed memberEnds (propertyKey m.name).toList :=
    sealed_propertyKey (by decide) (List.forall_mem_singleton.mpr (by decide)) m.name
  have hmark : Sealed memberEnds (if m.optional then "?" else "").toList := by
    split <;> decide
  have hcolon : Sealed memberEnds ": ".toList := by decide
  simp only [Member.signature, String.toList_append]
  exact ((hkey.append hmark).append hcolon).append h

theorem map_eq_of_map_eq {α β γ : Type} {f : α → β} {g : α → γ}
    (h : ∀ a b, f a = f b → g a = g b) : ∀ {as bs : List α}, as.map f = bs.map f →
    as.map g = bs.map g
  | [], [], _ => rfl
  | [], b :: bs, hmap => by cases hmap
  | a :: as, [], hmap => by cases hmap
  | a :: as, b :: bs, hmap => by
    rw [List.map_cons, List.map_cons, List.cons.injEq] at hmap ⊢
    exact ⟨h a b hmap.1, map_eq_of_map_eq h hmap.2⟩

/-- **The text of an object type tells its members**: their names, their marks and their types. -/
theorem inlineObject_injective {ms ns : List Member}
    (hms : ∀ m ∈ ms, Sealed memberEnds m.type.toList)
    (hns : ∀ m ∈ ns, Sealed memberEnds m.type.toList) (hne : ms ≠ []) (hne' : ns ≠ [])
    (h : inlineObject ms = inlineObject ns) :
    ms.map (fun m => (m.name, m.optional, m.type)) =
      ns.map fun m => (m.name, m.optional, m.type) := by
  have hsealed {l : List Member} (hl : ∀ m ∈ l, Sealed memberEnds m.type.toList) :
      ∀ t ∈ l.map Member.signature, Sealed memberEnds t.toList := by
    intro t ht
    obtain ⟨m, hm, rfl⟩ := List.mem_map.mp ht
    exact sealed_signature (hl m hm)
  have hinner : "; ".intercalate (ms.map Member.signature) =
      "; ".intercalate (ns.map Member.signature) := by
    rw [inlineObject, inlineObject, if_neg (by simpa using hne), if_neg (by simpa using hne'),
      ← String.toList_inj, String.toList_append, String.toList_append, String.toList_append,
      String.toList_append, List.append_left_inj, List.append_right_inj] at h
    exact String.toList_inj.mp h
  refine map_eq_of_map_eq (fun m n hmn => ?_) (intercalate_injective (hsealed hms) (hsealed hns)
    (by simpa using hne) (by simpa using hne') hinner)
  obtain ⟨hname, hoptional, htype⟩ := signature_injective hmn
  rw [hname, hoptional, htype]

/-! ### Objects with the same text -/

/-- The names of properties in their arrangement, with the marks of those that may be left out. -/
def marks (s : Schema) : List (String × Bool) :=
  s.arrangement.map fun p => (p.1, !s.isRequired p.1)

/-- Putting the required members first is putting the required properties first. -/
theorem marks_requiredFirst {s : Schema} {ms : List Member}
    (h : ms.map (fun m => (m.name, m.optional)) =
      s.properties.map fun p => (p.1, !s.isRequired p.1)) :
    (requiredFirst ms).map (fun m => (m.name, m.optional)) = marks s := by
  have hmembers (q : Bool → Bool) : (ms.filter fun m => q m.optional).map
      (fun m => (m.name, m.optional)) =
      (ms.map fun m => (m.name, m.optional)).filter fun e => q e.2 := by
    rw [List.filter_map]
    rfl
  have hproperties (q : Bool → Bool) : (s.properties.filter fun p => q (!s.isRequired p.1)).map
      (fun p => (p.1, !s.isRequired p.1)) =
      (s.properties.map fun p => (p.1, !s.isRequired p.1)).filter fun e => q e.2 := by
    rw [List.filter_map]
    rfl
  have hrequired := hproperties (! ·)
  simp only [Bool.not_not] at hrequired
  rw [requiredFirst, marks, Schema.arrangement, List.map_append, List.map_append, hmembers (! ·),
    hmembers fun b => b, h, hrequired, hproperties fun b => b]

section Lexicons

variable {l : Lexicon} (hl : ∀ e ∈ l.defs.entries, isIdentifier (l.typeName e.1) = true)

include hl

/-- The full text of an object schema is that of members with its marks. -/
theorem exists_members_of_fullText {s : Schema} {text : String} (hs : s.isObjectType = true)
    (h : FullText l s text) : ∃ ms, inlineObject ms = text ∧ ms ≠ [] ∧
      (∀ m ∈ ms, Sealed memberEnds m.type.toList) ∧
      ms.map (fun m => (m.name, m.optional)) = marks s := by
  obtain ⟨location, shape, hshape, rfl⟩ := h
  have hsealed := sealed_of_resolvesTo hl (resolvesTo_resolve hshape)
  obtain ⟨hisShape, href⟩ := Schema.isObjectType_iff.mp hs
  obtain ⟨properties, hproperties, rfl⟩ := map_eq_ok_iff.mp
    (resolve_of_isShape href hisShape ▸ hshape)
  have hmarks := marks_resolveProperties hproperties
  have hmembers : (Shape.inlineMembers properties).map (fun m => (m.name, m.optional)) =
      s.properties.map fun p => (p.1, !s.isRequired p.1) := by
    rw [Shape.inlineMembers_eq_map, List.map_map]
    exact hmarks
  have htold := marks_requiredFirst hmembers
  rw [Shape.texts] at hsealed
  refine ⟨requiredFirst (Shape.inlineMembers properties), by rw [Shape.inline], ?_,
    fun m hm => sealed_inlineMembers hsealed m (mem_requiredFirst.mp hm), htold⟩
  intro hnil
  have hnone : s.properties = [] := by
    rw [hnil, List.map_nil, eq_comm, marks, List.map_eq_nil_iff] at htold
    exact List.Perm.nil_eq (htold ▸ s.arrangement_perm) |>.symm
  simp [Schema.isShape, hnone] at hisShape

/-- **Objects with the same full text have the same arrangement**: the same names in the same order,
with the same marks. -/
theorem marks_eq_of_fullText {s t : Schema} {text : String} (hs : s.isObjectType = true)
    (ht : t.isObjectType = true) (hstext : FullText l s text) (httext : FullText l t text) :
    marks s = marks t := by
  obtain ⟨ms, hms, hne, hsealed, hmarks⟩ := exists_members_of_fullText hl hs hstext
  obtain ⟨ns, hns, hne', hsealed', hmarks'⟩ := exists_members_of_fullText hl ht httext
  have htold := inlineObject_injective hsealed hsealed' hne hne' (hms.trans hns.symm)
  have htwo := congrArg (List.map fun e => (e.1, e.2.1)) htold
  rw [List.map_map, List.map_map] at htwo
  rw [← hmarks, ← hmarks']
  exact htwo

end Lexicons

end Lexgen.Types
