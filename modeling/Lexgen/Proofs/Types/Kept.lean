/-
# Lifting keeps every type

An array puts its item in parentheses if the text of the item has a bar outside of quotes and
brackets. Where an object is lifted, its name stands in this text, so the parentheses could be
others than those of the full text. Identifiers change none: either both texts have such a bar or
none of them has (`barAtTop_write`). All names are identifiers if the type names of a lexicon are
and the properties that lead to its objects are nameable (`isIdentifier_of_mem_ofDrafts`). Then each
declaration unfolds to the plain one with the parentheses as they were written
(`unfolds_bracketsKept`). `KeepsTypes` puts together all that lifting keeps, and
`keepsTypes_declarations` says that it does so for every lexicon that has declarations.

Key definitions: `KeepsTypes`.
Key theorems: `barAtTop_write`, `isIdentifier_of_mem_ofDrafts`, `unfolds_bracketsKept`,
`keepsTypes_declarations`.
-/
import Lexgen.Proofs.Types.Identifiers
import Lexgen.Proofs.Types.Parentheses
import Lexgen.Proofs.Types.Plain

namespace Lexgen.Types

open Lexgen.Data Lexgen.Lexicon Lexgen.Name Lexgen.TypeScript

/-! ### Brackets of arrays -/

theorem suffixes_brackets (n : Naming) (parts : List Shape) : Suffixes brackets n parts :=
  fun _ _ => rfl

theorem suffixes_bracketsKept {n : Naming} {parts : List Shape}
    (h : ∀ item, Shape.array item ∈ parts →
      barAtTop {} (n.write item).toList = barAtTop {} item.inline.toList) :
    Suffixes bracketsKept n parts := by
  intro item hitem
  rw [bracketsKept, arrayOf, Naming.type_mark, h item hitem]

/-- **Identifiers change no parentheses**: a text with names in it has a bar at its top exactly if
the full text has one. -/
theorem barAtTop_write {n : Naming} (hn : ∀ e ∈ n, isIdentifier e.2 = true) {shape : Shape}
    (h : ∀ t ∈ shape.texts, Sealed memberEnds t.toList) :
    barAtTop {} (n.write shape).toList = barAtTop {} shape.inline.toList := by
  cases shape with
  | text type => rw [Naming.write, Shape.inline]
  | union types => rw [Naming.write, Shape.inline]
  | array item =>
    rw [Shape.texts] at h
    rw [Naming.write, Shape.inline, (single_arrayOf (sealed_write hn h).toBracketed).noBar,
      (single_arrayOf (sealed_inline h).toBracketed).noBar]
  | object doc properties =>
    rw [Shape.texts] at h
    rw [(single_write_object hn h).noBar, (single_inline_object h).noBar]

/-! ### The texts of parts -/

mutual

/-- A part is put together from texts of the whole. -/
theorem mem_texts_of_mem_parts {t : String} {part : Shape} (ht : t ∈ part.texts) :
    ∀ {s : Shape}, part ∈ s.parts → t ∈ s.texts
  | .text _, h => by
    rw [Shape.parts, List.mem_singleton] at h
    exact h ▸ ht
  | .union _, h => by
    rw [Shape.parts, List.mem_singleton] at h
    exact h ▸ ht
  | .array item, h => by
    rw [Shape.parts, List.mem_cons] at h
    rcases h with rfl | h
    · exact ht
    · rw [Shape.texts]
      exact mem_texts_of_mem_parts ht h
  | .object _ properties, h => by
    rw [Shape.parts, List.mem_cons] at h
    rcases h with rfl | h
    · exact ht
    · rw [Shape.texts]
      exact mem_textsOf_of_mem_partsOf ht h

theorem mem_textsOf_of_mem_partsOf {t : String} {part : Shape} (ht : t ∈ part.texts) :
    ∀ {ps : List (Property × Shape)}, part ∈ Shape.partsOf ps → t ∈ Shape.textsOf ps
  | (p, s) :: rest, h => by
    rw [Shape.partsOf, List.mem_append] at h
    rw [Shape.textsOf, List.mem_append]
    exact h.imp (mem_texts_of_mem_parts ht) (mem_textsOf_of_mem_partsOf ht)

end

theorem Draft.mem_texts_of_mem_parts {d : Draft} {t : String} {part : Shape} (ht : t ∈ part.texts)
    (h : part ∈ d.parts) : t ∈ d.texts :=
  match d with
  | .interface _ _ _ _ => mem_textsOf_of_mem_partsOf ht h
  | .alias _ _ _ => Types.mem_texts_of_mem_parts ht h

/-! ### Lexicons whose names are identifiers -/

section Lexicons

variable {l : Lexicon} {drafts : List Draft} (h : allDrafts l = .ok drafts)
  (hl : ∀ e ∈ l.defs.entries, isIdentifier (l.typeName e.1) = true)

include h hl

/-- The texts of all drafts are bracketed and end no member. -/
theorem sealed_of_mem_texts {d : Draft} (hd : d ∈ drafts) :
    ∀ t ∈ d.texts, Sealed memberEnds t.toList := by
  obtain ⟨p, hp, bs, hbs, rfl⟩ := allDrafts_eq_ok_iff.mp h
  obtain ⟨block, hblock, hmem⟩ := List.mem_flatten.mp hd
  obtain ⟨e, -, hok⟩ := exists_mem_of_forall₂ hbs.flip hblock
  intro t ht
  exact sealed_of_resolvesTo hl (resolvesTo_draftsOf hok) t (List.mem_flatMap.mpr ⟨d, hmem, ht⟩)

variable (hsites : ∀ site ∈ drafts.flatMap Draft.sites, ∀ name, .property name ∈ site.path →
  Nameable name)

include hsites

/-- If all properties are nameable that lead to objects, all objects are called by identifiers. -/
theorem isIdentifier_of_mem_ofDrafts : ∀ e ∈ Naming.ofDrafts drafts, isIdentifier e.2 = true := by
  intro e he
  obtain ⟨site, hsite, hiff⟩ :=
    isIdentifier_iff_of_mem_ofDrafts (isIdentifier_name_of_mem_allDrafts h hl) he
  exact hiff.mpr (hsites site (List.mem_of_find?_eq_some hsite))

/-- **Lifting changes no type and no parentheses** where all names are identifiers: the declaration
of each draft unfolds to the plain one with the parentheses as they were written. -/
theorem unfolds_bracketsKept : ∀ d ∈ drafts,
    (d.mark (Naming.ofDrafts drafts)).Unfolds bracketsKept (markedLifted drafts) d.plain := by
  intro d hd
  refine unfolds_draft (suffixes_bracketsKept fun item hitem => ?_) hd
  obtain ⟨outer, houter, hpart⟩ := List.mem_flatMap.mp hitem
  refine barAtTop_write (isIdentifier_of_mem_ofDrafts h hl hsites) fun t ht => ?_
  refine sealed_of_mem_texts h hl houter t (Draft.mem_texts_of_mem_parts ?_ hpart)
  rwa [Shape.texts]

end Lexicons

/-! ### What lifting keeps -/

/-- What lifting keeps of the types of a lexicon: `ds` are the declarations of its drafts, the names
of lifted objects standing where the plain declarations have the objects themselves. -/
structure KeepsTypes (l : Lexicon) (drafts : List Draft) (ds : List Declaration) : Prop where
  /-- The declarations are those of the drafts, then the lifted interfaces. -/
  written : ds = (markedModule drafts).map MarkedDeclaration.written
  /-- Each draft's declaration unfolds to the plain one. -/
  unfolds : ∀ d ∈ drafts,
    (d.mark (Naming.ofDrafts drafts)).Unfolds brackets (markedLifted drafts) d.plain
  /-- It does so with brackets as they were written, where no array needs them for its item as it is
  written and not for its full text, or the other way round. -/
  unfolds_kept : (∀ item, Shape.array item ∈ drafts.flatMap Draft.parts →
      barAtTop {} ((Naming.ofDrafts drafts).write item).toList =
        barAtTop {} item.inline.toList) →
    ∀ d ∈ drafts,
      (d.mark (Naming.ofDrafts drafts)).Unfolds bracketsKept (markedLifted drafts) d.plain
  /-- So it does where all names are identifiers: the type names are, and all properties that lead
  to objects are nameable. -/
  unfolds_nameable : (∀ e ∈ l.defs.entries, isIdentifier (l.typeName e.1) = true) →
    (∀ site ∈ drafts.flatMap Draft.sites, ∀ name, .property name ∈ site.path → Nameable name) →
    ∀ d ∈ drafts,
      (d.mark (Naming.ofDrafts drafts)).Unfolds bracketsKept (markedLifted drafts) d.plain
  /-- Each name that stands for an object is that of exactly one lifted interface. -/
  lifted_once : ∀ m ∈ markedModule drafts, ∀ w ∈ m.types, ∀ name ∈ w.names,
    ((markedLifted drafts).map MarkedInterface.name).count name = 1
  /-- Unfolding ends, for every type of the module. -/
  ends : ∀ suffix, ∀ m ∈ markedModule drafts, ∀ w ∈ m.types,
    ∃! t, Unfolds suffix (markedLifted drafts) w t
  /-- A name stands for just those objects whose full text occurs twice. -/
  named_iff : ∀ doc properties,
    (∃ name, (Naming.ofDrafts drafts).mark (.object doc properties) = .lifted name) ↔
      2 ≤ (drafts.flatMap Draft.parts).countP
        (·.fullText? == some (Shape.object doc properties).inline)

theorem Naming.mark_object_eq_lifted_iff {n : Naming} {doc : Option String}
    {properties : List (Property × Shape)} :
    (∃ name, n.mark (.object doc properties) = .lifted name) ↔
      (n.lookup (Shape.object doc properties).inline).isSome := by
  cases h : n.lookup (Shape.object doc properties).inline with
  | none => simp [mark, h]
  | some name => simp [mark, h]

/-- **Lifting repeated objects changes no type.** -/
theorem keepsTypes_declarations {l : Lexicon} {ds : List Declaration}
    (h : declarations l = .ok ds) :
    ∃ drafts, allDrafts l = .ok drafts ∧ KeepsTypes l drafts ds := by
  obtain ⟨drafts, hdrafts, -, -, rfl⟩ := declarations_eq_ok_iff.mp h
  refine ⟨drafts, hdrafts, ?_⟩
  constructor
  case written => exact (written_markedModule drafts).symm
  case unfolds => exact fun d hd => unfolds_draft (suffixes_brackets _ _) hd
  case unfolds_kept => exact fun hbars d hd => unfolds_draft (suffixes_bracketsKept hbars) hd
  case unfolds_nameable => exact unfolds_bracketsKept hdrafts
  case lifted_once => exact fun m hm w hw name => count_names_markedLifted hm hw
  case ends => exact fun suffix m hm w hw => existsUnique_unfolds suffix hm hw
  case named_iff =>
    intro doc properties
    rw [Naming.mark_object_eq_lifted_iff, Naming.lookup_ofDrafts_isSome_iff, countP_occurrences]

/-- A place inside of a range, twice a range, once as the item of a list. -/
def nestedRepeats : Lexicon :=
  let place := objectSchema [("at", textSchema)]
  let range := objectSchema [("from", place)]
  noteLexicon [("main", recordOf [("whole", range), ("parts", listSchema range), ("last", place)])]

/-- What `nestedRepeats` declares. -/
def nestedRepeatsModule : List Declaration := [
  .interface ⟨"Note", none, [⟨"$type", "'com.example.note'", none, false⟩,
    ⟨"whole", "NoteWhole", none, true⟩, ⟨"parts", "NoteWhole[]", none, true⟩,
    ⟨"last", "NoteWholeFrom", none, true⟩]⟩,
  .interface ⟨"NoteWholeFrom", none, [⟨"at", "string", none, true⟩]⟩,
  .interface ⟨"NoteWhole", none, [⟨"from", "NoteWholeFrom", none, true⟩]⟩]

theorem keepsTypes_nestedRepeats : declarations nestedRepeats = .ok nestedRepeatsModule ∧
    ∃ drafts, allDrafts nestedRepeats = .ok drafts ∧
      KeepsTypes nestedRepeats drafts nestedRepeatsModule := by
  have h : declarations nestedRepeats = .ok nestedRepeatsModule := by rfl
  exact ⟨h, keepsTypes_declarations h⟩

/-! ### Brackets around a name -/

/-- An object that is first met in a property with a bar in its name. -/
def barredName : Lexicon :=
  let place := objectSchema [("at", textSchema)]
  noteLexicon [("main", recordOf [("a|b", listSchema place), ("c", place)])]

/-- The draft of `barredName`. -/
def barredNameDraft : Draft :=
  .interface "Note" none (some "com.example.note") [
    (⟨"a|b", none, true⟩, .array (.object none [(⟨"at", none, true⟩, .text "string")])),
    (⟨"c", none, true⟩, .object none [(⟨"at", none, true⟩, .text "string")])]

/-- What `barredName` declares: the bar in the name of the lifted object puts brackets around it. -/
def barredNameModule : List Declaration := [
  .interface ⟨"Note", none, [⟨"$type", "'com.example.note'", none, false⟩,
    ⟨"a|b", "(NoteA|bItem)[]", none, true⟩, ⟨"c", "NoteA|bItem", none, true⟩]⟩,
  .interface ⟨"NoteA|bItem", none, [⟨"at", "string", none, true⟩]⟩]

theorem head?_bracketsKept {item : Written} (h : barAtTop {} item.type.toList = true)
    (text : String) : (bracketsKept item text).toList.head? = some '(' := by
  simp [bracketsKept, h]

/-- Brackets that were written around a name stay when it is unfolded, and the plain type does not
have them. -/
theorem not_unfolds_barredName : allDrafts barredName = .ok [barredNameDraft] ∧
    declarations barredName = .ok barredNameModule ∧
    ¬ (barredNameDraft.mark (Naming.ofDrafts [barredNameDraft])).Unfolds bracketsKept
      (markedLifted [barredNameDraft]) barredNameDraft.plain := by
  refine ⟨by rfl, by rfl, fun h => ?_⟩
  have hmark : barredNameDraft.mark (Naming.ofDrafts [barredNameDraft]) =
      .interface ⟨"Note", none, [(⟨"$type", none, false⟩, .text "'com.example.note'"),
        (⟨"a|b", none, true⟩, .array (.lifted "NoteA|bItem")),
        (⟨"c", none, true⟩, .lifted "NoteA|bItem")]⟩ := by rfl
  have hplain : barredNameDraft.plain =
      .interface ⟨"Note", none, [⟨"$type", "'com.example.note'", none, false⟩,
        ⟨"a|b", "\x7b at?: string \x7d[]", none, true⟩,
        ⟨"c", "\x7b at?: string \x7d", none, true⟩]⟩ := by rfl
  rw [hmark, hplain] at h
  cases h with
  | interface h =>
    cases h with
    | cons _ h =>
      cases h with
      | cons h _ =>
        generalize htext : "\x7b at?: string \x7d[]" = text at h
        cases h with
        | @array _ text _ =>
          have hbar : barAtTop {} (Written.lifted "NoteA|bItem").type.toList = true := by rfl
          have hhead := head?_bracketsKept hbar text
          rw [← htext] at hhead
          exact absurd hhead (by decide)

end Lexgen.Types
