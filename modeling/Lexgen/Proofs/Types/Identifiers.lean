/-
# When declared names are identifiers

A definition declares its type name with endings that are parts of identifiers. The name of a lifted
object is put together from more than that: from the name of the declaration in which it is first
met, and from the names of the properties that lead to it from there (`occurrences_eq_map_sites`). A
property may have any name, and joining its words drops the separators and nothing else. So the name
is an identifier exactly if nothing is left of these properties that an identifier cannot have
(`Nameable`).

Key definitions: `Nameable`, `Step`, `Site`, `sites`.
Key theorems: `isIdentifier_append`, `nameable_of_forall`, `occurrences_eq_map_sites`,
`find?_of_mem_firstOfRepeated`, `isIdentifier_iff_of_mem_ofDrafts`, `isIdentifier_liftAll`.
-/
import Mathlib.Data.Bool.AllAny
import Lexgen.Proofs.Name.Pascal
import Lexgen.Proofs.Types.BuiltIns
import Lexgen.Proofs.TypeScript.Key

namespace Lexgen.Name

open Lexgen.Text

/-! ### Identifiers put together -/

/-- An identifier goes on as an identifier. -/
theorem isIdentifier_append {a b : String} (ha : isIdentifier a = true) :
    isIdentifier (a ++ b) = true ↔ ∀ c ∈ b.toList, continuesIdentifier c = true := by
  unfold isIdentifier at ha ⊢
  rw [String.toList_append]
  cases hchars : a.toList with
  | nil =>
    rw [hchars] at ha
    cases ha
  | cons c cs =>
    rw [hchars] at ha
    obtain ⟨hstarts, hcontinues⟩ := Bool.and_eq_true_iff.mp ha
    rw [List.cons_append]
    dsimp only
    rw [hstarts, Bool.true_and, List.all_append, hcontinues, Bool.true_and, List.all_eq_true]

theorem continues_of_mem_toString (k : Nat) :
    ∀ c ∈ (toString k).toList, continuesIdentifier c = true := by
  intro c hc
  rw [Nat.toString_eq_repr, Nat.toList_repr] at hc
  have hdigit : c.isDigit = true := Nat.isDigit_of_mem_toDigits (by decide) (by decide) hc
  simp [continuesIdentifier, Char.isAlphanum, hdigit]

/-- A name whose words can all stand in an identifier when they are joined. -/
def Nameable (name : String) : Prop :=
  ∀ c ∈ (pascal name).toList, continuesIdentifier c = true

theorem toNat_lt_of_continues {c : Char} (hc : continuesIdentifier c = true) :
    c.toNat < 128 := by
  simp only [continuesIdentifier, Char.isAlphanum, Bool.or_eq_true, beq_iff_eq] at hc
  rcases hc with ((hletter | hdigit) | rfl) | rfl
  · exact toNat_lt_of_isAlpha hletter
  · have hnine : c.val ≤ '9'.val := of_decide_eq_true (Bool.and_eq_true_iff.mp hdigit).2
    have hlt : c.val < 128 := UInt32.lt_of_le_of_lt hnine (by decide)
    exact UInt32.lt_iff_toNat_lt.mp hlt
  · decide
  · decide

/-- The upper case of what an identifier can have is such again: all of it is ASCII, so the table
is looked at there only. -/
theorem continues_upperChar {c : Char} (hc : continuesIdentifier c = true) :
    ∀ d ∈ upperChar c, continuesIdentifier d = true := by
  have htable : ∀ n < 128, continuesIdentifier (Char.ofNat n) = true →
      (upperChar (Char.ofNat n)).all continuesIdentifier = true := by decide +kernel
  have hself := htable c.toNat (toNat_lt_of_continues hc)
  rw [Char.ofNat_toNat] at hself
  exact List.all_eq_true.mp (hself hc)

/-- A name of letters, digits, underscores, dollar signs, dots and hyphens. -/
theorem nameable_of_forall {name : String}
    (h : ∀ c ∈ name.toList, c ∈ separators ∨ continuesIdentifier c = true) : Nameable name := by
  intro c hc
  rw [toList_pascal, List.mem_flatMap] at hc
  obtain ⟨word, hword, hc⟩ := hc
  have hplain : ∀ d ∈ word, continuesIdentifier d = true := by
    intro d hd
    obtain ⟨hmem, hsep⟩ := mem_of_mem_splitOnP hword hd
    refine (h d hmem).resolve_left fun hsep' => ?_
    rw [isSeparator_iff.mpr hsep'] at hsep
    cases hsep
  cases word with
  | nil => exact absurd hc List.not_mem_nil
  | cons first rest =>
    rw [raise, List.mem_append] at hc
    rcases hc with hc | hc
    · exact continues_upperChar (hplain first (List.mem_cons_self ..)) c hc
    · exact hplain c (List.mem_cons_of_mem _ hc)

end Lexgen.Name

namespace Lexgen.Types

open Lexgen.Data Lexgen.Lexicon Lexgen.Name Lexgen.TypeScript

/-! ### Where anonymous objects stand -/

/-- A step from a declaration or an object to what stands in it. -/
inductive Step where
  | property (name : String)
  | item
deriving DecidableEq, Repr

/-- What a step adds to a name. -/
def Step.text : Step → String
  | property name => pascal name
  | item => "Item"

/-- An anonymous object with the declaration that it stands in and the path that leads to it. -/
structure Site where
  key : String
  owner : String
  path : List Step
deriving DecidableEq, Repr

/-- The name that a path leads to. -/
def spell (owner : String) (path : List Step) : String :=
  path.foldl (fun name step => name ++ step.text) owner

/-- The object as it is counted. -/
def Site.occurrence (site : Site) : Occurrence := ⟨site.key, spell site.owner site.path⟩

mutual

/-- The anonymous objects in a shape that a path leads to, from the outside in. -/
def sites (owner : String) (path : List Step) : Shape → List Site
  | .text _ => []
  | .union _ => []
  | .array item => sites owner (path ++ [.item]) item
  | .object doc properties =>
    ⟨(Shape.object doc properties).inline, owner, path⟩ :: propertySites owner path properties

/-- The anonymous objects in the properties of the object that a path leads to. -/
def propertySites (owner : String) (path : List Step) : List (Property × Shape) → List Site
  | [] => []
  | (p, s) :: rest => sites owner (path ++ [.property p.name]) s ++ propertySites owner path rest

end

/-- The anonymous objects in a draft. -/
def Draft.sites : Draft → List Site
  | .interface name _ _ properties => propertySites name [] properties
  | .alias name _ shape => Types.sites name [] shape

theorem spell_cons (owner : String) (step : Step) (path : List Step) :
    spell owner (step :: path) = spell (owner ++ step.text) path := rfl

theorem spell_concat (owner : String) (path : List Step) (step : Step) :
    spell owner (path ++ [step]) = spell owner path ++ step.text := by
  simp [spell]

theorem spell_eq_append (owner : String) : ∀ (path : List Step),
    spell owner path = owner ++ spell "" path
  | [] => by simp [spell]
  | step :: path => by
    rw [spell_cons, spell_cons, String.empty_append, spell_eq_append _ path,
      spell_eq_append step.text path, String.append_assoc]

/-- The ending of items is a word of its own. -/
theorem pascal_append_itemEnding (name : String) :
    pascal (name ++ itemEnding) = pascal name ++ "Item" := by
  have hword : pascal "item" = "Item" := by decide +kernel
  have happend := pascal_append (c := '_') (by decide) name "item"
  rwa [hword, String.append_assoc] at happend

mutual

/-- **What an object would be called is spelled by the path that leads to it.** -/
theorem occurrences_eq_map_sites {root : String} : ∀ {path : List Step} {owner name : String}
    (s : Shape), owner ++ pascal name = spell root path →
      occurrences owner name s = (sites root path s).map Site.occurrence
  | _, _, _, .text _, _ => rfl
  | _, _, _, .union _, _ => rfl
  | path, owner, name, .array item, h => by
    rw [occurrences, sites]
    refine occurrences_eq_map_sites item ?_
    rw [pascal_append_itemEnding, ← String.append_assoc, h, spell_concat, Step.text]
  | path, owner, name, .object doc properties, h => by
    rw [occurrences, sites, List.map_cons, Site.occurrence, h, propertyOccurrences_eq_map_sites]

theorem propertyOccurrences_eq_map_sites {root : String} : ∀ (path : List Step)
    (ps : List (Property × Shape)), propertyOccurrences (spell root path) ps =
      (propertySites root path ps).map Site.occurrence
  | _, [] => rfl
  | path, (p, s) :: rest => by
    have hfirst := occurrences_eq_map_sites s (spell_concat root path (.property p.name)).symm
    rw [propertyOccurrences, propertySites, List.map_append, hfirst,
      propertyOccurrences_eq_map_sites path rest]

end

theorem Draft.occurrences_eq_map_sites (d : Draft) :
    d.occurrences = d.sites.map Site.occurrence :=
  match d with
  | .interface _ _ _ properties => propertyOccurrences_eq_map_sites [] properties
  | .alias _ _ shape => Types.occurrences_eq_map_sites shape (String.append_empty ..)

mutual

theorem owner_of_mem_sites {owner : String} {site : Site} : ∀ {path : List Step} {s : Shape},
    site ∈ sites owner path s → site.owner = owner
  | _, .text _, h => by cases h
  | _, .union _, h => by cases h
  | _, .array item, h => by
    rw [sites] at h
    exact owner_of_mem_sites h
  | _, .object doc properties, h => by
    rw [sites, List.mem_cons] at h
    rcases h with rfl | h
    · rfl
    · exact owner_of_mem_propertySites h

theorem owner_of_mem_propertySites {owner : String} {site : Site} :
    ∀ {path : List Step} {ps : List (Property × Shape)},
      site ∈ propertySites owner path ps → site.owner = owner
  | _, [], h => by cases h
  | _, (p, s) :: rest, h => by
    rw [propertySites, List.mem_append] at h
    exact h.elim owner_of_mem_sites owner_of_mem_propertySites

end

theorem Draft.owner_of_mem_sites {d : Draft} {site : Site} (h : site ∈ d.sites) :
    site.owner = d.name :=
  match d with
  | .interface _ _ _ _ => owner_of_mem_propertySites h
  | .alias _ _ _ => Types.owner_of_mem_sites h

/-! ### The place that a name comes from -/

/-- An object that is named is taken where it is first met. -/
theorem find?_of_mem_firstOfRepeated {all : List Occurrence} {o : Occurrence} :
    ∀ {seen : List String} {os : List Occurrence}, o ∈ firstOfRepeated all seen os →
      os.find? (·.key == o.key) = some o
  | _, [], h => by cases h
  | seen, x :: rest, h => by
    have hnew {seen' : List String} (hx : x.key ∈ seen')
        (h : o ∈ firstOfRepeated all seen' rest) :
        (x :: rest).find? (·.key == o.key) = some o := by
      have hkey := (mem_keys_firstOfRepeated all o.key seen' rest).mp (List.mem_map_of_mem h)
      have hne : x.key ≠ o.key := fun heq => hkey.1 (heq ▸ hx)
      rw [List.find?_cons_of_neg (by simpa using hne)]
      exact find?_of_mem_firstOfRepeated h
    unfold firstOfRepeated at h
    split at h
    · next hs => exact hnew (by simpa using hs) h
    · split at h
      · rcases List.mem_cons.mp h with rfl | h
        · exact List.find?_cons_of_pos (by simp)
        · exact hnew (List.mem_cons_self ..) h
      · exact hnew (List.mem_cons_self ..) h

/-- An object that is named has the name that is spelled by the path to the place where it is first
met, or this name with a number. -/
theorem exists_site_of_mem_ofDrafts {drafts : List Draft} {key name : String}
    (h : (key, name) ∈ Naming.ofDrafts drafts) :
    ∃ site, (drafts.flatMap Draft.sites).find? (·.key == key) = some site ∧
      ∃ number, name = spell site.owner site.path ++ number ∧
        (number = "" ∨ ∃ k : Nat, number = toString k) := by
  obtain ⟨first, hfirst, hkey, taken, hfree⟩ := (namedInTurn_ofDrafts drafts).exists_firstFree _ h
  have hfound := find?_of_mem_firstOfRepeated hfirst
  have hsites : Draft.occurrences = fun d => d.sites.map Site.occurrence :=
    funext Draft.occurrences_eq_map_sites
  rw [hsites, ← List.map_flatMap, List.find?_map, hkey] at hfound
  obtain ⟨site, hsite, rfl⟩ := Option.map_eq_some_iff.mp hfound
  refine ⟨site, hsite, ?_⟩
  rcases hfree with ⟨-, heq⟩ | ⟨-, -, k, -, heq, -⟩
  · exact ⟨"", heq.trans (String.append_empty ..).symm, .inl rfl⟩
  · exact ⟨_, heq, .inr ⟨k, rfl⟩⟩

/-! ### Names of definitions -/

theorem continues_of_mem_endings {d : Definition} {ending : String} (h : ending ∈ endings d) :
    ∀ c ∈ ending.toList, continuesIdentifier c = true := by
  cases hkind : d.isOperation with
  | true =>
    rw [endings_of_isOperation hkind] at h
    obtain ⟨part, -, rfl⟩ := List.mem_map.mp h
    refine List.all_eq_true.mp ?_
    cases part <;> decide
  | false =>
    rw [endings_of_not_isOperation hkind, List.mem_singleton] at h
    rw [h]
    exact List.forall_mem_nil _

variable {l : Lexicon}

/-- If the type names of a lexicon are identifiers, so are the names of its drafts. -/
theorem isIdentifier_name_of_mem_allDrafts {drafts : List Draft} (h : allDrafts l = .ok drafts)
    (hl : ∀ e ∈ l.defs.entries, isIdentifier (l.typeName e.1) = true) :
    ∀ d ∈ drafts, isIdentifier d.name = true := by
  intro d hd
  obtain ⟨primary, hprimary, hnames⟩ := names_allDrafts h
  have hmem : d.name ∈ drafts.map Draft.name := List.mem_map_of_mem hd
  rw [hnames, List.mem_flatMap] at hmem
  obtain ⟨e, he, hmem⟩ := hmem
  obtain ⟨ending, hending, hname⟩ := List.mem_map.mp hmem
  rw [← hname, isIdentifier_append (hl e ((mem_primary_supporting_iff hprimary).mp he))]
  exact continues_of_mem_endings hending

theorem continues_spell_iff : ∀ {path : List Step},
    (∀ c ∈ (spell "" path).toList, continuesIdentifier c = true) ↔
      ∀ name, .property name ∈ path → Nameable name
  | [] => by simp [spell]
  | step :: path => by
    rw [spell_cons, String.empty_append, spell_eq_append, String.toList_append,
      List.forall_mem_append, continues_spell_iff]
    cases step with
    | property name =>
      simp only [List.mem_cons, Step.property.injEq, forall_eq_or_imp]
      rfl
    | item =>
      have hitem : ∀ c ∈ Step.item.text.toList, continuesIdentifier c = true :=
        List.all_eq_true.mp (by decide)
      rw [and_iff_right hitem]
      simp

/-- A name with a number is an identifier exactly if all properties on the path are nameable. -/
theorem isIdentifier_spell_iff {owner number : String} (howner : isIdentifier owner = true)
    (hnumber : ∀ c ∈ number.toList, continuesIdentifier c = true) (path : List Step) :
    isIdentifier (spell owner path ++ number) = true ↔
      ∀ name, .property name ∈ path → Nameable name := by
  rw [spell_eq_append, String.append_assoc, isIdentifier_append howner, String.toList_append,
    List.forall_mem_append, continues_spell_iff]
  exact and_iff_left hnumber

/-- The name of an object is an identifier exactly if all properties are nameable that lead to it
where it is first met. -/
theorem isIdentifier_iff_of_mem_ofDrafts {drafts : List Draft}
    (hnames : ∀ d ∈ drafts, isIdentifier d.name = true) {key name : String}
    (h : (key, name) ∈ Naming.ofDrafts drafts) :
    ∃ site, (drafts.flatMap Draft.sites).find? (·.key == key) = some site ∧
      (isIdentifier name = true ↔ ∀ name, .property name ∈ site.path → Nameable name) := by
  obtain ⟨site, hsite, number, rfl, hnumber⟩ := exists_site_of_mem_ofDrafts h
  obtain ⟨d, hd, hmem⟩ := List.mem_flatMap.mp (List.mem_of_find?_eq_some hsite)
  have howner : isIdentifier site.owner = true := by
    rw [Draft.owner_of_mem_sites hmem]
    exact hnames d hd
  have hdigits : ∀ c ∈ number.toList, continuesIdentifier c = true := by
    rcases hnumber with rfl | ⟨k, rfl⟩
    · simp
    · exact continues_of_mem_toString k
  exact ⟨site, hsite, isIdentifier_spell_iff howner hdigits site.path⟩

/-- **When the names of lifted objects are identifiers.** Where the type names of a lexicon are
identifiers, all its drafts are called by identifiers. A lifted object is called by one exactly if
all properties that lead to it where it is first met are nameable. -/
theorem isIdentifier_liftAll {ds : List Declaration} (h : declarations l = .ok ds)
    (hl : ∀ e ∈ l.defs.entries, isIdentifier (l.typeName e.1) = true) :
    ∃ drafts, allDrafts l = .ok drafts ∧ declare drafts = ds ∧
      (∀ d ∈ drafts, isIdentifier d.name = true) ∧
      ∀ o ∈ Draft.liftAll (Naming.ofDrafts drafts) [] drafts, ∃ site,
        (drafts.flatMap Draft.sites).find? (·.key == o.key) = some site ∧
        (isIdentifier o.name = true ↔ ∀ name, .property name ∈ site.path → Nameable name) := by
  obtain ⟨drafts, hdrafts, -, -, rfl⟩ := declarations_eq_ok_iff.mp h
  have hnames := isIdentifier_name_of_mem_allDrafts hdrafts hl
  exact ⟨drafts, hdrafts, rfl, hnames, fun o ho =>
    isIdentifier_iff_of_mem_ofDrafts hnames (mem_of_lookup_eq_some (lookup_key_of_mem_liftAll ho))⟩

/-- A lexicon with an object that is met twice, by way of the two properties. -/
def timedNotes (first second : String) : Lexicon :=
  let time := objectSchema [("at", textSchema)]
  noteLexicon [("main", recordOf [(first, time), (second, listSchema time)])]

/-- The object is called by the property that is met first, whatever the other one is called. -/
theorem isIdentifier_timedNotes : ∃ drafts, allDrafts (timedNotes "start-time" "end time") =
    .ok drafts ∧ ∃ o ∈ Draft.liftAll (Naming.ofDrafts drafts) [] drafts,
      o.name = "NoteStartTime" ∧ isIdentifier o.name = true ∧ ∃ site,
        (drafts.flatMap Draft.sites).find? (·.key == o.key) = some site ∧
        site.path = [.property "start-time"] ∧ Nameable "start-time" := by
  obtain ⟨drafts, hdrafts, -, -, hlifted⟩ :=
    isIdentifier_liftAll (l := timedNotes "start-time" "end time") rfl (by decide)
  cases hdrafts
  obtain ⟨site, hsite, hiff⟩ := hlifted _ (List.mem_singleton_self _)
  have hpath : site.path = [.property "start-time"] := by
    cases hsite
    rfl
  have hname : Nameable "start-time" := nameable_of_forall (List.all_iff_forall_prop.1 (by decide))
  refine ⟨_, rfl, _, List.mem_singleton_self _, rfl, hiff.2 ?_, site, hsite, hpath, hname⟩
  rw [hpath]
  simpa using hname

/-- A blank in the name of the property stands in the name of the object. -/
theorem not_isIdentifier_timedNotes :
    (∀ e ∈ (timedNotes "start time" "end").defs.entries,
      isIdentifier ((timedNotes "start time" "end").typeName e.1) = true) ∧
    ∃ ds, declarations (timedNotes "start time" "end") = .ok ds ∧
      ds.map Declaration.name = ["Note", "NoteStart time"] ∧
      ∃ drafts, allDrafts (timedNotes "start time" "end") = .ok drafts ∧ declare drafts = ds ∧
        ∃ o ∈ Draft.liftAll (Naming.ofDrafts drafts) [] drafts, o.name = "NoteStart time" ∧
          isIdentifier o.name = false :=
  ⟨by decide, _, rfl, rfl, _, rfl, rfl, _, List.mem_singleton_self _, rfl, by decide⟩

end Lexgen.Types
