/-
# The client module and the types module of a lexicon

A client takes one type from the types module and passes its collection on in every call. The file
that it names is the one that the types module is written to, and the type is declared there with
the collection as its discriminant if the record is called main. Otherwise the record is declared
under a name of its own, and its discriminant is not the collection (`discriminant_eq_iff`); then
only an interface of another kind of definition can have the name and the discriminant that the
client counts on.

Key definitions: `IsEntity`.
Key theorems: `get?_imports`, `call_eq_block`, `interface_of_record`, `agreement_ofLexicon`.
-/
import Lexgen.Client.Module
import Lexgen.Proofs.TypeScript.Literal
import Lexgen.Proofs.Types.References

namespace Lexgen.Client

open Lexgen.Code Lexgen.Data Lexgen.Lexicon Lexgen.Name Lexgen.TypeScript Lexgen.Types

/-! ### What a client imports -/

/-- What is taken from one module stays while names are taken from others. -/
theorem get?_foldl {take : Imports → String → Imports} {module : String}
    (h : ∀ i name, (take i name).modules.get? module = i.modules.get? module) :
    ∀ (names : List String) (i : Imports),
      (names.foldl take i).modules.get? module = i.modules.get? module
  | [], _ => rfl
  | name :: rest, i => by
    rw [List.foldl_cons, get?_foldl h rest, h]

/-- From the types module a client takes the type of the entity and nothing else, unless the module
is one of the others that it imports from. -/
theorem get?_imports {c : Client} (hsdk : c.typesImport ≠ c.sdkImport)
    (hwire : c.typesImport ≠ wirePackage) :
    c.imports.modules.get? c.typesImport =
      some { types := Sorted.empty.insert c.entity.typeName () } := by
  have hvalue : ∀ (i : Imports) name,
      (i.addValue c.sdkImport name).modules.get? c.typesImport = i.modules.get? c.typesImport := by
    intro i name
    simp [Imports.addValue, hsdk]
  have htype : ∀ module, c.typesImport ≠ module → ∀ (i : Imports) name,
      (i.addType module name).modules.get? c.typesImport = i.modules.get? c.typesImport := by
    intro module hne i name
    simp [Imports.addType, hne]
  rw [imports, Imports.addType, Ordered.get?_update, if_pos rfl, Imports.addTypes,
    get?_foldl (htype _ hwire), Imports.addTypes, get?_foldl (htype _ hsdk), Imports.addValues,
    get?_foldl hvalue]
  rfl

/-- A lexicon with a client has a record as its primary definition. -/
theorem primary?_of_ofLexicon {l : Lexicon} {c : Client} (h : ofLexicon l = .ok c) :
    ∃ name r, l.primary? = some (name, .record r) ∧ c = { entity := l.entity } := by
  obtain ⟨⟨name, d⟩, hprimary, h⟩ := bind_eq_ok_iff.mp h
  have hprimary : l.primary? = some (name, d) := by
    unfold Lexicon.primary at hprimary
    split at hprimary
    · next p hp => rw [hp, Except.ok.inj hprimary]
    · cases hprimary
  cases d with
  | record r =>
    simp only at h
    split at h
    · cases h
    · exact ⟨name, r, hprimary, (Except.ok.inj h).symm⟩
  | _ => cases h

/-- The types module that the client of a lexicon imports is none of the others. -/
theorem typesImport_ne {l : Lexicon} {c : Client} (h : ofLexicon l = .ok c) :
    c.typesImport ≠ c.sdkImport ∧ c.typesImport ≠ wirePackage := by
  obtain ⟨name, r, -, rfl⟩ := primary?_of_ofLexicon h
  have hdir : dropSlashes "../types" = "../types" := by decide
  have hfourth : (typesImport { entity := l.entity }).toList[3]? = some 't' := by
    simp [typesImport, hdir]
  constructor
  · intro (heq : typesImport { entity := l.entity } = "../sdk/atproto")
    rw [heq] at hfourth
    exact absurd hfourth (by decide)
  · intro (heq : typesImport { entity := l.entity } = wirePackage)
    rw [heq] at hfourth
    exact absurd hfourth (by decide)

/-! ### What a client passes on -/

theorem properties_foldl_shorthand : ∀ (names : List String) (o : ObjectLiteral),
    (names.foldl ObjectLiteral.shorthand o).properties = o.properties ++ names
  | [], o => (List.append_nil _).symm
  | name :: rest, o => by
    rw [List.foldl_cons, properties_foldl_shorthand rest, ObjectLiteral.shorthand,
      List.append_assoc, List.singleton_append]

/-- A call is of the type of the entity and passes the collection on first. -/
theorem call_eq_block (c : Client) (h : Helper) : c.call h =
    .block ("return client." ++ h.method ++ "<" ++ c.entity.typeName ++ ">" ++ "(\x7b")
      (.line ("collection: " ++ stringLiteral c.entity.collection ++ ",") ::
        h.arguments.map fun a => .line (a ++ ","))
      (some ("\x7d)" ++ ";")) := by
  have hkey : propertyKey "collection" = "collection" := by decide
  have hproperties := properties_foldl_shorthand h.arguments
    (ObjectLiteral.string {} "collection" c.entity.collection)
  rw [call, ObjectLiteral.call, ObjectLiteral.lines, hproperties, ObjectLiteral.string, hkey]
  rfl

/-! ### What the types module declares -/

/-- The discriminant of a definition is the id of the lexicon just for the main one. -/
theorem discriminant_eq_iff {l : Lexicon} {name : String} :
    stringLiteral (qualifiedName l name) = stringLiteral l.id ↔ name = Lexicon.mainName := by
  constructor
  · intro h
    by_contra hname
    have hlength := congrArg String.length (stringLiteral_injective h)
    rw [qualifiedName, if_neg hname, String.length_append, String.length_append] at hlength
    have hsign : "#".length = 1 := by decide
    omega
  · intro hname
    rw [qualifiedName, if_pos hname]

/-- A record is declared as an interface that starts with its discriminant. -/
theorem interface_of_record {l : Lexicon} {ds : List Declaration} (h : declarations l = .ok ds)
    {name : String} {r : Record} (he : (name, .record r) ∈ l.defs.entries) :
    ∃ i, Declaration.interface i ∈ ds ∧ i.name = l.typeName name ∧
      i.members.head? = some (discriminantMember (qualifiedName l name)) := by
  obtain ⟨-, c, -, hc, hpart, -⟩ := contribution_of_mem h he
  obtain ⟨drafts, hdrafts, hc⟩ := bind_eq_ok_iff.mp hc
  obtain ⟨block, hblock, hc⟩ := bind_eq_ok_iff.mp hc
  rw [← pure_eq_ok_iff.mp hc] at hpart
  cases block_of_draftsOf hblock with
  | record hd =>
    obtain ⟨properties, -, rfl⟩ := map_eq_ok_iff.mp hd
    exact ⟨_, hpart.subset List.mem_cons_self, rfl, rfl⟩

/-- The interface that a client counts on: it has the name of the imported type, and its first
member that is called like a discriminant has the collection as its type. -/
structure IsEntity (c : Client) (i : Interface) : Prop where
  name : i.name = c.entity.typeName
  collection : (i.members.find? (·.name == discriminantName)).map Member.type =
    some (stringLiteral c.entity.collection)

theorem find?_discriminant {i : Interface} {value : String}
    (h : i.members.head? = some (discriminantMember value)) :
    (i.members.find? (·.name == discriminantName)).map Member.type =
      some (stringLiteral value) := by
  obtain ⟨rest, hrest⟩ := List.head?_eq_some_iff.mp h
  rw [hrest]
  rfl

/-- How the client and the declarations of a lexicon fit together. -/
structure Agreement (l : Lexicon) (c : Client) (ds : List Declaration) : Prop where
  /-- The client names the file of the types module. -/
  file : Types.fileName l = c.entity.typesModule ++ ".ts"
  /-- From the types module it takes the type of the entity. -/
  takes : c.imports.modules.get? c.typesImport =
    some { types := Sorted.empty.insert c.entity.typeName () }
  /-- It passes the collection on. -/
  passes : ∀ h, ∃ callee rest ending, c.call h = .block callee
    (.line ("collection: " ++ stringLiteral c.entity.collection ++ ",") :: rest) ending
  /-- The interface of a record is the one that it counts on just if the record is called main. -/
  record_iff : ∀ name r, (name, Definition.record r) ∈ l.defs.entries →
    ((∃ i, .interface i ∈ ds ∧ i.name = l.typeName name ∧ IsEntity c i) ↔
      name = Lexicon.mainName)
  /-- So the interface is there if there is a main definition, and otherwise only if something else
  than a record is declared like it. -/
  declared_iff : (∃ i, .interface i ∈ ds ∧ IsEntity c i) ↔
    (l.get? Lexicon.mainName).isSome = true ∨
    ∃ i, .interface i ∈ ds ∧ IsEntity c i ∧
      ∀ name r, (name, Definition.record r) ∈ l.defs.entries → l.typeName name ≠ i.name

/-- A record whose interface a client counts on is the main definition. -/
theorem eq_mainName_of_isEntity {l : Lexicon} {ds : List Declaration} (hd : declarations l = .ok ds)
    {c : Client} (hc : c.entity.collection = l.id) {i : Interface}
    (hi : Declaration.interface i ∈ ds) (hentity : IsEntity c i) {name : String} {r : Record}
    (he : (name, Definition.record r) ∈ l.defs.entries) (hname : l.typeName name = i.name) :
    name = Lexicon.mainName := by
  obtain ⟨j, hj, hjname, hhead⟩ := interface_of_record hd he
  have hij : Declaration.interface i = .interface j :=
    eq_of_name_eq hd hi hj (hname.symm.trans hjname.symm)
  cases hij
  have hvalue := (find?_discriminant hhead).symm.trans hentity.collection
  rw [hc] at hvalue
  exact discriminant_eq_iff.mp (Option.some.inj hvalue)

/-- **The client and the types module of a lexicon fit together** if the record is called main. -/
theorem agreement_ofLexicon {l : Lexicon} {c : Client} {ds : List Declaration}
    (hc : ofLexicon l = .ok c) (hd : declarations l = .ok ds) : Agreement l c ds := by
  have hne := typesImport_ne hc
  obtain ⟨primary, r, hprimary, rfl⟩ := primary?_of_ofLexicon hc
  have hrecord : ∀ name r', (name, Definition.record r') ∈ l.defs.entries →
      ((∃ i, .interface i ∈ ds ∧ i.name = l.typeName name ∧ IsEntity { entity := l.entity } i) ↔
        name = Lexicon.mainName) := by
    intro name r' he
    constructor
    · rintro ⟨i, hi, hname, hentity⟩
      exact eq_mainName_of_isEntity hd rfl hi hentity he hname.symm
    · rintro rfl
      obtain ⟨i, hi, hname, hhead⟩ := interface_of_record hd he
      exact ⟨i, hi, hname, hname, find?_discriminant hhead⟩
  refine ⟨rfl, get?_imports hne.1 hne.2, fun h => ⟨_, _, _, call_eq_block _ h⟩, hrecord, ?_, ?_⟩
  · rintro ⟨i, hi, hentity⟩
    by_cases hmain : (l.get? Lexicon.mainName).isSome = true
    · exact Or.inl hmain
    · refine Or.inr ⟨i, hi, hentity, fun name r' he hname => hmain ?_⟩
      have hmainName := eq_mainName_of_isEntity hd rfl hi hentity he hname
      rw [hmainName] at he
      rw [Lexicon.get?, Ordered.get?_eq_some_iff.mpr he]
      rfl
  · rintro (hmain | ⟨i, hi, hentity, -⟩)
    · obtain ⟨d, hget⟩ := Option.isSome_iff_exists.mp hmain
      have hfirst : l.primary? = some (Lexicon.mainName, d) := by
        rw [Lexicon.primary?, hget]
      obtain ⟨rfl, rfl⟩ := Prod.mk.inj (Option.some.inj (hfirst.symm.trans hprimary))
      obtain ⟨i, hi, -, hentity⟩ := (hrecord _ r (mem_entries_of_primary? hprimary)).mpr rfl
      exact ⟨i, hi, hentity⟩
    · exact ⟨i, hi, hentity⟩

/-- A note whose record is called main. -/
def mainNotes : Lexicon := noteLexicon [("main", recordOf [("text", textSchema)])]

theorem agreement_mainNotes : ∃ c ds, ofLexicon mainNotes = .ok c ∧
    declarations mainNotes = .ok ds ∧ Agreement mainNotes c ds := by
  have hc : ofLexicon mainNotes = .ok { entity := mainNotes.entity } := by rfl
  have hd : declarations mainNotes = .ok [.interface ⟨"Note", none,
      [⟨"$type", "'com.example.note'", none, false⟩, ⟨"text", "string", none, true⟩]⟩] := by rfl
  exact ⟨_, _, hc, hd, agreement_ofLexicon hc hd⟩

/-- A note whose record is called something else. -/
def itemNotes : Lexicon := noteLexicon [("item", recordOf [("text", textSchema)])]

/-- The client takes a type that the types module does not declare, if no definition is called
main. -/
theorem not_declared_itemNotes : ∃ c ds, ofLexicon itemNotes = .ok c ∧
    declarations itemNotes = .ok ds ∧ c.entity.typeName = "Note" ∧
    ds.map Declaration.name = ["Item"] ∧ ¬ ∃ i, .interface i ∈ ds ∧ IsEntity c i := by
  have hc : ofLexicon itemNotes = .ok { entity := itemNotes.entity } := by rfl
  have hd : declarations itemNotes = .ok [.interface ⟨"Item", none,
      [⟨"$type", "'com.example.note#item'", none, false⟩, ⟨"text", "string", none, true⟩]⟩] := by
    rfl
  refine ⟨_, _, hc, hd, by decide, rfl, ?_⟩
  rintro ⟨i, hi, hentity⟩
  cases List.mem_singleton.mp hi
  exact absurd hentity.name (by decide)

end Lexgen.Client
