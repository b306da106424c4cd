/-
# Names that generated modules rely on

The six helpers of a client module return promises (`result_of_mem_helpers`) and use ten imported
names, nine of which are fixed. The tenth is the type name of the entity, which follows from the id
of the lexicon, and nothing keeps it from being one of the others: then the module imports a name
twice, or takes the name of the promises away (`keepsNames_iff`). A types module can declare the
built-in types that its own members are written with. `captures_lexicon` says when the modules of a
lexicon are clear of both.

Key definitions: `KeepsNames`, `Separate`, `Captures`.
Key theorems: `takes_imports_iff`, `keepsNames_iff`, `captures_lexicon`.
-/
import Lexgen.Proofs.Client.Agreement
import Lexgen.Proofs.Types.BuiltIns
import Lexgen.Proofs.TypeScript.Imports

namespace Lexgen.Client

open Lexgen.Code Lexgen.Data Lexgen.Lexicon Lexgen.TypeScript Lexgen.Types

variable {c : Client}

/-! ### What a client imports -/

/-- The built-in type of what a helper returns. -/
def promise : String := "Promise"

/-- Every helper returns a promise of something. -/
theorem result_of_mem_helpers :
    ∀ h ∈ c.helpers, ∃ type, h.result = promise ++ "<" ++ type ++ ">" := by
  intro h hh
  simp only [helpers, List.mem_cons, List.not_mem_nil, or_false] at hh
  rcases hh with rfl | rfl | rfl | rfl | rfl | rfl
  · exact ⟨"ComAtprotoRepoCreateRecord.Response", rfl⟩
  · exact ⟨"ComAtprotoRepoGetRecord.Response", rfl⟩
  · exact ⟨"ComAtprotoRepoListRecords.Response", rfl⟩
  · exact ⟨"PutRecordResponse", rfl⟩
  · exact ⟨"GetRecordResponse<" ++ c.entity.typeName ++ ">",
      String.toList_inj.mp (by simp [promise])⟩
  · exact ⟨"ListRecordsResponse<" ++ c.entity.typeName ++ ">",
      String.toList_inj.mp (by simp [promise])⟩

/-- The names that every client takes, from the repository client and from the package of the wire
types. -/
def TakesFixed (c : Client) (w : Way) (name : String) : Prop :=
  (w = ⟨c.sdkImport, false⟩ ∧ name ∈ sdkValues) ∨ (w = ⟨c.sdkImport, true⟩ ∧ name ∈ sdkTypes) ∨
    (w = ⟨wirePackage, true⟩ ∧ name ∈ wireTypes)

/-- No fixed name is taken in two ways. -/
theorem TakesFixed.unique {w w' : Way} {name : String} (h : TakesFixed c w name)
    (h' : TakesFixed c w' name) : w = w' := by
  have hvalues : ∀ n ∈ sdkValues, n ∉ sdkTypes ∧ n ∉ wireTypes := by decide
  have htypes : ∀ n ∈ sdkTypes, n ∉ wireTypes := by decide
  rcases h with ⟨rfl, hn⟩ | ⟨rfl, hn⟩ | ⟨rfl, hn⟩
  all_goals rcases h' with ⟨rfl, hn'⟩ | ⟨rfl, hn'⟩ | ⟨rfl, hn'⟩
  · rfl
  · exact absurd hn' (hvalues name hn).1
  · exact absurd hn' (hvalues name hn).2
  · exact absurd hn (hvalues name hn').1
  · rfl
  · exact absurd hn' (htypes name hn)
  · exact absurd hn (hvalues name hn').2
  · exact absurd hn (htypes name hn')
  · rfl

/-- Next to the fixed names a client takes the type of the entity from the types module. -/
theorem takes_imports_iff {w : Way} {name : String} : c.imports.Takes w name ↔
    (w = ⟨c.typesImport, true⟩ ∧ name = c.entity.typeName) ∨ TakesFixed c w name := by
  simp only [imports, Imports.takes_addType_iff, Imports.takes_addTypes_iff,
    Imports.takes_addValues_iff, Imports.not_takes_empty, or_false, TakesFixed]
  grind

/-! ### When the names are different -/

/-- No name is imported twice, and promises keep theirs. -/
def KeepsNames (c : Client) : Prop :=
  (importedNames c.imports).Nodup ∧ promise ∉ importedNames c.imports

/-- The type of the entity is called like nothing else that the client module uses. It may be called
like a type that is taken from the same module: then it is that type. -/
structure Separate (c : Client) : Prop where
  promise : c.entity.typeName ≠ promise
  values : c.entity.typeName ∉ sdkValues
  types : c.entity.typeName ∈ sdkTypes → c.typesImport = c.sdkImport
  wire : c.entity.typeName ∈ wireTypes → c.typesImport = wirePackage

/-- The type of the entity is separate from the fixed names if it is not one of them, or else is
taken in the same way. -/
theorem separate_iff_of_takesFixed : Separate c ↔ c.entity.typeName ≠ promise ∧
    ∀ w, TakesFixed c w c.entity.typeName → w = ⟨c.typesImport, true⟩ := by
  constructor
  · rintro ⟨hpromise, hvalues, htypes, hwire⟩
    refine ⟨hpromise, fun w hw => ?_⟩
    rcases hw with ⟨-, hname⟩ | ⟨rfl, hname⟩ | ⟨rfl, hname⟩
    · exact absurd hname hvalues
    · rw [htypes hname]
    · rw [hwire hname]
  · rintro ⟨hpromise, hfixed⟩
    refine ⟨hpromise, fun hname => ?_, fun hname => ?_, fun hname => ?_⟩
    · exact Bool.false_ne_true (congrArg Way.typeOnly (hfixed _ (.inl ⟨rfl, hname⟩)))
    · exact (congrArg Way.module (hfixed _ (.inr (.inl ⟨rfl, hname⟩)))).symm
    · exact (congrArg Way.module (hfixed _ (.inr (.inr ⟨rfl, hname⟩)))).symm

/-- **When a client module captures none of its names**, wherever it imports from. -/
theorem keepsNames_iff : KeepsNames c ↔ Separate c := by
  have hpromise : ∀ w, ¬ TakesFixed c w promise := by
    have hlists : promise ∉ sdkValues ∧ promise ∉ sdkTypes ∧ promise ∉ wireTypes := by decide
    rintro w (⟨-, hname⟩ | ⟨-, hname⟩ | ⟨-, hname⟩)
    · exact hlists.1 hname
    · exact hlists.2.1 hname
    · exact hlists.2.2 hname
  rw [KeepsNames, separate_iff_of_takesFixed, nodup_importedNames_iff, mem_importedNames_iff]
  simp only [takes_imports_iff]
  constructor
  · rintro ⟨hunique, hnone⟩
    refine ⟨fun heq => hnone ⟨_, .inl ⟨rfl, heq.symm⟩⟩, fun w hw => ?_⟩
    exact hunique _ _ _ (.inr hw) (.inl ⟨rfl, rfl⟩)
  · rintro ⟨hname, hfixed⟩
    constructor
    · rintro name w w' (⟨rfl, rfl⟩ | hw) (⟨rfl, hw'⟩ | hw')
      · rfl
      · exact (hfixed _ hw').symm
      · exact hfixed _ (hw' ▸ hw)
      · exact hw.unique hw'
    · rintro ⟨w, ⟨-, heq⟩ | hw⟩
      · exact hname heq.symm
      · exact hpromise w hw

/-- The names that the type of an entity must keep clear of where its module is none of the
others. -/
def fixedNames : List String := promise :: (sdkValues ++ sdkTypes ++ wireTypes)

theorem separate_iff_of_ofLexicon {l : Lexicon} (h : ofLexicon l = .ok c) :
    Separate c ↔ c.entity.typeName ∉ fixedNames := by
  obtain ⟨hsdk, hwire⟩ := typesImport_ne h
  simp only [fixedNames, List.mem_cons, List.mem_append, not_or]
  constructor
  · rintro ⟨hpromise, hvalues, htypes, hwireTypes⟩
    exact ⟨hpromise, ⟨hvalues, fun hname => hsdk (htypes hname)⟩,
      fun hname => hwire (hwireTypes hname)⟩
  · rintro ⟨hpromise, ⟨hvalues, htypes⟩, hwireTypes⟩
    exact ⟨hpromise, hvalues, fun hname => absurd hname htypes,
      fun hname => absurd hname hwireTypes⟩

/-! ### Both modules of a lexicon -/

/-- What the modules of a lexicon capture of the names that they rely on. -/
structure Captures (l : Lexicon) : Prop where
  /-- Where nothing is declared for a member, the capital letters in its type are those of a
  built-in type in front. -/
  builtIn : ∀ k, hasCapital (keywordType k) = false ∨
    ∃ name ∈ builtInTypes, ∃ rest, keywordType k = name ++ rest ∧ hasCapital rest = false
  /-- The types module declares a built-in type just if a definition or a repeated object is called
  like it. -/
  types : ∀ ds, declarations l = .ok ds → ∀ name ∈ builtInTypes,
    (name ∈ ds.map Declaration.name ↔ Captured l name)
  /-- All helpers of the client module return promises. -/
  promises : ∀ c, ofLexicon l = .ok c →
    ∀ h ∈ c.helpers, ∃ type, h.result = promise ++ "<" ++ type ++ ">"
  /-- The client module keeps its names just if the type of the entity is separate from the others,
  wherever it imports from. -/
  client : ∀ c, ofLexicon l = .ok c → ∀ sdkImport typesDir,
    (KeepsNames { c with sdkImport, typesDir } ↔ Separate { c with sdkImport, typesDir })
  /-- Where it imports from the usual modules, the type of the entity is just none of the others. -/
  usual : ∀ c, ofLexicon l = .ok c → (KeepsNames c ↔ c.entity.typeName ∉ fixedNames)

/-- **Which names generated modules capture.** -/
theorem captures_lexicon (l : Lexicon) : Captures l where
  builtIn := mem_builtInTypes_of_keyword
  promises := fun _ _ => result_of_mem_helpers
  types := fun _ hds _ hname => mem_names_iff_captured hds hname
  client := fun _ _ _ _ => keepsNames_iff
  usual := fun _ hc => keepsNames_iff.trans (separate_iff_of_ofLexicon hc)

/-- A lexicon of one record without properties. -/
def recordLexicon (id : String) : Lexicon := ⟨id, none, .ofList [("main", recordOf [])]⟩

/-- A note with an object of which nothing is known, and a definition called like the type of such
objects. -/
def recordNotes : Lexicon :=
  noteLexicon [("main", recordOf [("extra", objectSchema [])]),
    ("record", .schema (objectSchema [("text", textSchema)]))]

/-- A module declares the type that a member of its own is written with, and the type names of
entities are those of promises and of something else that the client module imports. -/
theorem captured_names :
    (declarations recordNotes = .ok [
      .interface ⟨"Note", none, [⟨"$type", "'com.example.note'", none, false⟩,
        ⟨"extra", "Record<string, any>", none, true⟩]⟩,
      .interface ⟨"Record", none, [⟨"text", "string", none, true⟩]⟩]) ∧
    (∃ c, ofLexicon (recordLexicon "com.example.promise") = .ok c ∧
      promise ∈ importedNames c.imports) ∧
    ∃ c, ofLexicon (recordLexicon "com.example.habitat-client") = .ok c ∧
      ¬ (importedNames c.imports).Nodup := by
  refine ⟨by rfl, ⟨_, by rfl, by decide +kernel⟩, _, by rfl, by decide +kernel⟩

end Lexgen.Client
