/-
# The collection of a client module is found again

A client module starts with its marker, its imports and the first helper, whose call passes the
collection on (`leadingLines`, `collectionLine`). If the id has neither quotes nor line feeds
(`Quiet`), none of the names and texts made of it has any, so on these lines quotes stand only
around imported modules, and none of them follows a colon. Hence the first line with a collection
is that of the call, and what is found there is the id as it is escaped in a literal. That is the id
itself just if it has no backslash and no carriage return.

Key definitions: `Quiet`, `leadingLines`, `collectionLine`, `Plain`, `Recovers`.
Key theorems: `silent_leadingLines`, `lines_render`, `recovers_ofLexicon`.
-/
import Lexgen.Proofs.Client.Agreement
import Lexgen.Proofs.Name.Casing
import Lexgen.Proofs.Routes.Collection
import Lexgen.Proofs.TypeScript.Doc
import Lexgen.Proofs.TypeScript.Module

namespace Lexgen.Client

open Lexgen.Code Lexgen.Code.Writer Lexgen.Data Lexgen.Name Lexgen.Routes Lexgen.Text
open Lexgen.TypeScript Lexgen.Types

/-! ### Texts without quotes and line feeds -/

/-- Whether a character is neither a quote nor a line feed. -/
def QuietChar (c : Char) : Prop := isQuote c = false ∧ c ≠ '\n'

instance (c : Char) : Decidable (QuietChar c) := inferInstanceAs (Decidable (_ ∧ _))

/-- Whether a text has neither quotes nor line feeds. -/
def Quiet (s : String) : Prop := ∀ c ∈ s.toList, QuietChar c

instance (s : String) : Decidable (Quiet s) := @List.decidableBAll _ _ _ s.toList

theorem Quiet.append {s t : String} (hs : Quiet s) (ht : Quiet t) : Quiet (s ++ t) := by
  intro c hc
  rw [String.toList_append, List.mem_append] at hc
  exact hc.elim (hs c) (ht c)

theorem keptByCasing_quietChar : KeptByCasing QuietChar := by
  rintro c (hletter | rfl)
  · have hne (d : Char) (hd : d.toNat < 0x41) : c ≠ d := fun heq => by
      rw [heq] at hletter
      omega
    have hquote : isQuote c = false := by
      simp [isQuote, hne '\'' (by decide), hne '"' (by decide)]
    exact ⟨hquote, hne '\n' (by decide)⟩
  · decide

theorem Quiet.entityOf {id : String} (h : Quiet id) : Quiet (entityOf id) :=
  forall_mem_entityOf keptByCasing_quietChar h

theorem Quiet.pascal {s : String} (h : Quiet s) : Quiet (pascal s) :=
  forall_mem_pascal keptByCasing_quietChar h

theorem Quiet.docLine {s : String} (h : Quiet s) : Quiet (docLine s) :=
  forall_mem_docLine (by decide) (by decide) h

/-! ### The first lines of a client module -/

/-- The client of a collection, with the usual modules to import from. -/
def ofId (id : String) : Client := { entity := Entity.ofId id }

/-- The helper that comes first. -/
def createHelper (c : Client) : Helper where
  name := c.entity.createName
  doc := "Create a " ++ c.entity.collection ++ " record."
  method := "createRecord"
  arguments := ["record"]
  params := [⟨"record", c.entity.typeName, false⟩]
  result := "Promise<ComAtprotoRepoCreateRecord.Response>"

theorem exists_helpers (c : Client) : ∃ others, c.helpers = c.createHelper :: others := ⟨_, rfl⟩

/-- The imports that are the same in all client modules. -/
def sharedImports : Imports :=
  ((Imports.empty.addValues "../sdk/atproto" sdkValues).addTypes "../sdk/atproto" sdkTypes).addTypes
    wirePackage wireTypes

theorem ofImports_addType_of_new {i : Imports} {module : String} (name : String)
    (h : i.modules.get? module = none) :
    Import.ofImports (i.addType module name) = Import.ofImports i ++ [⟨module, [name], true⟩] := by
  have hentries : (i.addType module name).modules.entries = i.modules.entries ++
      [(module, { types := Sorted.empty.insert name () })] := by
    rw [Imports.addType, Ordered.update, h]
    exact putEntry_of_lookup_eq_none h
  rw [Import.ofImports, hentries, List.flatMap_append]
  rfl

/-- The statements for imports: the type of the entity comes last. -/
theorem ofImports_imports {c : Client} (hc : c.sdkImport = "../sdk/atproto")
    (hsdk : c.typesImport ≠ c.sdkImport) (hwire : c.typesImport ≠ wirePackage) :
    Import.ofImports c.imports =
      Import.ofImports sharedImports ++ [⟨c.typesImport, [c.entity.typeName], true⟩] := by
  have himports : c.imports = sharedImports.addType c.typesImport c.entity.typeName := by
    rw [imports, hc]
    rfl
  rw [himports]
  refine ofImports_addType_of_new _ ?_
  have hnames : sharedImports.modules.names = ["../sdk/atproto", "@atproto/api"] := by decide
  rw [Ordered.get?, List.lookup_eq_none_iff]
  intro e he
  have hmem : e.1 ∈ sharedImports.modules.names := List.mem_map_of_mem he
  rw [hnames] at hmem
  rw [hc] at hsdk
  rw [bne_iff_ne]
  rcases List.mem_cons.1 hmem with heq | hmem
  · exact heq ▸ hsdk
  · exact List.mem_singleton.1 hmem ▸ hwire

/-- The line that starts the call of the first helper. -/
def callLine (c : Client) : String :=
  "return client." ++ c.createHelper.method ++ "<" ++ c.entity.typeName ++ ">" ++ "(\x7b"

/-- The lines of a client module up to the call of the first helper, without its arguments. -/
def leadingLines (c : Client) : List String :=
  [marker c.entity.collection, ""] ++ (Import.ofImports sharedImports).map Import.text ++
    [Import.text ⟨c.typesImport, [c.entity.typeName], true⟩, "",
      docComment (docLine c.createHelper.doc), (c.function c.createHelper).signature] ++
    ["const agent = getDefaultAgent();", "const did = getUserDid();",
      "const client = new HabitatClient(agent, did);", c.callLine].map ("  " ++ ·)

/-- The line that passes the collection on. -/
def collectionLine (c : Client) : String :=
  "    " ++ ("collection: " ++ stringLiteral c.entity.collection ++ ",")

/-- The lines behind it, up to the end of the first helper. -/
def closingLines : List String := ["    " ++ ("record" ++ ","), "  " ++ ("\x7d)" ++ ";"), "\x7d"]

/-! ### They are the first lines -/

theorem outline_createHelper (c : Client) :
    Fragment.outlineAll 0 (c.function c.createHelper).fragments =
      [(0, docComment (docLine c.createHelper.doc)), (0, (c.function c.createHelper).signature),
        (1, "const agent = getDefaultAgent();"), (1, "const did = getUserDid();"),
        (1, "const client = new HabitatClient(agent, did);"), (1, c.callLine),
        (2, "collection: " ++ stringLiteral c.entity.collection ++ ","), (2, "record" ++ ","),
        (1, "\x7d)" ++ ";"), (0, "\x7d")] := by
  rw [Function.fragments, function, call_eq_block]
  rfl

theorem anyBlank_createHelper (c : Client) :
    Fragment.anyBlank (c.function c.createHelper).fragments = false := by
  rw [Function.fragments, function, call_eq_block]
  rfl

/-- The text of the first lines of a client module. -/
theorem exists_text_write {c : Client}
    (h : Import.ofImports c.imports =
      Import.ofImports sharedImports ++ [⟨c.typesImport, [c.entity.typeName], true⟩]) :
    ∃ rest, (c.module.write (Writer.start Indent.standard)).text =
      page (c.leadingLines ++ [c.collectionLine]) ++ rest ∧ 'r' ∈ rest.toList := by
  have himports : c.module.imports = Import.ofImports sharedImports ++
      [⟨c.typesImport, [c.entity.typeName], true⟩] := by
    rw [module, h]
  obtain ⟨others, hothers⟩ := exists_helpers c
  have hheader : c.module.header = [] ++ [marker c.entity.collection] := rfl
  have hlast : (marker c.entity.collection).toList.getLast? = some '.' :=
    getLast?_append_of_eq_some (by decide)
  have hpreamble := Module.text_preamble hheader hlast (by decide) himports Indent.standard
  have hbody : c.module.body = (c.function c.createHelper).fragments ::
      others.map fun h => (c.function h).fragments := by
    rw [module, functions, hothers, List.map_cons, List.map_cons, List.map_map]
    rfl
  obtain ⟨more, hmore⟩ := Module.exists_text_write hbody (anyBlank_createHelper c) Indent.standard
  have hlines : (Fragment.outlineAll 0 (c.function c.createHelper).fragments).map
      Indent.standard.at =
        [docComment (docLine c.createHelper.doc), (c.function c.createHelper).signature] ++
        ["const agent = getDefaultAgent();", "const did = getUserDid();",
          "const client = new HabitatClient(agent, did);", c.callLine].map ("  " ++ ·) ++
        [c.collectionLine] ++ closingLines := by
    have hone (s : String) : Indent.standard.at (1, s) = "  " ++ s := by
      rw [Indent.at, show Indent.standard.levels 1 = "  " by decide]
    have htwo (s : String) : Indent.standard.at (2, s) = "    " ++ s := by
      rw [Indent.at, show Indent.standard.levels 2 = "    " by decide]
    rw [outline_createHelper]
    simp only [List.map_cons, List.map_nil, Indent.at_zero, hone, htwo]
    rfl
  refine ⟨page closingLines ++ more, ?_, ?_⟩
  · rw [hmore, hpreamble, hlines, himports, List.map_append, hheader, ← page_append,
      ← String.append_assoc, ← page_append]
    refine congrArg (page · ++ more) ?_
    simp [leadingLines]
  · rw [String.toList_append, List.mem_append]
    exact .inl (by decide)

/-! ### None of them has a collection -/

/-- A line on which no quote follows a colon. -/
def Silent (s : String) : Prop := '\n' ∉ s.toList ∧ quoteAfterColon false s.toList = false

instance (s : String) : Decidable (Silent s) := inferInstanceAs (Decidable (_ ∧ _))

theorem Quiet.silent {s : String} (h : Quiet s) : Silent s :=
  ⟨fun hfeed => (h '\n' hfeed).2 rfl, quoteAfterColon_of_forall (fun c hc => (h c hc).1) false⟩

theorem Silent.collectionIn?_eq_none {s : String} (h : Silent s) :
    collectionIn? (dropReturn s.toList) = none :=
  Routes.collectionIn?_eq_none (quoteAfterColon_dropReturn h.2)

theorem quietChar_escapeChar {c : Char} (h : QuietChar c) : ∀ d ∈ escapeChar c, QuietChar d := by
  have hpair {a b : Char} (ha : QuietChar a) (hb : QuietChar b) : ∀ d ∈ [a, b], QuietChar d :=
    List.forall_mem_cons.2 ⟨ha, List.forall_mem_singleton.2 hb⟩
  unfold escapeChar
  split
  · exact hpair (by decide) (by decide)
  · exact absurd h (by decide)
  · exact hpair (by decide) (by decide)
  · exact hpair (by decide) (by decide)
  · exact fun d hd => List.mem_singleton.1 hd ▸ h

theorem quietChar_flatMap_escapeChar {cs : List Char} (h : ∀ c ∈ cs, QuietChar c) :
    ∀ d ∈ cs.flatMap escapeChar, QuietChar d := by
  intro d hd
  obtain ⟨c, hc, hd⟩ := List.mem_flatMap.1 hd
  exact quietChar_escapeChar (h c hc) d hd

/-- What stands in front of the quotes of an import statement. -/
def importHead (i : Import) : String :=
  "import " ++ (if i.typeOnly then "type " else "") ++ "\x7b " ++ ", ".intercalate i.names ++
    " \x7d fro"

theorem toList_importText {i : Import} (hnames : i.names ≠ []) : i.text.toList =
    (importHead i).toList ++ 'm' :: ' ' :: '\'' :: (i.source.toList.flatMap escapeChar ++
      ['\'', ';']) := by
  have hempty : i.names.isEmpty = false := List.isEmpty_eq_false_iff.2 hnames
  have hfrom : " \x7d from " = " \x7d fro" ++ "m " := by decide
  rw [Import.text, hempty, importHead, hfrom]
  simp [stringLiteral]

theorem quiet_importHead {i : Import} (h : ∀ n ∈ i.names, Quiet n) : Quiet (importHead i) := by
  have hnames : Quiet (", ".intercalate i.names) := by
    intro c hc
    rcases mem_of_mem_intercalate hc with hc | ⟨n, hn, hc⟩
    · exact (show Quiet ", " by decide) c hc
    · exact h n hn c hc
  have hword : Quiet ("import " ++ (if i.typeOnly then "type " else "") ++ "\x7b ") := by
    split <;> decide
  exact (hword.append hnames).append (by decide)

/-- The quotes of an import statement stand behind the word in front of them and behind the last
character of the module. -/
theorem silent_importText {i : Import} (hnames : i.names ≠ []) (hquiet : ∀ n ∈ i.names, Quiet n)
    (hsource : Quiet i.source) {c : Char} (hlast : i.source.toList.getLast? = some c)
    (hself : escapeChar c = [c]) (hblank : isBlank c = false) (hcolon : (c == ':') = false) :
    Silent i.text := by
  have hhead := quiet_importHead hquiet
  have hbody := quietChar_flatMap_escapeChar hsource
  have htext := toList_importText hnames
  constructor
  · rw [htext, List.mem_append, not_or]
    exact ⟨hhead.silent.1, by simpa using fun hfeed => (hbody '\n' hfeed).2 rfl⟩
  · obtain ⟨front, hfront⟩ := List.getLast?_eq_some_iff.1 hlast
    have hopen (cs : List Char) : quoteAfterColon ('m' == ':') (' ' :: '\'' :: cs) =
        quoteAfterColon false cs := rfl
    have hquote : isQuote c = false := (hsource c (List.mem_of_getLast? hlast)).1
    have hfrontBody : ∀ d ∈ front.flatMap escapeChar, isQuote d = false := fun d hd =>
      (hbody d (by rw [hfront, List.flatMap_append]; exact List.mem_append_left _ hd)).1
    have hsplit : i.source.toList.flatMap escapeChar = front.flatMap escapeChar ++ [c] := by
      rw [hfront, List.flatMap_append, List.flatMap_singleton, hself]
    rw [htext, quoteAfterColon_append_cons (fun d hd => (hhead d hd).1) rfl rfl, hopen, hsplit,
      List.append_assoc, List.singleton_append,
      quoteAfterColon_append_cons hfrontBody hquote hblank, hcolon]
    rfl

theorem ofImports_sharedImports : Import.ofImports sharedImports =
    [⟨"../sdk/atproto", ["HabitatClient", "getDefaultAgent", "getUserDid"], false⟩,
      ⟨"../sdk/atproto", ["GetRecordResponse", "ListRecordsResponse", "PutRecordResponse"], true⟩,
      ⟨"@atproto/api", ["ComAtprotoRepoCreateRecord", "ComAtprotoRepoGetRecord",
        "ComAtprotoRepoListRecords"], true⟩] := by
  decide +kernel

theorem silent_sharedImports : ∀ i ∈ Import.ofImports sharedImports, Silent i.text := by
  rw [ofImports_sharedImports]
  simp only [List.forall_mem_cons]
  have hsdk : "../sdk/atproto".toList.getLast? = some 'o' := by decide
  have hwire : "@atproto/api".toList.getLast? = some 'i' := by decide
  exact ⟨silent_importText (by decide) (by decide) (by decide) hsdk rfl rfl rfl,
    silent_importText (by decide) (by decide) (by decide) hsdk rfl rfl rfl,
    silent_importText (by decide) (by decide) (by decide) hwire rfl rfl rfl, nofun⟩

theorem quiet_typeName {id : String} (h : Quiet id) : Quiet (ofId id).entity.typeName :=
  h.entityOf.pascal

theorem silent_typesImport {id : String} (h : Quiet id) :
    Silent (Import.text ⟨(ofId id).typesImport, [(ofId id).entity.typeName], true⟩) := by
  have hdir : Quiet (dropSlashes "../types" ++ "/") := by decide
  have hsource : Quiet (ofId id).typesImport :=
    hdir.append (h.entityOf.append (by decide))
  have hlast : (ofId id).typesImport.toList.getLast? = some 's' :=
    getLast?_append_of_eq_some (getLast?_append_of_eq_some (by decide))
  refine silent_importText (List.cons_ne_nil _ _) ?_ hsource hlast rfl rfl rfl
  exact fun n hn => List.mem_singleton.1 hn ▸ quiet_typeName h

theorem silent_leadingLines {id : String} (h : Quiet id) :
    ∀ s ∈ (ofId id).leadingLines, Silent s := by
  have htype := quiet_typeName h
  have hmarker : Quiet (marker id) := (Quiet.append (by decide) h).append (by decide)
  have hdoc : Quiet (docComment (docLine (ofId id).createHelper.doc)) :=
    (Quiet.append (by decide) ((Quiet.append (by decide) h).append (by decide)).docLine).append
      (by decide)
  have hsignature : Quiet ((ofId id).function (ofId id).createHelper).signature := by
    have hparams : Quiet (", ".intercalate ((ofId id).createHelper.params.map Param.text)) := by
      intro c hc
      rcases mem_of_mem_intercalate hc with hc | ⟨p, hp, hc⟩
      · exact (show Quiet ", " by decide) c hc
      · obtain rfl := List.mem_singleton.1 hp
        exact ((show Quiet ("record" ++ "" ++ ": ") by decide).append htype) c hc
    have hname : Quiet (ofId id).createHelper.name :=
      (Quiet.append (by decide) htype).append (by decide)
    have hresult : Quiet (": " ++ "Promise<ComAtprotoRepoCreateRecord.Response>") := by decide
    have hhead : Quiet ("export " ++ "async " ++ "function ") := by decide
    exact ((((hhead.append hname).append (by decide)).append hparams).append (by decide)).append
      hresult |>.append (by decide)
  have hcall : Quiet (ofId id).callLine :=
    (((show Quiet ("return client." ++ "createRecord" ++ "<") by decide).append htype).append
      (by decide)).append (by decide)
  rw [leadingLines]
  simp only [List.forall_mem_append, List.forall_mem_cons, List.forall_mem_map]
  refine ⟨⟨⟨⟨hmarker.silent, by decide, nofun⟩, silent_sharedImports⟩, silent_typesImport h,
    by decide, hdoc.silent, hsignature.silent, nofun⟩, by decide, by decide, by decide,
    (Quiet.append (by decide) hcall).silent, nofun⟩

/-! ### The line of the call has it -/

theorem toList_collectionLine (id : String) : (ofId id).collectionLine.toList =
    "    collection: '".toList ++ (id.toList.flatMap escapeChar ++ '\'' :: [',']) := by
  have hword : "    collection: '".toList = "    ".toList ++ "collection: ".toList ++ ['\''] := by
    decide
  show ("    " ++ ("collection: " ++ stringLiteral id ++ ",")).toList = _
  rw [hword]
  simp [stringLiteral]

theorem flatMap_escapeChar_ne_nil {cs : List Char} (h : cs ≠ []) :
    cs.flatMap escapeChar ≠ [] := by
  intro hnil
  have hlength := length_le_flatMap_escapeChar cs
  rw [hnil] at hlength
  exact h (List.eq_nil_of_length_eq_zero (Nat.le_zero.1 hlength))

/-- On the line of the call stands the collection, escaped. -/
theorem collectionIn?_collectionLine {id : String} (hid : id ≠ "") (h : Quiet id) :
    collectionIn? (ofId id).collectionLine.toList = some (id.toList.flatMap escapeChar) := by
  have hne : id.toList ≠ [] := fun hnil => hid (String.toList_eq_nil_iff.1 hnil)
  rw [toList_collectionLine]
  exact collectionIn?_property (flatMap_escapeChar_ne_nil hne)
    (fun c hc => (quietChar_flatMap_escapeChar h c hc).1) [',']

/-- The lines of a client module: none has a collection before that of the call. -/
theorem lines_render {id : String} (h : Quiet id) (hsdk : (ofId id).typesImport ≠ "../sdk/atproto")
    (hwire : (ofId id).typesImport ≠ wirePackage) :
    ∃ before after, lines (ofId id).render = before ++ (ofId id).collectionLine :: after ∧
      ∀ line ∈ before, collectionIn? line.toList = none := by
  obtain ⟨rest, htext, hrest⟩ := exists_text_write (ofImports_imports rfl hsdk hwire)
  have hrender : (ofId id).render = page ((ofId id).leadingLines ++ [(ofId id).collectionLine]) ++
      (dropLineFeeds rest ++ "\n") :=
    Module.render_eq htext (List.concat_ne_nil _ _) ⟨'r', hrest, by decide⟩
  have hlast : (ofId id).collectionLine.toList.getLast? = some ',' :=
    getLast?_append_of_eq_some (getLast?_append_of_eq_some (by decide))
  have hfeed : ∀ l ∈ (ofId id).leadingLines ++ [(ofId id).collectionLine], '\n' ∉ l.toList := by
    intro l hl
    rcases List.mem_append.1 hl with hl | hl
    · exact (silent_leadingLines h l hl).1
    · have hbody : '\n' ∉ id.toList.flatMap escapeChar := fun hmem =>
        (quietChar_flatMap_escapeChar h '\n' hmem).2 rfl
      rw [List.mem_singleton.1 hl, toList_collectionLine, List.mem_append, not_or]
      exact ⟨by decide, by simpa using hbody⟩
  refine ⟨(ofId id).leadingLines.map fun l => String.ofList (dropReturn l.toList),
    lines (dropLineFeeds rest ++ "\n"), ?_, ?_⟩
  · rw [hrender, lines_page _ hfeed, List.map_append, List.map_singleton,
      dropReturn_of_getLast? (by rw [hlast]; decide), String.ofList_toList, List.append_assoc,
      List.singleton_append]
  · intro line hline
    obtain ⟨l, hl, rfl⟩ := List.mem_map.1 hline
    rw [String.toList_ofList]
    exact (silent_leadingLines h l hl).collectionIn?_eq_none

/-- What scanning a client module finds. -/
theorem collectionOf?_render {id : String} (hid : id ≠ "") (h : Quiet id)
    (hsdk : (ofId id).typesImport ≠ "../sdk/atproto")
    (hwire : (ofId id).typesImport ≠ wirePackage) :
    collectionOf? (ofId id).render = some (String.ofList (id.toList.flatMap escapeChar)) := by
  obtain ⟨before, after, hlines, hbefore⟩ := lines_render h hsdk hwire
  have hnone : before.findSome? (fun line => (collectionIn? line.toList).map String.ofList) =
      none := by
    rw [List.findSome?_eq_none_iff]
    exact fun line hline => by rw [hbefore line hline]; rfl
  rw [collectionOf?, hlines, List.findSome?_append, hnone, List.findSome?_cons,
    collectionIn?_collectionLine hid h]
  rfl

/-! ### Which collections are found again -/

/-- Whether an id has no quotes, backslashes, line feeds and carriage returns. -/
def Plain (id : String) : Prop := ∀ c ∈ id.toList, c ∉ ['\'', '"', '\\', '\n', '\r']

instance (id : String) : Decidable (Plain id) := @List.decidableBAll _ _ _ id.toList

theorem plain_iff {id : String} :
    Plain id ↔ Quiet id ∧ id.toList.flatMap escapeChar = id.toList := by
  rw [flatMap_escapeChar_eq_self_iff, Plain, Quiet, ← forall₂_and]
  refine forall₂_congr fun c _ => ?_
  simp only [QuietChar, isQuote, List.mem_cons, List.not_mem_nil, or_false, not_or,
    Bool.or_eq_false_iff, beq_eq_false_iff_ne]
  tauto

/-- How scanning its client module recovers the collection of a lexicon. -/
structure Recovers (l : Lexicon) (c : Client) : Prop where
  /-- Exactly the plain ids are found again, but for the empty one. -/
  found_iff : collectionOf? c.render = some l.id ↔ l.id ≠ "" ∧ Plain l.id
  /-- A lexicon that was read has no empty id. -/
  read_iff : ∀ text, Lexicon.parse text = .ok l →
    (collectionOf? c.render = some l.id ↔ Plain l.id)
  /-- Then no line before that of the call matches, and what is found there is the whole id. -/
  first : l.id ≠ "" → Plain l.id → ∃ before line after,
    lines c.render = before ++ line :: after ∧
    (∀ b ∈ before, collectionIn? b.toList = none) ∧ collectionIn? line.toList = some l.id.toList

/-- A lexicon that was read has an id that is not blank. -/
theorem hasInk_id_of_parse {text : String} {l : Lexicon} (h : Lexicon.parse text = .ok l) :
    hasInk l.id = true := by
  obtain ⟨doc, hdoc, h⟩ := bind_eq_ok_iff.mp h
  have hid : l.id = doc.id := by
    unfold Lexicon.ofDocument at h
    split at h
    · cases h
    · cases h
      rfl
  obtain ⟨root, id, defs, -, -, hroot, -, rfl⟩ := Lexicon.Document.parse_eq_ok_iff.mp hdoc
  rw [hid]
  exact (Option.filter_eq_some_iff.1 hroot).2

theorem id_ne_of_parse {text : String} {l : Lexicon} (h : Lexicon.parse text = .ok l) :
    l.id ≠ "" := by
  intro hid
  have hink := hasInk_id_of_parse h
  rw [hid] at hink
  exact absurd hink (by decide)

theorem found_iff_of_ofId {id : String} (hsdk : (ofId id).typesImport ≠ "../sdk/atproto")
    (hwire : (ofId id).typesImport ≠ wirePackage) :
    collectionOf? (ofId id).render = some id ↔ id ≠ "" ∧ Plain id := by
  constructor
  · intro h
    obtain ⟨hne, hquiet⟩ := of_collectionOf? h
    rw [collectionOf?_render hne hquiet hsdk hwire] at h
    have hself := congrArg String.toList (Option.some.inj h)
    rw [String.toList_ofList] at hself
    exact ⟨hne, plain_iff.2 ⟨hquiet, hself⟩⟩
  · rintro ⟨hne, hplain⟩
    obtain ⟨hquiet, hself⟩ := plain_iff.1 hplain
    rw [collectionOf?_render hne hquiet hsdk hwire, hself, String.ofList_toList]

/-- **Scanning the client module of a lexicon** gives its id exactly if that is plain. -/
theorem recovers_ofLexicon {l : Lexicon} {c : Client} (hc : ofLexicon l = .ok c) :
    Recovers l c := by
  obtain ⟨hsdk, hwire⟩ := typesImport_ne hc
  obtain ⟨-, -, -, rfl⟩ := primary?_of_ofLexicon hc
  have hfound := found_iff_of_ofId hsdk hwire
  refine ⟨hfound, fun text hread => ?_, fun hne hplain => ?_⟩
  · exact hfound.trans (and_iff_right (id_ne_of_parse hread))
  · obtain ⟨hquiet, hself⟩ := plain_iff.1 hplain
    obtain ⟨before, after, hlines, hbefore⟩ := lines_render hquiet hsdk hwire
    refine ⟨before, _, after, hlines, hbefore, ?_⟩
    rw [collectionIn?_collectionLine hne hquiet, hself]

/-- A lexicon whose id talks of collections itself. -/
def listedNotes : Lexicon :=
  ⟨"com.example.collection: note", none, .ofList [("main", recordOf [("text", textSchema)])]⟩

theorem recovers_listedNotes : ∃ c, ofLexicon listedNotes = .ok c ∧
    collectionOf? c.render = some "com.example.collection: note" ∧ Recovers listedNotes c := by
  have hc : ofLexicon listedNotes = .ok { entity := listedNotes.entity } := by rfl
  have hrecovers := recovers_ofLexicon hc
  exact ⟨_, hc, hrecovers.found_iff.2 (by decide), hrecovers⟩

end Lexgen.Client
