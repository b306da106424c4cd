/-
# The marker of generated modules

Both modules of a lexicon start with one header line that names its id, and an empty line
(`exists_render_eq_header`). The id stands there as it is, while a comment behind two slashes ends
at the first line terminator. So the comment is the whole marker just if the id has no line
terminator; otherwise what stands behind the first one in the id is outside of the comment and
becomes a part of the program (`Marked`).

Key definitions: `lineComment?`, `Marked`.
Key theorems: `exists_render_eq_header`, `marked_of_eq`, `marked_modules`.
-/
import Mathlib.Data.Bool.AllAny
import Mathlib.Data.List.TakeWhile
import Lexgen.Proofs.Client.Collection
import Lexgen.Proofs.Code.Growth
import Lexgen.Proofs.TypeScript.Comment

namespace Lexgen.TypeScript

open Lexgen.Code Lexgen.Code.Writer Lexgen.Text

/-! ### A header and an empty line -/

/-- A module with a header line starts with it and an empty line, if its first declaration has a
line that says something. -/
theorem exists_render_eq_header {m : Module} {comment : String} {last : Char}
    (hheader : m.header = [comment]) (hlast : comment.toList.getLast? = some last)
    (hfeed : last ≠ '\n') {first : List Fragment} {rest : List (List Fragment)}
    (hbody : m.body = first :: rest) {depth : Nat} {line : String} {c : Char}
    (hline : .line depth line ∈ Fragment.piecesAll first) (hc : c ∈ line.toList) (hne : c ≠ '\n')
    (indent : Indent) : ∃ more, m.render indent = comment ++ "\n\n" ++ more := by
  let step (w : Writer) (fs : List Fragment) : Writer := (w.putAll fs).blank
  have hsteps (w : Writer) (fs : List Fragment) : Continues w (step w fs) :=
    (continues_putAll fs w).trans (continues_blank _)
  have hconcat : m.header = [] ++ [comment] := hheader
  have hopened := Module.text_header hconcat hlast hfeed indent
  have himports := continues_foldl (fun w (i : Import) => continues_putAll i.fragments w) m.imports
    (m.header.foldl Writer.line (Writer.start indent)).blank
  obtain ⟨imported, himported⟩ := (himports.trans (continues_blank _)).text
  obtain ⟨declared, hdeclared, hmem⟩ :=
    (grows_putAll first (m.preamble (Writer.start indent))).exists_append_of_mem hline hc
  obtain ⟨others, hothers⟩ := ((continues_blank _).trans (continues_foldl hsteps rest _)).text
  have htext : (m.write (Writer.start indent)).text =
      page [comment, ""] ++ (imported ++ declared ++ others) := by
    have hwrite : m.write (Writer.start indent) =
        m.body.foldl step (m.preamble (Writer.start indent)) := rfl
    rw [hwrite, hbody, List.foldl_cons, hothers, hdeclared, Module.preamble, himported, hopened]
    simp only [List.nil_append, String.append_assoc]
  have hrender := Module.render_eq htext (List.cons_ne_nil _ _) ⟨c, by simp [hmem], hne⟩
  refine ⟨_, hrender.trans (congrArg (· ++ _) ?_)⟩
  simp [page, String.append_assoc]

/-! ### Comments that end with their line -/

/-- A comment behind two slashes, and what follows it: it ends at the first line terminator. -/
def lineComment? (cs : List Char) : Option (List Char × List Char) :=
  if ['/', '/'].isPrefixOf cs then
    some (cs.takeWhile (· ∉ lineTerminators), cs.dropWhile (· ∉ lineTerminators))
  else none

theorem lineComment?_append {front rest : List Char} {c : Char} (hslashes : ['/', '/'] <+: front)
    (hfront : ∀ d ∈ front, d ∉ lineTerminators) (hc : c ∈ lineTerminators) :
    lineComment? (front ++ c :: rest) = some (front, c :: rest) := by
  have hpasses : ∀ d ∈ front, decide (d ∉ lineTerminators) = true := by simpa using hfront
  have hstart : ['/', '/'].isPrefixOf (front ++ c :: rest) = true :=
    List.isPrefixOf_iff_prefix.2 (hslashes.trans (List.prefix_append _ _))
  rw [lineComment?, if_pos hstart, List.takeWhile_append_of_pos hpasses,
    List.dropWhile_append_of_pos hpasses, List.takeWhile_cons, List.dropWhile_cons]
  simp [hc]

theorem not_mem_of_lineComment? {cs comment rest : List Char}
    (h : lineComment? cs = some (comment, rest)) : ∀ d ∈ comment, d ∉ lineTerminators := by
  unfold lineComment? at h
  split at h
  · intro d hd
    rw [← (Prod.mk.inj (Option.some.inj h)).1] at hd
    simpa using List.mem_takeWhile_imp hd
  · cases h

/-- How a text starts with a comment that names an id. -/
structure Marked (id comment text : String) : Prop where
  /-- The comment names the whole id. -/
  names : ∃ before after, comment = before ++ id ++ after
  /-- The text starts with what should be the comment, and two line feeds. -/
  written : ∃ rest, text = comment ++ "\n\n" ++ rest
  /-- The comment at the start of the text is just this, with an empty line behind it, exactly if
  the id has no line terminator. -/
  comment_iff : (∃ rest, lineComment? text.toList = some (comment.toList, '\n' :: '\n' :: rest)) ↔
    ∀ c ∈ lineTerminators, c ∉ id.toList
  /-- It is the first of the lines that end with line feeds, and the second is empty, exactly if the
  id has no line feed. -/
  lines_iff : (∃ rest, text.toList.splitOn '\n' = comment.toList :: [] :: rest) ↔ '\n' ∉ id.toList
  /-- What stands in the id from its first line terminator on is not in the comment any more. -/
  broken : ∀ before c after, id.toList = before ++ c :: after → c ∈ lineTerminators →
    (∀ d ∈ before, d ∉ lineTerminators) → ∃ front back,
      lineComment? text.toList = some (front ++ before, c :: (after ++ back))

/-- A text that starts with an id between two texts on one line and two line feeds. -/
theorem marked_of_eq {front id back text rest : String} (hslashes : ['/', '/'] <+: front.toList)
    (hfront : ∀ d ∈ front.toList, d ∉ lineTerminators)
    (hback : ∀ d ∈ back.toList, d ∉ lineTerminators)
    (h : text = front ++ id ++ back ++ "\n\n" ++ rest) :
    Marked id (front ++ id ++ back) text := by
  have hfeed : '\n' ∈ lineTerminators := by decide
  have hchars : text.toList =
      (front ++ id ++ back).toList ++ '\n' :: '\n' :: rest.toList := by simp [h]
  have hcomment : (front ++ id ++ back).toList = front.toList ++ id.toList ++ back.toList := by
    simp
  refine ⟨⟨front, back, rfl⟩, ⟨rest, h⟩, ?_, ?_, fun before c after hid hc hbefore => ?_⟩
  · constructor
    · rintro ⟨_, hread⟩ c hc hmem
      refine not_mem_of_lineComment? hread c ?_ hc
      rw [hcomment]
      simp [hmem]
    · intro hid
      refine ⟨rest.toList, ?_⟩
      have hplain : ∀ d ∈ (front ++ id ++ back).toList, d ∉ lineTerminators := by
        rw [hcomment, List.forall_mem_append, List.forall_mem_append]
        exact ⟨⟨hfront, fun d hd hterm => hid d hterm hd⟩, hback⟩
      have hopens : ['/', '/'] <+: (front ++ id ++ back).toList := by
        rw [hcomment, List.append_assoc]
        exact hslashes.trans (List.prefix_append _ _)
      rw [hchars]
      exact lineComment?_append hopens hplain hfeed
  · constructor
    · rintro ⟨_, hsplit⟩ hmem
      rw [List.splitOn_eq_splitOnP] at hsplit
      have hpiece : (front ++ id ++ back).toList ∈ text.toList.splitOnP (· == '\n') := by
        rw [hsplit]
        exact List.mem_cons_self ..
      have hself := (mem_of_mem_splitOnP hpiece (x := '\n') (by rw [hcomment]; simp [hmem])).2
      simp at hself
    · intro hid
      have hplain : '\n' ∉ (front ++ id ++ back).toList := by
        rw [hcomment, List.mem_append, List.mem_append]
        rintro ((hmem | hmem) | hmem)
        · exact hfront _ hmem hfeed
        · exact hid hmem
        · exact hback _ hmem hfeed
      refine ⟨rest.toList.splitOn '\n', ?_⟩
      have hempty : ('\n' :: rest.toList).splitOn '\n' = [] :: rest.toList.splitOn '\n' :=
        List.splitOn_append_cons_self_of_not_mem List.not_mem_nil _
      rw [hchars, List.splitOn_append_cons_self_of_not_mem hplain]
      exact congrArg (List.cons _) hempty
  · refine ⟨front.toList, back.toList ++ '\n' :: '\n' :: rest.toList, ?_⟩
    have hsplit : text.toList = (front.toList ++ before) ++
        c :: (after ++ (back.toList ++ '\n' :: '\n' :: rest.toList)) := by
      rw [hchars, hcomment, hid]
      simp
    rw [hsplit]
    refine lineComment?_append (hslashes.trans (List.prefix_append _ _)) ?_ hc
    rw [List.forall_mem_append]
    exact ⟨hfront, hbefore⟩

end Lexgen.TypeScript

namespace Lexgen.Client

open Lexgen.Code Lexgen.Data Lexgen.Lexicon Lexgen.Text Lexgen.TypeScript Lexgen.Types

/-! ### The modules of a lexicon -/

theorem mem_piecesAll_concat {fs : List Fragment} {f : Fragment} {p : Piece} (h : p ∈ f.pieces) :
    p ∈ Fragment.piecesAll (fs ++ [f]) :=
  Fragment.mem_piecesAll.2 ⟨f, List.mem_append_right _ (List.mem_singleton_self f), h⟩

/-- Every declaration has a line that exports it. -/
theorem exists_exportLine (d : Declaration) : ∃ line,
    .line 0 line ∈ Fragment.piecesAll d.fragments ∧ 'e' ∈ line.toList := by
  rcases d with i | a
  · by_cases hmembers : i.members.isEmpty = true
    · rw [Declaration.fragments, Interface.fragments, if_pos hmembers]
      exact ⟨_, mem_piecesAll_concat (List.mem_cons_self ..), by simp⟩
    · rw [Declaration.fragments, Interface.fragments, if_neg hmembers]
      exact ⟨_, mem_piecesAll_concat (List.mem_cons_self ..), by simp⟩
  · exact ⟨_, mem_piecesAll_concat (List.mem_cons_self ..), by simp⟩

theorem mem_signature (f : Function) : 'e' ∈ f.signature.toList := by
  delta Function.signature
  simp only [String.toList_append, List.append_assoc]
  exact List.mem_append_left _ (by decide)

theorem marked_generate {l : Lexicon} {text : String} (h : generate l = .ok text) :
    Marked l.id (Types.marker l.id) text := by
  obtain ⟨ds, hds, h⟩ := bind_eq_ok_iff.mp h
  obtain rfl := pure_eq_ok_iff.mp h
  obtain ⟨drafts, -, -, hne, rfl⟩ := declarations_eq_ok_iff.mp hds
  obtain ⟨d, rest, hdeclared⟩ := List.exists_cons_of_ne_nil (l := declare drafts) (by
    rw [declare]
    simp [hne])
  have hbody : (moduleOf l.id (declare drafts)).body =
      d.fragments :: rest.map Declaration.fragments := by
    rw [hdeclared]
    rfl
  obtain ⟨line, hline, hword⟩ := exists_exportLine d
  obtain ⟨more, hmore⟩ := exists_render_eq_header rfl
    (getLast?_append_of_eq_some (c := '.') (by decide)) (by decide) hbody hline hword (by decide)
    Indent.standard
  exact marked_of_eq (by decide) (List.all_iff_forall_prop.1 (by decide))
    (List.all_iff_forall_prop.1 (by decide)) hmore

theorem marked_render (c : Client) :
    Marked c.entity.collection (marker c.entity.collection) c.render := by
  obtain ⟨others, hothers⟩ := exists_helpers c
  have hbody : c.module.body = (c.function c.createHelper).fragments ::
      others.map fun h => (c.function h).fragments := by
    rw [module, functions, hothers, List.map_cons, List.map_cons, List.map_map]
    rfl
  have hline : .line 0 (c.function c.createHelper).signature ∈
      Fragment.piecesAll (c.function c.createHelper).fragments :=
    mem_piecesAll_concat (List.mem_cons_self ..)
  obtain ⟨more, hmore⟩ := exists_render_eq_header rfl
    (getLast?_append_of_eq_some (c := '.') (by decide)) (by decide) hbody hline
    (mem_signature _) (by decide) Indent.standard
  exact marked_of_eq (by decide) (List.all_iff_forall_prop.1 (by decide))
    (List.all_iff_forall_prop.1 (by decide)) hmore

/-- **When the marker of a generated module is one comment line.** Both modules of a lexicon start
with the marker that names its id, and an empty line; the comment at the start is the whole marker
exactly if the id has no line terminator. -/
theorem marked_modules (l : Lexicon) :
    (∀ text, generate l = .ok text → Marked l.id (Types.marker l.id) text) ∧
    ∀ c, ofLexicon l = .ok c → ∀ sdkImport typesDir,
      Marked l.id (marker l.id) (render { c with sdkImport, typesDir }) := by
  refine ⟨fun text htext => marked_generate htext, fun c hc sdkImport typesDir => ?_⟩
  obtain ⟨-, -, -, rfl⟩ := primary?_of_ofLexicon hc
  exact marked_render { entity := l.entity, sdkImport, typesDir }

/-- A lexicon of notes whose id has blanks, quotes and slashes, all on one line. -/
def quotedNotes : Lexicon :=
  ⟨"com.example.it's // my\tnote", none, .ofList [("main", recordOf [("text", textSchema)])]⟩

theorem marked_quotedNotes : ∃ text c, generate quotedNotes = .ok text ∧
    ofLexicon quotedNotes = .ok c ∧
    Marked quotedNotes.id (Types.marker quotedNotes.id) text ∧
    Marked quotedNotes.id (marker quotedNotes.id) c.render ∧
    (∃ rest, lineComment? text.toList =
      some ((Types.marker quotedNotes.id).toList, '\n' :: '\n' :: rest)) ∧
    ∃ rest, lineComment? c.render.toList =
      some ((marker quotedNotes.id).toList, '\n' :: '\n' :: rest) := by
  obtain ⟨htypes, hclient⟩ := marked_modules quotedNotes
  have hid : ∀ c ∈ lineTerminators, c ∉ quotedNotes.id.toList :=
    List.all_iff_forall_prop.1 (by decide)
  have hmarked := htypes _ rfl
  have hrendered := hclient _ rfl "../sdk/atproto" "../types"
  exact ⟨_, _, rfl, rfl, hmarked, hrendered, hmarked.comment_iff.2 hid,
    hrendered.comment_iff.2 hid⟩

/-- A lexicon whose id has a line feed. -/
def slippedNotes : String :=
  "\x7b\"lexicon\": 1, \"id\": \"com.example\\nimport 'elsewhere'; // .note\", \"defs\": " ++
    "\x7b\"main\": \x7b\"type\": \"record\", \"record\": \x7b\"type\": \"object\", " ++
    "\"properties\": \x7b\"text\": \x7b\"type\": \"string\"\x7d\x7d\x7d\x7d\x7d\x7d"

/-- The lexicon is read and its types module is written, but the comment at the start of the module
ends inside of the id, and the rest of the id is an import statement of the module. -/
theorem slipped_slippedNotes : ∃ l text front back, Lexicon.parse slippedNotes = .ok l ∧
    generate l = .ok text ∧ lineComment? text.toList = some (front ++ "com.example".toList,
      "\nimport 'elsewhere'; // .note".toList ++ back) ∧
    (¬ ∃ rest, lineComment? text.toList =
      some ((Types.marker l.id).toList, '\n' :: '\n' :: rest)) ∧
    ¬ ∃ rest, text.toList.splitOn '\n' = (Types.marker l.id).toList :: [] :: rest := by
  have hread : (do let l ← Lexicon.parse slippedNotes; return (l.id, (← declarations l).length)) =
      (.ok ("com.example\nimport 'elsewhere'; // .note", 1) : Except Error (String × Nat)) := by
    decide +kernel
  obtain ⟨l, hl, hread⟩ := bind_eq_ok_iff.mp hread
  obtain ⟨ds, hds, hread⟩ := bind_eq_ok_iff.mp hread
  have hid : l.id = "com.example\nimport 'elsewhere'; // .note" :=
    congrArg Prod.fst (pure_eq_ok_iff.mp hread)
  have htext : generate l = .ok (moduleOf l.id ds).render :=
    bind_eq_ok_iff.mpr ⟨ds, hds, rfl⟩
  have hmarked := marked_generate htext
  have hfeed : '\n' ∈ l.id.toList := by
    rw [hid]
    decide
  obtain ⟨front, back, hcomment⟩ := hmarked.broken "com.example".toList '\n'
    "import 'elsewhere'; // .note".toList (by rw [hid]; decide) (by decide)
    (List.all_iff_forall_prop.1 (by decide))
  refine ⟨l, _, front, back, hl, htext, hcomment, fun h => ?_, fun h => ?_⟩
  · exact hmarked.comment_iff.1 h '\n' (by decide) hfeed
  · exact hmarked.lines_iff.1 h hfeed

end Lexgen.Client
