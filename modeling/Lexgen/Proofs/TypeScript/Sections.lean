/-
# A module is its sections with empty lines between them

The header lines together, the statements for imports together and each declaration by itself are
the sections of a module. Each is written behind the sections before it as it is written alone, so
the text is always these sections, each with an empty line behind it (`Module.text_foldl_section`).
Cutting off the line feeds at the end leaves one.

Key definitions: `Module.sections`, `Module.Separated`.
Key theorems: `Module.write_eq_foldl`, `Module.text_foldl_section`, `Module.separated_render`.
-/
import Lexgen.Proofs.Code.Behind
import Lexgen.Proofs.TypeScript.Module

namespace Lexgen.TypeScript

open Lexgen.Code Lexgen.Code.Writer Lexgen.Text

/-! ### From the empty module to all sections -/

/-- Sections with an empty line behind each are settled. -/
theorem settled_page {ss : List String} (h : ∀ s ∈ ss, IsSection s) : Settled (page ss) := by
  rcases List.eq_nil_or_concat' ss with rfl | ⟨front, s, rfl⟩
  · exact .inl rfl
  · obtain ⟨t, ht⟩ := (h s (by simp)).whole
    refine .inr ?_
    rw [page_concat, endsBlank_append_lineFeed, ht, String.toList_append, List.getLast?_append,
      String.toList_append, List.getLast?_append]
    rfl

/-- The sections joined by empty lines are the sections with empty lines behind them, but for the
last empty line. -/
@[simp] theorem intercalate_concat (ss : List String) (t : String) :
    "\n".intercalate (ss ++ [t]) = page ss ++ t := by
  induction ss with
  | nil => simp [page]
  | cons s ss ih =>
    obtain ⟨u, us, hus⟩ := List.exists_cons_of_ne_nil (l := ss ++ [t]) (by simp)
    rw [List.cons_append, hus, String.intercalate_cons_cons, ← hus, ih, page_cons,
      ← String.append_assoc]

theorem dropLineFeeds_section {s : String} {c : Char} (h : s.toList.getLast? = some c)
    (hc : c ≠ '\n') : dropLineFeeds (s ++ "\n" ++ "\n") = s := by
  obtain ⟨front, hfront⟩ := List.getLast?_eq_some_iff.1 h
  have hchars : (s ++ "\n" ++ "\n").toList.reverse = '\n' :: '\n' :: c :: front.reverse := by
    simp [hfront]
  rw [dropLineFeeds, hchars]
  simp [hc, ← hfront]

namespace Module

/-- The pieces that are written one below the other: the header, the imports and the
declarations. -/
def elements (m : Module) : List (List Fragment) :=
  m.header.map .line :: m.imports.flatMap Import.fragments :: m.body

/-- The header lines together, the statements for imports together and each declaration by itself,
without those that are empty. -/
def sections (m : Module) (indent : Indent) : List String :=
  (page m.header :: page (m.imports.map Import.text) :: m.body.map (Code.render · indent)).filter
    (!·.isEmpty)

theorem foldl_line_eq : ∀ (ls : List String) (w : Writer),
    ls.foldl Writer.line w = w.putAll (ls.map .line)
  | [], _ => rfl
  | l :: ls, w => foldl_line_eq ls (w.line l)

theorem foldl_fragments_eq : ∀ (is : List Import) (w : Writer),
    is.foldl (fun w i => w.putAll i.fragments) w = w.putAll (is.flatMap Import.fragments)
  | [], _ => rfl
  | i :: is, w => foldl_fragments_eq is (w.line i.text)

/-- Every piece is written in the same way. -/
theorem write_eq_foldl (m : Module) (w : Writer) :
    m.write w = m.elements.foldl (fun w fs => (w.putAll fs).blank) w := by
  rw [write, foldl_line_eq, foldl_fragments_eq]
  rfl

@[simp] theorem render_map_line (ls : List String) (indent : Indent) :
    Code.render (ls.map .line) indent = page ls := by
  have hlines := text_foldl_line ls (Writer.start indent) rfl
  rw [foldl_line_eq] at hlines
  exact hlines.trans String.empty_append

theorem flatMap_fragments (is : List Import) :
    is.flatMap Import.fragments = (is.map Import.text).map .line := by
  rw [List.map_map, List.map_eq_flatMap]
  rfl

theorem framed_imports (is : List Import) : Framed (page (is.map Import.text)) := by
  refine framed_page fun l hl => ?_
  obtain ⟨i, -, rfl⟩ := List.mem_map.1 hl
  have hhead : i.text.toList.head? = some 'i' := by
    unfold Import.text
    split
    · simp
    · simp
  refine ⟨fun hnil => ?_, by simp [hhead], by simp [getLast?_text i]⟩
  simp [hnil] at hhead

theorem sections_eq (m : Module) (indent : Indent) :
    m.sections indent = (m.elements.map (Code.render · indent)).filter (!·.isEmpty) := by
  rw [elements, flatMap_fragments, List.map_cons, List.map_cons, render_map_line, render_map_line]
  rfl

/-- A piece is written behind the sections before it, with an empty line behind it, unless it is
empty. -/
theorem text_section {w : Writer} {ss : List String} {fs : List Fragment} (hlevel : w.level = 0)
    (htext : w.text = page ss) (hss : ∀ s ∈ ss, IsSection s)
    (hfs : Framed (Code.render fs w.indent)) :
    (w.putAll fs).blank.text = page (ss ++ [Code.render fs w.indent].filter (!·.isEmpty)) := by
  have hfollows : Follows (page ss) (w.putAll fs) ((Writer.start w.indent).putAll fs) := by
    refine Follows.putAll (settled_page hss) fs ⟨rfl, hlevel, ?_⟩ hfs.starts
    exact htext.trans String.append_empty.symm
  have hwritten : (w.putAll fs).text = page ss ++ Code.render fs w.indent := hfollows.text
  by_cases hempty : Code.render fs w.indent = ""
  · rw [hempty, String.append_empty] at hwritten
    rw [blank_of_settled (hwritten ▸ settled_page hss), hwritten, hempty]
    simp
  · have hends : endsBlank (w.putAll fs).text = false := by
      rw [hwritten, endsBlank_append _ hempty hfs.starts, hfs.ends]
    have hne : (w.putAll fs).text.isEmpty = false := by
      rw [hwritten]
      simp [hempty]
    rw [Writer.blank, hne, hends, hwritten]
    simp [hempty, page, String.append_assoc]

/-- The text after some pieces: each that is not empty, with an empty line behind it. -/
theorem text_foldl_section : ∀ (elements : List (List Fragment)) {w : Writer} {ss : List String},
    w.level = 0 → w.text = page ss → (∀ s ∈ ss, IsSection s) →
    (∀ fs ∈ elements, Framed (Code.render fs w.indent)) →
    (elements.foldl (fun w fs => (w.putAll fs).blank) w).text =
      page (ss ++ (elements.map (Code.render · w.indent)).filter (!·.isEmpty))
  | [], _, _, _, htext, _, _ => by simpa using htext
  | fs :: rest, w, ss, hlevel, htext, hss, helements => by
    have hfs : Framed (Code.render fs w.indent) := helements fs (List.mem_cons_self ..)
    have hlevel' : (w.putAll fs).blank.level = 0 := by simpa using hlevel
    have hindent : (w.putAll fs).blank.indent = w.indent := by simp
    have hnext : ∀ s ∈ ss ++ [Code.render fs w.indent].filter (!·.isEmpty), IsSection s := by
      intro s hs
      rw [List.mem_append, List.mem_filter, List.mem_singleton] at hs
      rcases hs with hs | ⟨rfl, hne⟩
      · exact hss s hs
      · exact isSection_render hfs (by simpa using hne)
    have hrest := text_foldl_section rest hlevel' (text_section hlevel htext hss hfs) hnext
      (fun gs hgs => hindent ▸ helements gs (List.mem_cons_of_mem fs hgs))
    rw [List.foldl_cons, hrest, hindent, List.append_assoc, ← List.filter_append]
    rfl

/-- Sections and the text in which one empty line stands between each two of them. -/
structure Separated (ss : List String) (text : String) : Prop where
  /-- No section is empty, and an empty line neither starts nor ends one. -/
  sections : ∀ s ∈ ss, IsSection s
  /-- The sections stand in their order, and an empty line stands between two of them. -/
  joined : text = "\n".intercalate ss
  /-- No empty line stands in front of the first section. -/
  starts : text.toList.head? ≠ some '\n'
  /-- The text ends with the end of the last line, and nothing stands behind it. -/
  ends : ss ≠ [] → ∃ t c, text = t ++ "\n" ∧ t.toList.getLast? = some c ∧ c ≠ '\n'
  /-- Without sections there is no text. -/
  empty : text = "" ↔ ss = []

/-- Cutting off line feeds behind sections with an empty line behind each leaves one line feed. -/
theorem separated_page {ss : List String} (hss : ∀ s ∈ ss, IsSection s) {m : Module}
    {indent : Indent} (h : (m.write (Writer.start indent)).text = page ss) :
    Separated ss (m.render indent) := by
  rcases List.eq_nil_or_concat' ss with rfl | ⟨front, s, rfl⟩
  · have hrender : m.render indent = "" := by
      rw [render, h]
      rfl
    rw [hrender]
    exact ⟨hss, rfl, by simp, fun hne => absurd rfl hne, by simp⟩
  · obtain ⟨t, c, ht, hlast, hc⟩ := (hss s (by simp)).exists_eq
    have hend : (page front ++ t).toList.getLast? = some c := getLast?_append_of_eq_some hlast
    have hpage : page (front ++ [s]) = page front ++ t ++ "\n" ++ "\n" := by
      rw [page_concat, ht, ← String.append_assoc]
    have hne : (page front ++ t).isEmpty = false := by
      rw [← Bool.not_eq_true, String.isEmpty_iff]
      intro hnil
      rw [hnil] at hend
      cases hend
    have hrender : m.render indent = page front ++ t ++ "\n" := by
      rw [render, h, hpage, dropLineFeeds_section hend hc]
      simp only [hne, Bool.false_eq_true, if_false]
    have hjoined : m.render indent = "\n".intercalate (front ++ [s]) := by
      rw [hrender, intercalate_concat, ht, String.append_assoc]
    have hstart : (m.render indent).toList.head? ≠ some '\n' := by
      have hfirst := head?_page fun s hs => ⟨(hss s hs).nonempty, (hss s hs).starts⟩
      rw [hpage, ← hrender, String.toList_append, List.head?_append_of_ne_nil _ (by simp [hrender])]
        at hfirst
      exact hfirst
    have hempty : m.render indent = "" ↔ front ++ [s] = [] := by simp [hrender]
    exact ⟨hss, hjoined, hstart, fun _ => ⟨page front ++ t, c, hrender, hend, hc⟩, hempty⟩

/-- **A module is its sections with one empty line between them.** The lines of the header together,
the statements for imports together and each declaration by itself, without those that are empty,
stand in this order; the text does not start with an empty line, ends with one line feed and is
empty if there is no section. -/
theorem separated_render (m : Module) (indent : Indent)
    (hheader : ∀ l ∈ m.header, l ≠ "" ∧ '\n' ∉ l.toList)
    (hbody : ∀ fs ∈ m.body, Code.render fs indent = "" ∨ Framed (Code.render fs indent)) :
    Separated (m.sections indent) (m.render indent) := by
  have hlines : Framed (page m.header) := by
    refine framed_page fun l hl => ⟨(hheader l hl).1, fun hhead => ?_, fun hlast => ?_⟩
    · exact (hheader l hl).2 (List.mem_of_head? hhead)
    · exact (hheader l hl).2 (List.mem_of_getLast? hlast)
  have hframed : ∀ fs ∈ m.elements, Framed (Code.render fs indent) := by
    intro fs hfs
    rw [elements, List.mem_cons, List.mem_cons] at hfs
    rcases hfs with rfl | rfl | hfs
    · rw [render_map_line]
      exact hlines
    · rw [flatMap_fragments, render_map_line]
      exact framed_imports m.imports
    · rcases hbody fs hfs with hempty | hframed
      · exact hempty ▸ framed_empty
      · exact hframed
  have hstart : (Writer.start indent).text = page [] := rfl
  have htext := text_foldl_section m.elements rfl hstart (fun s hs => absurd hs List.not_mem_nil)
    hframed
  rw [← write_eq_foldl, List.nil_append] at htext
  rw [sections_eq]
  refine separated_page (fun s hs => ?_) htext
  obtain ⟨hs, hne⟩ := List.mem_filter.1 hs
  obtain ⟨fs, hfs, rfl⟩ := List.mem_map.1 hs
  exact isSection_render (hframed fs hfs) (by simpa using hne)

/-- A module with imports, an empty declaration and a declaration with empty lines inside. -/
def guarded : Module where
  header := ["// Generated."]
  imports := [⟨"./runtime", ["run"], false⟩]
  body := [[.blank], [.block "if (ready) \x7b" [.blank, .line "run();", .blank] (some "\x7d")]]

theorem separated_render_guarded :
    Separated ["// Generated.\n", "import \x7b run \x7d from './runtime';\n",
      "if (ready) \x7b\n\n  run();\n\n\x7d\n"] (guarded.render .standard) := by
  have hsections : guarded.sections .standard = ["// Generated.\n",
      "import \x7b run \x7d from './runtime';\n",
      "if (ready) \x7b\n\n  run();\n\n\x7d\n"] := by decide +kernel
  have hheader : ∀ l ∈ guarded.header, l ≠ "" ∧ '\n' ∉ l.toList := by decide +kernel
  have hbody : ∀ fs ∈ guarded.body,
      Code.render fs .standard = "" ∨ Framed (Code.render fs .standard) := by
    intro fs hfs
    rcases List.mem_pair.1 hfs with rfl | rfl
    · exact .inl (by decide +kernel)
    · exact .inr ⟨by decide +kernel, by decide +kernel⟩
  have hseparated := separated_render guarded .standard hheader hbody
  rw [hsections] at hseparated
  exact hseparated

end Module

end Lexgen.TypeScript
