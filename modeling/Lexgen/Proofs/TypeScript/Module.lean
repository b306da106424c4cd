/-
# The text of a module

A module starts with its header and its imports, each followed by a blank line (`text_preamble`);
its body only adds to that (`exists_text_write`). At the end the line feeds behind the last line are
cut off, but one.

Key definitions: `Module.preamble`.
Key theorems: `Module.text_preamble`, `Module.exists_text_write`, `Module.render_eq`.
-/
import Mathlib.Data.List.TakeWhile
import Lexgen.Proofs.Code.Writer
import Lexgen.TypeScript.Module

namespace Lexgen.TypeScript

open Lexgen.Code Lexgen.Code.Writer Lexgen.Text

theorem getLast?_append_of_eq_some {s t : String} {c : Char} (h : t.toList.getLast? = some c) :
    (s ++ t).toList.getLast? = some c := by
  rw [String.toList_append, List.getLast?_append, h]
  rfl

/-- A blank line is written below a line that says something. -/
theorem text_blank {w : Writer} {ls : List String} {s : String} (h : w.text = page (ls ++ [s]))
    {c : Char} (hc : s.toList.getLast? = some c) (hfeed : c ≠ '\n') :
    w.blank.text = page (ls ++ [s, ""]) := by
  have htext : w.text.toList = (page ls ++ s).toList ++ ['\n'] := by
    rw [h, page_append, page_cons, ← String.append_assoc, String.toList_append,
      String.toList_append]
    simp [page]
  have hlast : (page ls ++ s).toList.getLast? = some c := by
    rw [String.toList_append, List.getLast?_append, hc]
    rfl
  have hempty : w.text.isEmpty = false := by
    rw [← Bool.not_eq_true, String.isEmpty_iff]
    intro hnil
    simp [hnil] at htext
  have hends : endsBlank w.text = false := by
    rw [Bool.eq_false_iff]
    intro hblank
    obtain ⟨before, hbefore⟩ := List.isSuffixOf_iff_suffix.1 hblank
    have hline : before ++ ['\n'] = (page ls ++ s).toList := by
      refine (List.append_left_inj ['\n']).1 ?_
      rw [← htext, ← hbefore, List.append_assoc]
      rfl
    rw [← hline, List.getLast?_append] at hlast
    exact hfeed (Option.some.inj hlast).symm
  have hpage : page (ls ++ [s, ""]) = w.text ++ "\n" := by
    rw [h, ← List.singleton_append, ← List.append_assoc, page_append (ls ++ [s])]
    rfl
  rw [blank, hempty, hends, hpage]
  rfl

/-- A blank line is not written twice. -/
theorem blank_eq_self {w : Writer} {ls : List String} {s : String}
    (h : w.text = page (ls ++ [s, ""])) : w.blank = w := by
  have htext : (page ls ++ s).toList ++ ['\n', '\n'] = w.text.toList := by
    rw [h, page_append, page_cons, String.toList_append, String.toList_append, List.append_assoc,
      String.toList_append, String.toList_append, List.append_assoc]
    rfl
  have hends : endsBlank w.text = true := List.isSuffixOf_iff_suffix.2 ⟨_, htext⟩
  rw [blank, hends, Bool.or_true]
  rfl

theorem text_foldl_imports : ∀ (is : List Import) (w : Writer), w.level = 0 →
    (is.foldl (fun w i => w.putAll i.fragments) w).text = w.text ++ page (is.map Import.text)
  | [], w, _ => String.append_empty.symm
  | i :: is, w, h => by
    have hline : (w.putAll i.fragments).text = w.text ++ page [i.text] := by
      rw [text_putAll _ w rfl, h, Import.fragments, ← w.indent.at_zero i.text]
      rfl
    have hlevel : (w.putAll i.fragments).level = 0 := by simpa using h
    rw [List.foldl_cons, text_foldl_imports is _ hlevel, hline, String.append_assoc, ← page_append]
    rfl

/-! ### The parts of a module -/

theorem getLast?_text (i : Import) : i.text.toList.getLast? = some ';' := by
  unfold Import.text
  split
  · exact getLast?_append_of_eq_some (by decide)
  · exact getLast?_append_of_eq_some (by decide)

namespace Module

/-- The writer after the header and the imports, each followed by a blank line. -/
def preamble (m : Module) (w : Writer) : Writer :=
  (m.imports.foldl (fun w i => w.putAll i.fragments) (m.header.foldl Writer.line w).blank).blank

theorem continues_preamble (m : Module) (w : Writer) : Continues w (m.preamble w) := by
  have hheader := (continues_foldl continues_line m.header w).trans (continues_blank _)
  have himports := continues_foldl (fun w (i : Import) => continues_putAll i.fragments w) m.imports
  exact hheader.trans ((himports _).trans (continues_blank _))

theorem text_foldl_line : ∀ (ls : List String) (w : Writer), w.level = 0 →
    (ls.foldl Writer.line w).text = w.text ++ page ls
  | [], w, _ => String.append_empty.symm
  | l :: ls, w, h => by
    have hlevel : (w.line l).level = 0 := by simpa using h
    rw [List.foldl_cons, text_foldl_line ls _ hlevel, text_line, h, Indent.at_zero,
      String.append_assoc, ← page_append]
    rfl

section Preamble

variable {m : Module} {headers : List String} {last : String} {c : Char}
  (hheader : m.header = headers ++ [last]) (hlast : last.toList.getLast? = some c) (hc : c ≠ '\n')

include hheader hlast hc

/-- The lines of a header and the blank line behind them. -/
theorem text_header (indent : Indent) :
    (m.header.foldl Writer.line (Writer.start indent)).blank.text =
      page (headers ++ [last, ""]) := by
  have hheaded : (m.header.foldl Writer.line (Writer.start indent)).text =
      page (headers ++ [last]) := by
    rw [text_foldl_line m.header (Writer.start indent) rfl, hheader]
    exact String.empty_append
  exact text_blank hheaded hlast hc

/-- A header and imports start a module line by line. -/
theorem text_preamble {imports : List Import} {i : Import} (himports : m.imports = imports ++ [i])
    (indent : Indent) :
    (m.preamble (Writer.start indent)).text =
      page (m.header ++ [""] ++ m.imports.map Import.text ++ [""]) := by
  have hkeeps := continues_foldl continues_line m.header (Writer.start indent)
  have hlevel : (m.header.foldl Writer.line (Writer.start indent)).blank.level = 0 :=
    (hkeeps.trans (continues_blank _)).level
  have himported := text_foldl_imports m.imports _ hlevel
  rw [text_header hheader hlast hc, himports, List.map_append, ← page_append, ← List.append_assoc]
    at himported
  have hlines := text_blank himported (getLast?_text i) (by decide)
  rw [preamble, himports, hlines, List.map_append, hheader]
  simp

/-- A header alone starts a module line by line, too. -/
theorem text_preamble_of_header (himports : m.imports = []) (indent : Indent) :
    (m.preamble (Writer.start indent)).text = page (m.header ++ [""]) := by
  have hlines := text_header hheader hlast hc indent
  rw [preamble, himports, List.foldl_nil, blank_eq_self hlines, hlines, hheader, List.append_assoc]
  rfl

end Preamble

/-- The first part of the body follows right behind the preamble. -/
theorem exists_text_write {m : Module} {first : List Fragment} {rest : List (List Fragment)}
    (hbody : m.body = first :: rest) (hfirst : Fragment.anyBlank first = false) (indent : Indent) :
    ∃ more, (m.write (Writer.start indent)).text = (m.preamble (Writer.start indent)).text ++
      page ((Fragment.outlineAll 0 first).map indent.at) ++ more := by
  let step (w : Writer) (fs : List Fragment) : Writer := (w.putAll fs).blank
  have hwrite (w : Writer) : m.write w = m.body.foldl step (m.preamble w) := rfl
  have hstep (w : Writer) (fs : List Fragment) : Continues w (step w fs) :=
    (continues_putAll fs w).trans (continues_blank _)
  have hkeeps := continues_preamble m (Writer.start indent)
  have htext := text_putAll first (m.preamble (Writer.start indent)) hfirst
  rw [hkeeps.level, hkeeps.indent] at htext
  obtain ⟨more, hmore⟩ := ((continues_blank _).trans (continues_foldl hstep rest _)).text
  refine ⟨more, ?_⟩
  rw [hwrite, hbody, List.foldl_cons, hmore, htext]
  rfl

/-- Line feeds are cut off behind the last other character only. -/
theorem dropLineFeeds_append (s : String) {t : String} (h : ∃ c ∈ t.toList, c ≠ '\n') :
    dropLineFeeds (s ++ t) = s ++ dropLineFeeds t := by
  have hleft : (t.toList.reverse.dropWhile (· == '\n')).isEmpty = false := by
    obtain ⟨c, hc, hne⟩ := h
    rw [List.isEmpty_eq_false_iff, ne_eq, List.dropWhile_eq_nil_iff]
    exact fun hall => hne (by simpa using hall c (List.mem_reverse.2 hc))
  rw [dropLineFeeds, dropLineFeeds, String.toList_append, List.reverse_append,
    List.dropWhile_append, hleft]
  simp

/-- A text that does not end with a line feed stays when line feeds are cut off behind it. -/
theorem exists_dropLineFeeds_append {s : String} {c : Char} (h : s.toList.getLast? = some c)
    (hc : c ≠ '\n') (t : String) : ∃ more, dropLineFeeds (s ++ t) = s ++ more := by
  by_cases hfeeds : ∃ c ∈ t.toList, c ≠ '\n'
  · exact ⟨_, dropLineFeeds_append s hfeeds⟩
  · obtain ⟨before, hbefore⟩ := List.getLast?_eq_some_iff.1 h
    have hall : ∀ d ∈ t.toList.reverse, (d == '\n') = true := by
      intro d hd
      by_contra hne
      exact hfeeds ⟨d, List.mem_reverse.1 hd, by simpa using hne⟩
    have hkept : s.toList.reverse.dropWhile (· == '\n') = s.toList.reverse := by
      rw [hbefore, List.reverse_append, List.reverse_singleton, List.singleton_append,
        List.dropWhile_cons, if_neg (by simpa using hc)]
    refine ⟨"", ?_⟩
    rw [dropLineFeeds, String.toList_append, List.reverse_append,
      List.dropWhile_append_of_pos hall, hkept, List.reverse_reverse, String.ofList_toList,
      String.append_empty]

/-- A text without a line feed at its end that was written first starts the module. -/
theorem exists_render_eq {m : Module} {indent : Indent} {s t : String} {c : Char}
    (h : (m.write (Writer.start indent)).text = s ++ t) (hlast : s.toList.getLast? = some c)
    (hc : c ≠ '\n') : ∃ more, m.render indent = s ++ more := by
  obtain ⟨kept, hkept⟩ := exists_dropLineFeeds_append hlast hc t
  have hnonempty : (s ++ kept).isEmpty = false := by
    rw [← Bool.not_eq_true, String.isEmpty_iff]
    intro hnil
    rw [(String.append_eq_empty_iff.1 hnil).1] at hlast
    cases hlast
  refine ⟨kept ++ "\n", ?_⟩
  rw [render, h, hkept]
  simp only [hnonempty, Bool.false_eq_true, if_false, String.append_assoc]

/-- Lines at the start of the text stay when the line feeds at its end are cut off. -/
theorem render_eq {m : Module} {indent : Indent} {ls : List String} {rest : String}
    (h : (m.write (Writer.start indent)).text = page ls ++ rest) (hne : ls ≠ [])
    (hrest : ∃ c ∈ rest.toList, c ≠ '\n') :
    m.render indent = page ls ++ (dropLineFeeds rest ++ "\n") := by
  have hnonempty : (page ls ++ dropLineFeeds rest).isEmpty = false := by
    obtain ⟨l, ls, rfl⟩ := List.exists_cons_of_ne_nil hne
    rw [← Bool.not_eq_true, String.isEmpty_iff, page_cons]
    intro hnil
    simp at hnil
  rw [render, h, dropLineFeeds_append _ hrest]
  simp only [hnonempty, Bool.false_eq_true, if_false, String.append_assoc]

end Module

end Lexgen.TypeScript
