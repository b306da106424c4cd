/-
# Writing behind other text

Written behind a text that is empty or ends with an empty line, fragments give the text that they
give alone (`Writer.Follows.putAll`): blank lines look at the end of the text only, and fragments
whose text does not start with an empty line hide what stands in front of it. What is written ends
with the end of a line (`Writer.wholeLines_putAll`).

Key definitions: `Framed`, `IsSection`, `Writer.Settled`, `Writer.Follows`.
Key theorems: `Writer.Follows.putAll`, `isSection_render`, `framed_page`.
-/
import Mathlib.Data.List.Basic
import Lexgen.Proofs.Code.Writer

namespace Lexgen.Code

open Lexgen.Text

@[simp] theorem page_concat (ls : List String) (l : String) :
    page (ls ++ [l]) = page ls ++ l ++ "\n" := by
  calc page (ls ++ [l]) = page ls ++ page [l] := page_append ls [l]
    _ = page ls ++ (l ++ "\n") := by simp [page]
    _ = page ls ++ l ++ "\n" := (String.append_assoc ..).symm

/-- A text is framed by lines that say something: it neither starts nor ends with an empty line. -/
structure Framed (s : String) : Prop where
  starts : s.toList.head? ≠ some '\n'
  ends : endsBlank s = false

theorem framed_empty : Framed "" := ⟨by simp, by decide⟩

namespace Writer

/-- A text below which no blank line is written. -/
def Settled (s : String) : Prop := s = "" ∨ endsBlank s = true

theorem blank_of_settled {w : Writer} (h : Settled w.text) : w.blank = w := by
  rcases h with h | h
  · simp [blank, h]
  · simp [blank, h]

/-- What stands in front of a line that says something does not matter for the end of a text. -/
theorem endsBlank_append (before : String) {s : String} (hs : s ≠ "")
    (hstart : s.toList.head? ≠ some '\n') : endsBlank (before ++ s) = endsBlank s := by
  obtain ⟨c, rest, hchars⟩ : ∃ c rest, s.toList = c :: rest :=
    List.exists_cons_of_ne_nil fun hnil => hs (String.toList_eq_nil_iff.1 hnil)
  have hc : c ≠ '\n' := by
    intro hc
    exact hstart (by rw [hchars, hc, List.head?_cons])
  rw [Bool.eq_iff_iff, endsBlank, endsBlank, List.isSuffixOf_iff_suffix,
    List.isSuffixOf_iff_suffix, String.toList_append, hchars]
  refine ⟨fun h => ?_, fun h => h.trans (List.suffix_append _ _)⟩
  by_cases hrest : rest = []
  · obtain ⟨front, hfront⟩ := h
    have hlast := congrArg List.getLast? hfront
    simp only [hrest, List.getLast?_append, List.getLast?_cons, List.getLast?_nil] at hlast
    exact absurd (Option.some.inj hlast).symm hc
  · have hlength : ['\n', '\n'].length ≤ (c :: rest).length := by
      have := List.length_pos_iff.2 hrest
      simp only [List.length_cons, List.length_nil]
      omega
    exact List.suffix_of_suffix_length_le h (List.suffix_append _ _) hlength

/-- Two writers that differ by a text in front only. -/
structure Follows (before : String) (w v : Writer) : Prop where
  indent : w.indent = v.indent
  level : w.level = v.level
  text : w.text = before ++ v.text

/-- A text keeps its first character while more is written. -/
theorem Continues.head?_ne {v v' : Writer} (h : Continues v v')
    (hstart : v'.text.toList.head? ≠ some '\n') : v.text.toList.head? ≠ some '\n' := by
  obtain ⟨more, hmore⟩ := h.text
  intro hhead
  apply hstart
  rw [hmore, String.toList_append, List.head?_append, hhead]
  rfl

namespace Follows

variable {before : String} {w v : Writer}

theorem line (h : Follows before w v) (s : String) : Follows before (w.line s) (v.line s) where
  indent := h.indent
  level := h.level
  text := by rw [text_line, text_line, h.text, h.indent, h.level, String.append_assoc]

theorem close (h : Follows before w v) : ∀ c : Option String,
    Follows before (w.close c) (v.close c)
  | none => h
  | some s => h.line s

theorem deeper (h : Follows before w v) : Follows before w.deeper v.deeper :=
  ⟨h.indent, congrArg (· + 1) h.level, h.text⟩

theorem shallower (h : Follows before w v) : Follows before w.shallower v.shallower :=
  ⟨h.indent, congrArg (· - 1) h.level, h.text⟩

theorem blank (h : Follows before w v) (hbefore : Settled before)
    (hstart : v.text.toList.head? ≠ some '\n') : Follows before w.blank v.blank := by
  by_cases hv : v.text = ""
  · have hw : w.text = before := by rw [h.text, hv, String.append_empty]
    rw [blank_of_settled (w := w) (hw ▸ hbefore), blank_of_settled (.inl hv)]
    exact h
  · have hw : w.text ≠ "" := by
      rw [h.text]
      exact fun hnil => hv (String.append_eq_empty_iff.1 hnil).2
    have hends : endsBlank w.text = endsBlank v.text := by
      rw [h.text, endsBlank_append before hv hstart]
    have hadded : ∀ u : Writer, u.text ≠ "" →
        u.blank = if endsBlank u.text then u else { u with text := u.text ++ "\n" } := by
      intro u hu
      have hempty : u.text.isEmpty = false := by simpa using hu
      rw [Writer.blank, hempty, Bool.false_or]
    rw [hadded w hw, hadded v hv, hends]
    split
    · exact h
    · exact ⟨h.indent, h.level, by rw [h.text, String.append_assoc]⟩

mutual

/-- A fragment behind a settled text is written as it is written alone. -/
theorem put (hbefore : Settled before) : ∀ (f : Fragment) {w v : Writer}, Follows before w v →
    (v.put f).text.toList.head? ≠ some '\n' → Follows before (w.put f) (v.put f)
  | .line s, _, _, h, _ => h.line s
  | .blank, _, v, h, hstart => h.blank hbefore ((continues_blank v).head?_ne hstart)
  | .doc s, _, _, h, _ => h.line (docComment s)
  | .block header body c, _, v, h, hstart => by
    have hinner : ((v.line header).deeper.putAll body).text.toList.head? ≠ some '\n' :=
      (continues_close ((v.line header).deeper.putAll body).shallower c).head?_ne hstart
    exact ((putAll hbefore body (h.line header).deeper hinner).shallower).close c

/-- Fragments behind a settled text are written as they are written alone. -/
theorem putAll (hbefore : Settled before) : ∀ (fs : List Fragment) {w v : Writer},
    Follows before w v → (v.putAll fs).text.toList.head? ≠ some '\n' →
    Follows before (w.putAll fs) (v.putAll fs)
  | [], _, _, h, _ => h
  | f :: fs, _, v, h, hstart =>
    putAll hbefore fs (put hbefore f h ((continues_putAll fs (v.put f)).head?_ne hstart)) hstart

end

end Follows

/-! ### Whole lines -/

/-- A text is empty or ends with the end of a line. -/
def WholeLines (s : String) : Prop := s = "" ∨ ∃ t, s = t ++ "\n"

theorem wholeLines_line (w : Writer) (s : String) : WholeLines (w.line s).text :=
  .inr ⟨w.text ++ (w.indent.levels w.level ++ s), by simp [line, String.append_assoc]⟩

theorem wholeLines_blank {w : Writer} (h : WholeLines w.text) : WholeLines w.blank.text := by
  unfold blank
  split
  · exact h
  · exact .inr ⟨w.text, rfl⟩

theorem wholeLines_close {w : Writer} (h : WholeLines w.text) : ∀ c : Option String,
    WholeLines (w.close c).text
  | none => h
  | some s => wholeLines_line w s

mutual

theorem wholeLines_put : ∀ (f : Fragment) {w : Writer}, WholeLines w.text →
    WholeLines (w.put f).text
  | .line s, w, _ => wholeLines_line w s
  | .blank, _, h => wholeLines_blank h
  | .doc s, w, _ => wholeLines_line w (docComment s)
  | .block header body c, w, _ => by
    have hbody : WholeLines ((w.line header).deeper.putAll body).shallower.text :=
      wholeLines_putAll body (wholeLines_line w header)
    exact wholeLines_close hbody c

theorem wholeLines_putAll : ∀ (fs : List Fragment) {w : Writer}, WholeLines w.text →
    WholeLines (w.putAll fs).text
  | [], _, h => h
  | f :: fs, _, h => wholeLines_putAll fs (wholeLines_put f h)

end

end Writer

/-! ### The ends of a text -/

theorem endsBlank_append_lineFeed (s : String) :
    endsBlank (s ++ "\n") = true ↔ s.toList.getLast? = some '\n' := by
  have hchars : (s ++ "\n").toList = s.toList ++ ['\n'] := String.toList_append ..
  rw [endsBlank, List.isSuffixOf_iff_suffix, hchars, List.getLast?_eq_some_iff]
  constructor
  · rintro ⟨front, hfront⟩
    refine ⟨front, (List.append_left_inj ['\n']).1 ?_⟩
    rw [← hfront, List.append_assoc]
    rfl
  · rintro ⟨front, hfront⟩
    refine ⟨front, ?_⟩
    rw [hfront, List.append_assoc]
    rfl

/-- A text with at least one line that is framed by lines that say something. -/
structure IsSection (s : String) : Prop extends Framed s where
  nonempty : s ≠ ""
  whole : ∃ t, s = t ++ "\n"

/-- A section is cut off behind a character that is not a line feed. -/
theorem IsSection.exists_eq {s : String} (h : IsSection s) :
    ∃ t c, s = t ++ "\n" ∧ t.toList.getLast? = some c ∧ c ≠ '\n' := by
  obtain ⟨t, rfl⟩ := h.whole
  have hends := h.ends
  rw [Bool.eq_false_iff, ne_eq, endsBlank_append_lineFeed] at hends
  cases hlast : t.toList.getLast? with
  | none =>
    refine absurd ?_ h.starts
    rw [String.toList_append, List.getLast?_eq_none_iff.1 hlast]
    rfl
  | some c => exact ⟨t, c, rfl, hlast, fun hc => hends (hc ▸ hlast)⟩

theorem isSection_render {fs : List Fragment} {indent : Indent} (h : Framed (render fs indent))
    (hne : render fs indent ≠ "") : IsSection (render fs indent) := by
  have hwhole := Writer.wholeLines_putAll fs (w := Writer.start indent) (.inl rfl)
  exact { h with nonempty := hne, whole := hwhole.resolve_left hne }

theorem head?_page {ls : List String} (h : ∀ l ∈ ls, l ≠ "" ∧ l.toList.head? ≠ some '\n') :
    (page ls).toList.head? ≠ some '\n' := by
  cases ls with
  | nil => simp [page]
  | cons l ls =>
    obtain ⟨hne, hhead⟩ := h l (List.mem_cons_self ..)
    rw [page_cons, String.append_assoc, String.toList_append,
      List.head?_append_of_ne_nil _ (by simpa using hne)]
    exact hhead

/-- Lines that say something are framed. -/
theorem framed_page {ls : List String} (h : ∀ l ∈ ls, l ≠ "" ∧ l.toList.head? ≠ some '\n' ∧
    l.toList.getLast? ≠ some '\n') : Framed (page ls) where
  starts := head?_page fun l hl => ⟨(h l hl).1, (h l hl).2.1⟩
  ends := by
    rcases List.eq_nil_or_concat' ls with rfl | ⟨front, l, rfl⟩
    · decide
    · obtain ⟨hne, -, hlast⟩ := h l (by simp)
      have hend : (page front ++ l).toList.getLast? = l.toList.getLast? := by
        rw [String.toList_append, List.getLast?_append_of_ne_nil _ (by simpa using hne)]
      rw [Bool.eq_false_iff, ne_eq, page_concat, endsBlank_append_lineFeed, hend]
      exact hlast

end Lexgen.Code
