/-
# Writing only appends

Whatever is written, the writer keeps its indentation and comes back to its level, and the text
before stays (`Continues`). A fragment without blank lines adds the lines of its outline, each
indented by its depth (`text_put`).

Key definitions: `Indent.at`, `Writer.Continues`.
Key theorems: `Writer.continues_put`, `Writer.text_put`.
-/
import Lexgen.Code.Writer
import Lexgen.Proofs.Text.Pieces

namespace Lexgen.Code

open Lexgen.Text

/-- A line at a depth. -/
def Indent.at (i : Indent) (e : Nat × String) : String := i.levels e.1 ++ e.2

@[simp] theorem Indent.at_zero (i : Indent) (s : String) : i.at (0, s) = s := String.empty_append

namespace Writer

/-- A writer after more was written: everything before is still there. -/
structure Continues (w w' : Writer) : Prop where
  indent : w'.indent = w.indent
  level : w'.level = w.level
  text : ∃ more, w'.text = w.text ++ more

namespace Continues

theorem refl (w : Writer) : Continues w w := ⟨rfl, rfl, "", String.append_empty.symm⟩

theorem trans {w w' w'' : Writer} (h : Continues w w') (h' : Continues w' w'') :
    Continues w w'' := by
  obtain ⟨more, hmore⟩ := h.text
  obtain ⟨more', hmore'⟩ := h'.text
  exact ⟨h'.indent.trans h.indent, h'.level.trans h.level, more ++ more', by
    rw [hmore', hmore, String.append_assoc]⟩

end Continues

theorem continues_line (w : Writer) (s : String) : Continues w (w.line s) := ⟨rfl, rfl, _, rfl⟩

theorem continues_blank (w : Writer) : Continues w w.blank := by
  unfold blank
  split
  · exact Continues.refl w
  · exact ⟨rfl, rfl, _, rfl⟩

theorem continues_close (w : Writer) : ∀ c : Option String, Continues w (w.close c)
  | none => Continues.refl w
  | some s => continues_line w s

mutual

/-- Writing a fragment only appends. -/
theorem continues_put : ∀ (f : Fragment) (w : Writer), Continues w (w.put f)
  | .line s, w => continues_line w s
  | .blank, w => continues_blank w
  | .doc s, w => continues_line w _
  | .block header body c, w => by
    have hheader := continues_line w header
    have hbody := continues_putAll body (w.line header).deeper
    have hback : Continues w ((w.line header).deeper.putAll body).shallower := by
      obtain ⟨more, hmore⟩ := hheader.text
      obtain ⟨inner, hinner⟩ := hbody.text
      refine ⟨hbody.indent, ?_, more ++ inner, ?_⟩
      · simp [hbody.level]
      · rw [text_shallower, hinner, text_deeper, hmore, String.append_assoc]
    exact hback.trans (continues_close _ c)

theorem continues_putAll : ∀ (fs : List Fragment) (w : Writer), Continues w (w.putAll fs)
  | [], w => Continues.refl w
  | f :: fs, w => (continues_put f w).trans (continues_putAll fs (w.put f))

end

@[simp] theorem indent_blank (w : Writer) : w.blank.indent = w.indent := (continues_blank w).indent

@[simp] theorem level_blank (w : Writer) : w.blank.level = w.level := (continues_blank w).level

@[simp] theorem indent_put (f : Fragment) (w : Writer) : (w.put f).indent = w.indent :=
  (continues_put f w).indent

@[simp] theorem level_put (f : Fragment) (w : Writer) : (w.put f).level = w.level :=
  (continues_put f w).level

@[simp] theorem indent_putAll (fs : List Fragment) (w : Writer) :
    (w.putAll fs).indent = w.indent :=
  (continues_putAll fs w).indent

@[simp] theorem level_putAll (fs : List Fragment) (w : Writer) : (w.putAll fs).level = w.level :=
  (continues_putAll fs w).level

/-- Behind the body of a block a writer stands at the level of the header again. -/
theorem level_body (w : Writer) (header : String) (body : List Fragment) :
    ((w.line header).deeper.putAll body).shallower.level = w.level := by simp

theorem indent_body (w : Writer) (header : String) (body : List Fragment) :
    ((w.line header).deeper.putAll body).shallower.indent = w.indent := by simp

theorem continues_foldl {α : Type} {f : Writer → α → Writer} (h : ∀ w a, Continues w (f w a)) :
    ∀ (as : List α) (w : Writer), Continues w (as.foldl f w)
  | [], w => Continues.refl w
  | a :: as, w => (h w a).trans (continues_foldl h as (f w a))

/-! ### What is appended -/

theorem text_line (w : Writer) (s : String) :
    (w.line s).text = w.text ++ page [w.indent.at (w.level, s)] := by
  simp [line, page, Indent.at, String.join]

theorem text_close (w : Writer) : ∀ c : Option String,
    (w.close c).text = w.text ++ page ((c.toList.map fun c => (w.level, c)).map w.indent.at)
  | none => String.append_empty.symm
  | some s => text_line w s

mutual

/-- A fragment without blank lines is written as the lines of its outline. -/
theorem text_put : ∀ (f : Fragment) (w : Writer), f.hasBlank = false →
    (w.put f).text = w.text ++ page ((f.outline w.level).map w.indent.at)
  | .line s, w, _ => text_line w s
  | .doc s, w, _ => text_line w _
  | .block header body c, w, h => by
    have hbody := text_putAll body (w.line header).deeper h
    have hclose := text_close ((w.line header).deeper.putAll body).shallower c
    rw [level_body, indent_body] at hclose
    rw [put, hclose, Fragment.outline, List.cons_append, List.map_cons, List.map_append,
      ← List.singleton_append, page_append, page_append, ← String.append_assoc,
      ← String.append_assoc, ← text_line]
    exact congrArg (· ++ _) hbody

theorem text_putAll : ∀ (fs : List Fragment) (w : Writer), Fragment.anyBlank fs = false →
    (w.putAll fs).text = w.text ++ page ((Fragment.outlineAll w.level fs).map w.indent.at)
  | [], w, _ => String.append_empty.symm
  | f :: fs, w, h => by
    rw [Fragment.anyBlank, Bool.or_eq_false_iff] at h
    have hfirst := text_put f w h.1
    have hrest := text_putAll fs (w.put f) h.2
    rw [level_put, indent_put, hfirst] at hrest
    rw [putAll, hrest, Fragment.outlineAll, List.map_append, page_append, String.append_assoc]

end

end Writer

end Lexgen.Code
