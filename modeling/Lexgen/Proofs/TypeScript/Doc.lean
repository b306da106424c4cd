/-
# The characters of a doc comment

Bringing a description on one line takes its words, puts spaces between them and perhaps a
backslash into them, and nothing else.

Key theorems: `mem_of_mem_docLine`, `forall_mem_docLine`.
-/
import Lexgen.Proofs.Text.Pieces
import Lexgen.TypeScript.Doc

namespace Lexgen.TypeScript

open Lexgen.Text

theorem mem_of_mem_guardClose {cs : List Char} {c : Char} (h : c ∈ guardClose cs) :
    c ∈ cs ∨ c = '\\' := by
  fun_induction guardClose cs with
  | case1 rest ih =>
    simp only [List.mem_cons] at h ⊢
    rcases h with h | h | h | h
    · exact .inl (.inl h)
    · exact .inr h
    · exact .inl (.inr (.inl h))
    · exact (ih h).imp_left fun hmem => .inr (.inr hmem)
  | case2 d rest hclose ih =>
    rcases List.mem_cons.1 h with rfl | h
    · exact .inl (List.mem_cons_self ..)
    · exact (ih h).imp_left (List.mem_cons_of_mem d)
  | case3 => exact .inl h

/-- A line has spaces, backslashes and those characters of the text that are not blank. -/
theorem mem_of_mem_docLine {text : String} {c : Char} (h : c ∈ (docLine text).toList) :
    c = ' ' ∨ c = '\\' ∨ (c ∈ text.toList ∧ isBlank c = false) := by
  rw [docLine, String.toList_ofList] at h
  rcases mem_of_mem_guardClose h with h | h
  · rcases mem_of_mem_intercalate h with h | ⟨w, hw, h⟩
    · exact .inl (List.mem_singleton.1 h)
    · exact .inr (.inr (mem_of_mem_words hw h))
  · exact .inr (.inl h)

/-- A property of the characters of a text, of spaces and of backslashes is one of its line. -/
theorem forall_mem_docLine {p : Char → Prop} (hspace : p ' ') (hback : p '\\') {text : String}
    (h : ∀ c ∈ text.toList, p c) : ∀ c ∈ (docLine text).toList, p c := by
  intro c hc
  rcases mem_of_mem_docLine hc with rfl | rfl | ⟨hc, -⟩
  · exact hspace
  · exact hback
  · exact h c hc

end Lexgen.TypeScript
