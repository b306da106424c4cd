/-
# How a text grows by a fragment

A fragment is written as its pieces from top to bottom: the header of a block, its body one level
deeper, its closing line. Each line is added with the indentation of its depth, counted from the
level of the writer; a blank line adds a line feed or nothing, and is never the reason why a text
starts with an empty line or has two of them at its end (`grows_put`). The level is the same
afterwards, and without blank lines what is added is known from the fragment alone (`applied_put`).

Key definitions: `Piece`, `Fragment.pieces`, `BlankAdds`, `Grows`, `Applied`.
Key theorems: `Writer.blankAdds_blank`, `Writer.grows_put`, `Writer.applied_put`.
-/
import Mathlib.Data.List.Basic
import Lexgen.Proofs.Code.Writer

namespace Lexgen.Code

open Lexgen.Text

/-! ### Pieces -/

/-- One thing that is written: a line at a depth, counted from the fragment, or a blank line. -/
inductive Piece where
  | line (depth : Nat) (text : String)
  | blank
deriving DecidableEq, Repr

/-- A piece of the body of a block. -/
def Piece.deeper : Piece → Piece
  | .line depth text => .line (depth + 1) text
  | .blank => .blank

namespace Fragment

mutual

/-- What is written for a fragment, top to bottom. -/
def pieces : Fragment → List Piece
  | .line text => [.line 0 text]
  | .blank => [.blank]
  | .doc text => [.line 0 (docComment text)]
  | .block header body close =>
    .line 0 header :: (piecesAll body).map Piece.deeper ++ close.toList.map (.line 0)

/-- What is written for fragments one after the other. -/
def piecesAll : List Fragment → List Piece
  | [] => []
  | f :: fs => pieces f ++ piecesAll fs

end

theorem mem_piecesAll {p : Piece} : ∀ {fs : List Fragment},
    p ∈ piecesAll fs ↔ ∃ f ∈ fs, p ∈ f.pieces
  | [] => by simp [piecesAll]
  | f :: fs => by
    rw [piecesAll, List.mem_append, mem_piecesAll, List.exists_mem_cons_iff]

end Fragment

/-! ### Growing texts -/

/-- What a blank line may do to the end of a text. -/
structure BlankAdds (s t : String) : Prop where
  /-- It adds one line feed or nothing. -/
  added : t = s ∨ t = s ++ "\n"
  /-- It adds nothing exactly if the text is empty or ends with an empty line. -/
  kept_iff : t = s ↔ s = "" ∨ ['\n', '\n'] <:+ s.toList
  /-- It does not make the text start with a line feed. -/
  starts : t.toList.head? = some '\n' → s.toList.head? = some '\n'
  /-- It does not make the text end with three line feeds. -/
  ends : ['\n', '\n', '\n'] <:+ t.toList → ['\n', '\n', '\n'] <:+ s.toList

/-- A text grows by pieces that are written at a level, one after the other. -/
inductive Grows (indent : Indent) (level : Nat) : String → List Piece → String → Prop where
  | nil {s : String} : Grows indent level s [] s
  | line {s t text : String} {depth : Nat} {rest : List Piece} :
    Grows indent level
      (s ++ (String.join (List.replicate (level + depth) indent.unit) ++ text ++ "\n")) rest t →
    Grows indent level s (.line depth text :: rest) t
  | blank {s s' t : String} {rest : List Piece} : BlankAdds s s' →
    Grows indent level s' rest t → Grows indent level s (.blank :: rest) t

namespace Grows

variable {indent : Indent} {level : Nat} {s t u : String} {ps qs : List Piece}

theorem append (h : Grows indent level s ps t) (h' : Grows indent level t qs u) :
    Grows indent level s (ps ++ qs) u := by
  induction h with
  | nil => exact h'
  | line _ ih => exact .line (ih h')
  | blank hadds _ ih => exact .blank hadds (ih h')

/-- A text grows by a body one level deeper as it does by pieces that are deeper by one. -/
theorem deeper (h : Grows indent (level + 1) s ps t) :
    Grows indent level s (ps.map Piece.deeper) t := by
  induction h with
  | nil => exact .nil
  | line _ ih =>
    refine .line ?_
    rw [← Nat.add_assoc, Nat.add_right_comm]
    exact ih
  | blank hadds _ ih => exact .blank hadds ih

theorem exists_append (h : Grows indent level s ps t) : ∃ more, t = s ++ more := by
  induction h with
  | nil => exact ⟨"", String.append_empty.symm⟩
  | line _ ih =>
    obtain ⟨more, rfl⟩ := ih
    exact ⟨_, String.append_assoc ..⟩
  | blank hadds _ ih =>
    obtain ⟨more, rfl⟩ := ih
    rcases hadds.added with rfl | rfl
    · exact ⟨more, rfl⟩
    · exact ⟨_, String.append_assoc ..⟩

/-- What stands on a line that is written comes into the text. -/
theorem exists_append_of_mem {depth : Nat} {text : String} {c : Char}
    (h : Grows indent level s ps t) (hline : .line depth text ∈ ps) (hc : c ∈ text.toList) :
    ∃ more, t = s ++ more ∧ c ∈ more.toList := by
  induction h with
  | nil => cases hline
  | line hrest ih =>
    rcases List.mem_cons.1 hline with heq | hline
    · obtain ⟨more, rfl⟩ := hrest.exists_append
      obtain ⟨rfl, rfl⟩ := Piece.line.inj heq
      exact ⟨_, String.append_assoc .., by simp [hc]⟩
    · obtain ⟨more, rfl, hmem⟩ := ih hline
      exact ⟨_, String.append_assoc .., by simp [hmem]⟩
  | blank hadds _ ih =>
    obtain ⟨more, rfl, hmem⟩ := ih ((List.mem_cons.1 hline).resolve_left nofun)
    rcases hadds.added with rfl | rfl
    · exact ⟨more, rfl, hmem⟩
    · exact ⟨_, String.append_assoc .., by simp [hmem]⟩

end Grows

namespace Writer

/-- **A blank line** adds a line feed or nothing, and neither an empty line at the start nor a
second one at the end. -/
theorem blankAdds_blank (w : Writer) : BlankAdds w.text w.blank.text := by
  by_cases hkept : (w.text.isEmpty || endsBlank w.text) = true
  · have hsettled : w.text = "" ∨ ['\n', '\n'] <:+ w.text.toList := by
      rw [Bool.or_eq_true, String.isEmpty_iff] at hkept
      exact hkept.imp_right List.isSuffixOf_iff_suffix.1
    rw [blank, if_pos hkept]
    exact ⟨.inl rfl, iff_of_true rfl hsettled, id, id⟩
  · obtain ⟨hempty, hends⟩ : w.text.isEmpty = false ∧ endsBlank w.text = false := by
      simpa using hkept
    have htext : w.blank.text = w.text ++ "\n" := by rw [blank, if_neg hkept]
    have hchars : w.blank.text.toList = w.text.toList ++ ['\n'] := by
      rw [htext, String.toList_append]
      rfl
    refine ⟨.inr htext, iff_of_false ?_ ?_, fun hstart => ?_, fun hthree => ?_⟩
    · intro hsame
      have hlength := congrArg List.length (hsame ▸ hchars)
      simp at hlength
    · rintro (hnil | htwo)
      · simp [hnil] at hempty
      · exact absurd (List.isSuffixOf_iff_suffix.2 htwo) (by rw [← endsBlank, hends]; decide)
    · have hne : w.text.toList ≠ [] := fun hnil => by
        rw [String.toList_eq_nil_iff.1 hnil] at hempty
        cases hempty
      rwa [hchars, List.head?_append_of_ne_nil _ hne] at hstart
    · -- Three line feeds at the end would have two of them in the text before.
      obtain ⟨front, hfront⟩ := hthree
      have htwo : front ++ ['\n', '\n'] = w.text.toList := by
        refine (List.append_left_inj ['\n']).1 ?_
        rw [← hchars, ← hfront, List.append_assoc]
        rfl
      have hblank : endsBlank w.text = true := List.isSuffixOf_iff_suffix.2 ⟨front, htwo⟩
      rw [hblank] at hends
      cases hends

theorem grows_line (w : Writer) (s : String) :
    Grows w.indent w.level w.text [.line 0 s] (w.line s).text := .line .nil

theorem grows_close (w : Writer) : ∀ c : Option String,
    Grows w.indent w.level w.text (c.toList.map (.line 0)) (w.close c).text
  | none => .nil
  | some s => grows_line w s

mutual

/-- **A text grows by the pieces of a fragment.** -/
theorem grows_put : ∀ (f : Fragment) (w : Writer),
    Grows w.indent w.level w.text f.pieces (w.put f).text
  | .line s, w => grows_line w s
  | .blank, w => .blank (blankAdds_blank w) .nil
  | .doc s, w => grows_line w (docComment s)
  | .block header body c, w => by
    have hbody := grows_putAll body (w.line header).deeper
    have hclose := grows_close ((w.line header).deeper.putAll body).shallower c
    rw [level_body, indent_body] at hclose
    exact (grows_line w header).append (hbody.deeper.append hclose)

theorem grows_putAll : ∀ (fs : List Fragment) (w : Writer),
    Grows w.indent w.level w.text (Fragment.piecesAll fs) (w.putAll fs).text
  | [], _ => .nil
  | f :: fs, w => by
    have hrest := grows_putAll fs (w.put f)
    rw [level_put, indent_put] at hrest
    exact (grows_put f w).append hrest

end

end Writer

/-! ### Without blank lines -/

namespace Fragment

mutual

/-- Depths are counted from where the fragment stands. -/
theorem outline_add (level depth : Nat) : ∀ f : Fragment,
    f.outline (level + depth) = (f.outline depth).map fun e => (level + e.1, e.2)
  | .line _ => rfl
  | .blank => rfl
  | .doc _ => rfl
  | .block header body c => by
    rw [outline, outline, Nat.add_assoc, outlineAll_add level (depth + 1) body]
    cases c with
    | none => simp
    | some s => simp

theorem outlineAll_add (level depth : Nat) : ∀ fs : List Fragment,
    outlineAll (level + depth) fs = (outlineAll depth fs).map fun e => (level + e.1, e.2)
  | [] => rfl
  | f :: fs => by
    rw [outlineAll, outlineAll, outline_add level depth f, outlineAll_add level depth fs,
      List.map_append]

end

end Fragment

/-- A writer before and after a fragment was written. -/
structure Applied (w : Writer) (f : Fragment) (w' : Writer) : Prop extends
    Writer.Continues w w' where
  /-- The text grows by the pieces of the fragment. -/
  grows : Grows w.indent w.level w.text f.pieces w'.text
  /-- Without blank lines, the lines of the outline are added, each behind as many units of the
  indentation as the level and its depth in the fragment make together. -/
  plain : f.hasBlank = false → w'.text = w.text ++
    page ((f.outline 0).map fun e =>
      String.join (List.replicate (w.level + e.1) w.indent.unit) ++ e.2)

/-- **What writing a fragment does.** Whatever stands in the writer, its indentation and its level
stay, the text before stays, and what is added is made of the pieces of the fragment. -/
theorem Writer.applied_put (w : Writer) (f : Fragment) : Applied w f (w.put f) where
  toContinues := continues_put f w
  grows := grows_put f w
  plain := by
    intro hplain
    have hlines := f.outline_add w.level 0
    rw [Nat.add_zero] at hlines
    rw [text_put f w hplain, hlines, List.map_map]
    rfl

/-- A block in a block, which stands beside a line. -/
def nestedBlock : Fragment :=
  .block "class A" [.line "a", .block "get b" [.line "c"] (some "end b")] (some "end A")

/-- One level deep in a text, with tabs. -/
def tabbedWriter : Writer := ⟨.tab, 1, "module M\n"⟩

theorem applied_nestedBlock :
    Applied tabbedWriter nestedBlock (tabbedWriter.put nestedBlock) ∧
      (tabbedWriter.put nestedBlock).text =
        "module M\n\tclass A\n\t\ta\n\t\tget b\n\t\t\tc\n\t\tend b\n\tend A\n" :=
  ⟨tabbedWriter.applied_put nestedBlock, by decide⟩

example : (Fragment.block "a" [.blank, .block "b" [.line "c"] none] (some "d")).pieces =
    [.line 0 "a", .blank, .line 1 "b", .line 2 "c", .line 0 "d"] := by decide

end Lexgen.Code
