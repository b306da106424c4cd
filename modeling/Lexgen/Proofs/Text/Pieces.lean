/-
# The pieces of a text

Cutting a text gives pieces of its own characters. A line is what stands in front of the first line
feed, and the other lines are those of the text behind it.

Key definitions: `page`.
Key theorems: `mem_of_mem_splitOnP`, `not_mem_of_mem_lines`, `lines_append`, `lines_page`.
-/
import Lexgen.Text.Blank

namespace Lexgen.Text

/-- A piece has characters of the text, and none that the text was cut at. -/
theorem mem_of_mem_splitOnP {α : Type} {q : α → Bool} {x : α} {piece : List α} :
    ∀ {xs : List α}, piece ∈ xs.splitOnP q → x ∈ piece → x ∈ xs ∧ q x = false
  | [], hpiece, hx => by
    rw [List.splitOnP_nil, List.mem_singleton] at hpiece
    simp [hpiece] at hx
  | y :: ys, hpiece, hx => by
    have ih {piece : List α} (hpiece : piece ∈ ys.splitOnP q) (hx : x ∈ piece) :
        x ∈ y :: ys ∧ q x = false :=
      (mem_of_mem_splitOnP hpiece hx).imp_left (List.mem_cons_of_mem y)
    rw [List.splitOnP_cons_eq_if_modifyHead] at hpiece
    split at hpiece
    · rcases List.mem_cons.1 hpiece with rfl | hpiece
      · simp at hx
      · exact ih hpiece hx
    · next hy =>
      obtain ⟨first, rest, hys⟩ := List.exists_cons_of_ne_nil (List.splitOnP_ne_nil q ys)
      rw [hys, List.modifyHead_cons] at hpiece
      rcases List.mem_cons.1 hpiece with rfl | hpiece
      · rcases List.mem_cons.1 hx with rfl | hx
        · exact ⟨List.mem_cons_self .., by simpa using hy⟩
        · exact ih (hys ▸ List.mem_cons_self ..) hx
      · exact ih (hys ▸ List.mem_cons_of_mem _ hpiece) hx

/-- What follows the last separator goes to the last piece. -/
theorem exists_splitOnP_append {α : Type} {q : α → Bool} {ending : List α}
    (h : ∀ x ∈ ending, q x = false) : ∀ xs : List α, ∃ front last,
      xs.splitOnP q = front ++ [last] ∧ (xs ++ ending).splitOnP q = front ++ [last ++ ending]
  | [] => by
    refine ⟨[], [], by simp, ?_⟩
    rw [List.nil_append, List.nil_append, List.splitOnP_eq_singleton]
    exact fun x hx => by simp [h x hx]
  | x :: xs => by
    obtain ⟨front, last, hbare, hended⟩ := exists_splitOnP_append h xs
    rw [List.cons_append, List.splitOnP_cons_eq_if_modifyHead,
      List.splitOnP_cons_eq_if_modifyHead, hbare, hended]
    split
    · exact ⟨[] :: front, last, rfl, rfl⟩
    · cases front with
      | nil => exact ⟨[], x :: last, rfl, rfl⟩
      | cons first front => exact ⟨(x :: first) :: front, last, rfl, rfl⟩

/-- A word has characters of the text that are not blank. -/
theorem mem_of_mem_words {s w : String} (hw : w ∈ words s) {c : Char} (hc : c ∈ w.toList) :
    c ∈ s.toList ∧ isBlank c = false := by
  obtain ⟨piece, hpiece, rfl⟩ := List.mem_map.1 hw
  rw [String.toList_ofList] at hc
  exact mem_of_mem_splitOnP (List.mem_filter.1 hpiece).1 hc

theorem mem_of_mem_intercalate {s : String} {c : Char} : ∀ {ws : List String},
    c ∈ (s.intercalate ws).toList → c ∈ s.toList ∨ ∃ w ∈ ws, c ∈ w.toList
  | [], h => by simp at h
  | [w], h => .inr ⟨w, List.mem_cons_self .., by simpa using h⟩
  | w :: v :: ws, h => by
    rw [String.intercalate_cons_cons, String.toList_append, String.toList_append,
      List.mem_append, List.mem_append] at h
    rcases h with (h | h) | h
    · exact .inr ⟨w, List.mem_cons_self .., h⟩
    · exact .inl h
    · refine (mem_of_mem_intercalate h).imp_right ?_
      rintro ⟨u, hu, hc⟩
      exact ⟨u, List.mem_cons_of_mem w hu, hc⟩

theorem linesOfPieces_cons {piece : List Char} {rest : List (List Char)} (h : rest ≠ []) :
    linesOfPieces (piece :: rest) = dropReturn piece :: linesOfPieces rest := by
  cases rest with
  | nil => exact absurd rfl h
  | cons _ _ => rfl

theorem subset_dropReturn (piece : List Char) : dropReturn piece ⊆ piece := by
  unfold dropReturn
  split
  · exact (List.dropLast_prefix piece).subset
  · exact List.Subset.refl _

theorem exists_piece_of_mem_linesOfPieces {line : List Char} : ∀ {pieces : List (List Char)},
    line ∈ linesOfPieces pieces → ∃ piece ∈ pieces, line ⊆ piece
  | [last], h => by
    unfold linesOfPieces at h
    split at h
    · cases h
    · exact ⟨last, List.mem_cons_self .., by rw [List.mem_singleton.1 h]; exact List.Subset.refl _⟩
  | piece :: next :: rest, h => by
    rw [linesOfPieces_cons (List.cons_ne_nil _ _)] at h
    rcases List.mem_cons.1 h with rfl | h
    · exact ⟨piece, List.mem_cons_self .., subset_dropReturn piece⟩
    · obtain ⟨other, hother, hsubset⟩ := exists_piece_of_mem_linesOfPieces h
      exact ⟨other, List.mem_cons_of_mem _ hother, hsubset⟩

/-- No line has a line feed. -/
theorem not_mem_of_mem_lines {s line : String} (h : line ∈ lines s) : '\n' ∉ line.toList := by
  obtain ⟨cs, hcs, rfl⟩ := List.mem_map.1 h
  obtain ⟨piece, hpiece, hsubset⟩ := exists_piece_of_mem_linesOfPieces hcs
  rw [String.toList_ofList]
  intro hmem
  rw [List.splitOn_eq_splitOnP] at hpiece
  have hself := (mem_of_mem_splitOnP hpiece (hsubset hmem)).2
  simp at hself

/-- The line in front of a line feed, and the lines behind it. -/
theorem lines_append {line : String} (h : '\n' ∉ line.toList) (rest : String) :
    lines (line ++ "\n" ++ rest) = String.ofList (dropReturn line.toList) :: lines rest := by
  have hchars : (line ++ "\n" ++ rest).toList = line.toList ++ '\n' :: rest.toList := by simp
  rw [lines, hchars, List.splitOn_append_cons_self_of_not_mem h,
    linesOfPieces_cons (List.splitOn_ne_nil _ _)]
  rfl

/-- A line in front of a line feed stays whole if it does not end with a carriage return. -/
theorem dropReturn_of_getLast? {line : List Char} (h : line.getLast? ≠ some '\r') :
    dropReturn line = line := if_neg h

/-- Lines one below the other, each with a line feed behind it. -/
def page (ls : List String) : String := String.join (ls.map (· ++ "\n"))

@[simp] theorem page_cons (l : String) (ls : List String) : page (l :: ls) = l ++ "\n" ++ page ls :=
  String.join_cons

@[simp] theorem page_append : ∀ ls ms : List String, page (ls ++ ms) = page ls ++ page ms
  | [], ms => by simp [page]
  | l :: ls, ms => by
    simp [page_append ls ms, String.append_assoc]

/-- The lines of a page, and those of the text behind it. -/
theorem lines_page (s : String) : ∀ {ls : List String}, (∀ l ∈ ls, '\n' ∉ l.toList) →
    lines (page ls ++ s) = ls.map (fun l => String.ofList (dropReturn l.toList)) ++ lines s
  | [], _ => congrArg lines String.empty_append
  | l :: ls, h => by
    have hrest := lines_page s fun m hm => h m (List.mem_cons_of_mem l hm)
    rw [page_cons, String.append_assoc, lines_append (h l (List.mem_cons_self ..)), hrest]
    rfl

end Lexgen.Text
