/-
# Lists without later duplicates

One more element at the end of a list is kept if it is new (`eraseDups_concat`), so collecting
elements one after the other, each unless it is there, gives `List.eraseDups`. It has every element
once, and a function that tells all elements apart leaves out the same ones of its values.

Key theorems: `eraseDups_concat`, `nodup_eraseDups`, `eraseDups_map`.
-/
import Mathlib.Data.List.Induction
import Mathlib.Data.List.Nodup

namespace Lexgen.Data

variable {α β : Type} [DecidableEq α] [DecidableEq β]

/-- One more element is kept if it is new. -/
theorem eraseDups_concat (xs : List α) (x : α) :
    (xs ++ [x]).eraseDups = if x ∈ xs then xs.eraseDups else xs.eraseDups ++ [x] := by
  rw [List.eraseDups_append]
  split
  · next h =>
    have hgone : [x].removeAll xs = [] := by simpa [List.removeAll] using h
    rw [hgone, List.eraseDups_nil, List.append_nil]
  · next h =>
    have hkept : [x].removeAll xs = [x] := by simpa [List.removeAll] using h
    rw [hkept]
    rfl

theorem nodup_eraseDups (xs : List α) : xs.eraseDups.Nodup := by
  induction xs using List.reverseRecOn with
  | nil => exact List.nodup_nil
  | append_singleton xs x ih =>
    rw [eraseDups_concat]
    split
    · exact ih
    · next h => simpa using ih.concat (mt List.mem_eraseDups.1 h)

theorem eraseDups_ne_nil {xs : List α} (h : xs ≠ []) : xs.eraseDups ≠ [] := by
  obtain ⟨x, hx⟩ := List.exists_mem_of_ne_nil xs h
  exact List.ne_nil_of_mem (List.mem_eraseDups.2 hx)

/-- An injective function leaves out the same elements. -/
theorem eraseDups_map {f : α → β} (hf : Function.Injective f) (xs : List α) :
    (xs.map f).eraseDups = xs.eraseDups.map f := by
  induction xs using List.reverseRecOn with
  | nil => rfl
  | append_singleton xs x ih =>
    rw [List.map_append, List.map_singleton, eraseDups_concat, eraseDups_concat, ih]
    simp only [List.mem_map_of_injective hf]
    split
    · rfl
    · rw [List.map_append, List.map_singleton]

end Lexgen.Data
