/-
# Scanning for a collection

The word in front of a collection ends with a colon, and only blanks may stand between the colon
and the quote that opens. So a line in which no quote follows a colon has no collection
(`collectionIn?_eq_none`), whatever else it says. What is found is not empty and has no quotes and
no line feeds (`of_collectionOf?`).

Key definitions: `quoteAfterColon`.
Key theorems: `collectionIn?_eq_none`, `collectionIn?_property`, `of_collectionOf?`.
-/
import Lexgen.Proofs.Text.Pieces
import Lexgen.Routes.Collection

namespace Lexgen.Routes

open Lexgen.Text

/-! ### Lines without a collection -/

/-- Whether some quote follows a colon, blanks not counting; `armed` says whether a colon was the
last character before that was not blank. -/
def quoteAfterColon : Bool → List Char → Bool
  | _, [] => false
  | armed, c :: cs =>
    if isQuote c then armed || quoteAfterColon false cs
    else if isBlank c then quoteAfterColon armed cs
    else quoteAfterColon (c == ':') cs

/-- After characters that are no quotes, all that counts is whether the last was a colon. -/
theorem exists_quoteAfterColon_append : ∀ {cs : List Char} (_ : ∀ c ∈ cs, isQuote c = false)
    (armed : Bool), ∃ armed', ∀ rest, quoteAfterColon armed (cs ++ rest) =
      quoteAfterColon armed' rest
  | [], _, armed => ⟨armed, fun _ => rfl⟩
  | c :: cs, h, armed => by
    have ih := exists_quoteAfterColon_append fun d hd => h d (List.mem_cons_of_mem _ hd)
    obtain ⟨armed', happend⟩ := ih (if isBlank c then armed else c == ':')
    refine ⟨armed', fun rest => ?_⟩
    rw [List.cons_append, quoteAfterColon, h c (List.mem_cons_self ..), if_neg Bool.false_ne_true,
      ← happend rest]
    split <;> rfl

theorem quoteAfterColon_of_forall {cs : List Char} (h : ∀ c ∈ cs, isQuote c = false)
    (armed : Bool) : quoteAfterColon armed cs = false := by
  obtain ⟨armed', happend⟩ := exists_quoteAfterColon_append h armed
  have hnil := happend []
  rwa [List.append_nil] at hnil

theorem quoteAfterColon_append_cons {cs : List Char} (h : ∀ c ∈ cs, isQuote c = false) {c : Char}
    (hquote : isQuote c = false) (hblank : isBlank c = false) (armed : Bool) (rest : List Char) :
    quoteAfterColon armed (cs ++ c :: rest) = quoteAfterColon (c == ':') rest := by
  obtain ⟨armed', happend⟩ := exists_quoteAfterColon_append h armed
  rw [happend, quoteAfterColon, hquote, hblank]
  rfl

theorem quoteAfterColon_true_of_false : ∀ {cs : List Char},
    quoteAfterColon false cs = true → quoteAfterColon true cs = true
  | c :: cs, h => by
    unfold quoteAfterColon at h ⊢
    split at h
    · next hquote => rw [if_pos hquote]; rfl
    · next hquote =>
      rw [if_neg hquote]
      split at h
      · next hblank => rw [if_pos hblank]; exact quoteAfterColon_true_of_false h
      · next hblank => rw [if_neg hblank]; exact h

theorem quoteAfterColon_of_false {cs : List Char} (h : quoteAfterColon false cs = true) :
    ∀ armed, quoteAfterColon armed cs = true
  | false => h
  | true => quoteAfterColon_true_of_false h

theorem quoteAfterColon_of_cons {c : Char} {cs : List Char} (h : quoteAfterColon false cs = true)
    (armed : Bool) : quoteAfterColon armed (c :: cs) = true := by
  have hany := quoteAfterColon_of_false h
  unfold quoteAfterColon
  split
  · rw [h, Bool.or_true]
  · split
    · exact hany armed
    · exact hany _

/-- A colon, blanks and a quote. -/
theorem quoteAfterColon_of_dropBlank : ∀ {cs : List Char} {c : Char} {rest : List Char},
    dropBlank cs = c :: rest → isQuote c = true → quoteAfterColon true cs = true
  | d :: ds, c, rest, h, hquote => by
    rw [dropBlank, List.dropWhile_cons] at h
    unfold quoteAfterColon
    split at h
    · next hblank =>
      split
      · rfl
      · exact quoteAfterColon_of_dropBlank h hquote
    · rw [List.cons.inj h |>.1, if_pos hquote]
      rfl

theorem quoteAfterColon_of_collectionHere? {cs id : List Char} (h : collectionHere? cs = some id)
    (armed : Bool) : quoteAfterColon armed cs = true := by
  unfold collectionHere? at h
  split at h
  · next hword =>
    obtain ⟨rest, rfl⟩ := List.isPrefixOf_iff_prefix.1 hword
    rw [List.drop_left] at h
    have hrest : quoteAfterColon true rest = true := by
      unfold quotedHere? at h
      split at h
      · cases h
      · next c more hmore =>
        by_cases hquote : isQuote c = true
        · exact quoteAfterColon_of_dropBlank hmore hquote
        · simp [hquote] at h
    have hsplit : collectionWord ++ rest = "collection".toList ++ ':' :: rest := by
      rw [show collectionWord = "collection".toList ++ [':'] by decide, List.append_assoc]
      rfl
    have hunquoted : ∀ c ∈ "collection".toList, isQuote c = false := by
      have hany : "collection".toList.any isQuote = false := by decide
      exact fun c hc => Bool.eq_false_iff.2 (List.any_eq_false.1 hany c hc)
    rw [hsplit, quoteAfterColon_append_cons hunquoted (by decide) (by decide)]
    exact hrest
  · cases h

/-- Where there is a collection, there is a quote behind a colon. -/
theorem quoteAfterColon_of_collectionIn? : ∀ {cs id : List Char}, collectionIn? cs = some id →
    ∀ armed, quoteAfterColon armed cs = true
  | c :: cs, id, h, armed => by
    rw [collectionIn?] at h
    cases hhere : collectionHere? (c :: cs) with
    | some here => exact quoteAfterColon_of_collectionHere? hhere armed
    | none =>
      rw [hhere] at h
      exact quoteAfterColon_of_cons (quoteAfterColon_of_collectionIn? h false) armed

/-- **A line in which no quote follows a colon** has no collection. -/
theorem collectionIn?_eq_none {cs : List Char} (h : quoteAfterColon false cs = false) :
    collectionIn? cs = none := by
  cases hfound : collectionIn? cs with
  | none => rfl
  | some id =>
    rw [quoteAfterColon_of_collectionIn? hfound] at h
    exact absurd h.symm Bool.false_ne_true

theorem quoteAfterColon_of_append : ∀ {cs ds : List Char} {armed : Bool},
    quoteAfterColon armed (cs ++ ds) = false → quoteAfterColon armed cs = false
  | [], _, _, _ => rfl
  | c :: cs, ds, armed, h => by
    rw [List.cons_append] at h
    unfold quoteAfterColon at h ⊢
    split at h
    · next hquote =>
      rw [Bool.or_eq_false_iff] at h
      rw [if_pos hquote, h.1, quoteAfterColon_of_append h.2]
      rfl
    · next hquote =>
      rw [if_neg hquote]
      split at h
      · next hblank => rw [if_pos hblank]; exact quoteAfterColon_of_append h
      · next hblank => rw [if_neg hblank]; exact quoteAfterColon_of_append h

theorem quoteAfterColon_dropReturn {line : List Char} {armed : Bool}
    (h : quoteAfterColon armed line = false) : quoteAfterColon armed (dropReturn line) = false := by
  unfold dropReturn
  split
  · obtain ⟨rest, hrest⟩ := List.dropLast_prefix line
    exact quoteAfterColon_of_append (hrest ▸ h)
  · exact h

/-! ### What is found -/

theorem of_quotedHere? {cs id : List Char} (h : quotedHere? cs = some id) :
    id ≠ [] ∧ ∀ c ∈ id, c ∈ cs ∧ isQuote c = false := by
  cases cs with
  | nil => cases h
  | cons c rest =>
    simp only [quotedHere?, Bool.and_eq_true, Bool.not_eq_true', Option.ite_none_right_eq_some,
      Option.some.injEq, List.isEmpty_eq_false_iff] at h
    obtain ⟨⟨⟨-, hne⟩, -⟩, rfl⟩ := h
    refine ⟨hne, fun d hd => ?_⟩
    have hplain := List.all_eq_true.1 List.all_takeWhile d hd
    exact ⟨List.mem_cons_of_mem _ ((List.takeWhile_prefix _).subset hd), by simpa using hplain⟩

theorem of_collectionHere? {cs id : List Char} (h : collectionHere? cs = some id) :
    id ≠ [] ∧ ∀ c ∈ id, c ∈ cs ∧ isQuote c = false := by
  unfold collectionHere? at h
  split at h
  · obtain ⟨hne, hmem⟩ := of_quotedHere? h
    refine ⟨hne, fun c hc => (hmem c hc).imp_left fun hin => ?_⟩
    exact List.mem_of_mem_drop ((List.dropWhile_suffix _).subset hin)
  · cases h

theorem of_collectionIn? : ∀ {cs id : List Char}, collectionIn? cs = some id →
    id ≠ [] ∧ ∀ c ∈ id, c ∈ cs ∧ isQuote c = false
  | c :: cs, id, h => by
    rw [collectionIn?] at h
    cases hhere : collectionHere? (c :: cs) with
    | some here =>
      rw [hhere] at h
      rw [← Option.some.inj h]
      exact of_collectionHere? hhere
    | none =>
      rw [hhere] at h
      obtain ⟨hne, hmem⟩ := of_collectionIn? h
      exact ⟨hne, fun d hd => (hmem d hd).imp_left (List.mem_cons_of_mem c)⟩

/-- **What is found** is not empty, has no quotes and stands on one line. -/
theorem of_collectionOf? {source id : String} (h : collectionOf? source = some id) :
    id ≠ "" ∧ ∀ c ∈ id.toList, isQuote c = false ∧ c ≠ '\n' := by
  obtain ⟨line, hline, hfound⟩ := List.exists_of_findSome?_eq_some h
  obtain ⟨cs, hcs, rfl⟩ := Option.map_eq_some_iff.1 hfound
  obtain ⟨hne, hmem⟩ := of_collectionIn? hcs
  rw [String.toList_ofList]
  refine ⟨?_, fun c hc => ⟨(hmem c hc).2, ?_⟩⟩
  · rwa [ne_eq, String.ofList_eq_empty_iff]
  · exact ne_of_mem_of_not_mem (hmem c hc).1 (not_mem_of_mem_lines hline)

/-! ### The property of a call -/

theorem collectionIn?_of_collectionHere? {cs id : List Char} (h : collectionHere? cs = some id) :
    collectionIn? cs = some id := by
  cases cs with
  | nil => cases h
  | cons c cs => rw [collectionIn?, h]; rfl

/-- The text of a property up to the next quote. -/
theorem collectionIn?_property {id : List Char} (hne : id ≠ [])
    (hquote : ∀ c ∈ id, isQuote c = false) (rest : List Char) :
    collectionIn? ("    collection: '".toList ++ (id ++ '\'' :: rest)) = some id := by
  have hquoted : quotedHere? ('\'' :: (id ++ '\'' :: rest)) = some id := by
    have hall : ∀ c ∈ id, (!isQuote c) = true := fun c hc => by rw [hquote c hc]; rfl
    have hend : (!isQuote '\'') = false := rfl
    rw [quotedHere?, List.takeWhile_append_of_pos hall, List.dropWhile_append_of_pos hall,
      List.takeWhile_cons_of_neg (by simp [hend]), List.dropWhile_cons_of_neg (by simp [hend])]
    simp [isQuote, hne]
  have hhere : collectionHere? (collectionWord ++ (' ' :: '\'' :: (id ++ '\'' :: rest))) =
      some id := by
    rw [collectionHere?, if_pos (List.isPrefixOf_iff_prefix.2 (List.prefix_append ..)),
      List.drop_left]
    exact hquoted
  have hspace (cs : List Char) : collectionIn? (' ' :: cs) = collectionIn? cs := rfl
  have hsplit : "    collection: '".toList ++ (id ++ '\'' :: rest) =
      ' ' :: ' ' :: ' ' :: ' ' ::
        (collectionWord ++ (' ' :: '\'' :: (id ++ '\'' :: rest))) := by
    rw [show "    collection: '".toList =
      [' ', ' ', ' ', ' '] ++ collectionWord ++ [' ', '\''] by decide]
    simp
  rw [hsplit, hspace, hspace, hspace, hspace]
  exact collectionIn?_of_collectionHere? hhere

end Lexgen.Routes
