/-
# Unions of literals can be read back

The text of a union is cut at the bars outside of quotes, with the scan that also looks for a bar at
the top, and each piece is read as a literal. Escaping keeps the scan inside of the quotes, so a
literal goes to one piece as a whole, whatever text it stands for (`cutAtBars_stringLiteral`), and
the pieces of a union are its members (`pieces_intercalate`). Different texts have different
literals, so the members are the literals of the texts without later duplicates
(`members_ofStrings`), and reading the union back gives these texts (`readsBack_ofStrings`).

Key definitions: `cutAtBars`, `pieces`, `literals?`, `ReadsBack`.
Key theorems: `cutAtBars_stringLiteral`, `pieces_intercalate`, `readsBack_ofStrings`.
-/
import Lexgen.Proofs.Text.Pieces
import Lexgen.Proofs.Types.Brackets

namespace Lexgen.Types

open Lexgen.Data Lexgen.Text Lexgen.TypeScript

/-! ### Cutting at the bars -/

/-- What stands between the bars outside of quotes, from a place of a scan on. -/
def cutAtBars (s : Scan) : List Char → List (List Char)
  | [] => [[]]
  | c :: cs =>
    if !s.quoted && c == '|' then [] :: cutAtBars (s.step c) cs
    else (cutAtBars (s.step c) cs).modifyHead (c :: ·)

/-- Inside of quotes an escaped character goes to the piece, and the scan stays inside. -/
theorem cutAtBars_escapeChar (c : Char) (rest : List Char) :
    cutAtBars ⟨0, true, false⟩ (escapeChar c ++ rest) =
      (cutAtBars ⟨0, true, false⟩ rest).modifyHead (escapeChar c ++ ·) := by
  unfold escapeChar
  split
  · simp [cutAtBars, Scan.step, List.modifyHead_modifyHead, Function.comp_def]
  · simp [cutAtBars, Scan.step, List.modifyHead_modifyHead, Function.comp_def]
  · simp [cutAtBars, Scan.step, List.modifyHead_modifyHead, Function.comp_def]
  · simp [cutAtBars, Scan.step, List.modifyHead_modifyHead, Function.comp_def]
  · next hback hquote _ _ =>
    have hback : c ≠ '\\' := hback
    have hquote : c ≠ '\'' := hquote
    simp [cutAtBars, Scan.step, hback, hquote]

theorem cutAtBars_flatMap_escapeChar (rest : List Char) : ∀ cs : List Char,
    cutAtBars ⟨0, true, false⟩ (cs.flatMap escapeChar ++ rest) =
      (cutAtBars ⟨0, true, false⟩ rest).modifyHead (cs.flatMap escapeChar ++ ·)
  | [] => (congrFun List.modifyHead_id _).symm
  | c :: cs => by
    rw [List.flatMap_cons, List.append_assoc, cutAtBars_escapeChar,
      cutAtBars_flatMap_escapeChar rest cs, List.modifyHead_modifyHead]
    simp only [Function.comp_def, List.append_assoc]

/-- A literal goes to one piece as a whole, whatever text it stands for. -/
theorem cutAtBars_stringLiteral (v : String) (rest : List Char) :
    cutAtBars {} ((stringLiteral v).toList ++ rest) =
      (cutAtBars {} rest).modifyHead ((stringLiteral v).toList ++ ·) := by
  have hopen (cs : List Char) : cutAtBars {} ('\'' :: cs) =
      (cutAtBars ⟨0, true, false⟩ cs).modifyHead ('\'' :: ·) := rfl
  have hclose : cutAtBars ⟨0, true, false⟩ ('\'' :: rest) =
      (cutAtBars {} rest).modifyHead ('\'' :: ·) := rfl
  rw [toList_stringLiteral, List.cons_append, List.append_assoc, List.singleton_append, hopen,
    cutAtBars_flatMap_escapeChar, hclose, List.modifyHead_modifyHead, List.modifyHead_modifyHead]
  simp only [Function.comp_def, List.cons_append, List.append_assoc, List.nil_append]

/-! ### The pieces of a union -/

/-- A piece as a text, without the blanks around it. -/
def piece (cs : List Char) : String := trim (String.ofList cs)

/-- The pieces between the bars outside of quotes, without the blanks around them. -/
def pieces (text : String) : List String := (cutAtBars {} text.toList).map piece

theorem piece_blank_cons (cs : List Char) : piece (' ' :: cs) = piece cs := by
  have hblank : dropBlank (' ' :: cs) = dropBlank cs := by simp [dropBlank, isBlank]
  simp only [piece, trim, String.toList_ofList, hblank]

/-- A literal starts and ends with a quote, so only the blanks behind it are trimmed. -/
theorem piece_stringLiteral_append (v : String) {blanks : List Char}
    (h : ∀ c ∈ blanks, isBlank c = true) :
    piece ((stringLiteral v).toList ++ blanks) = stringLiteral v := by
  have hstart : dropBlank ((stringLiteral v).toList ++ blanks) =
      (stringLiteral v).toList ++ blanks := by
    rw [toList_stringLiteral]
    rfl
  have hlast : (stringLiteral v).toList.reverse =
      '\'' :: ('\'' :: v.toList.flatMap escapeChar).reverse := by
    rw [toList_stringLiteral, ← List.cons_append, List.reverse_concat]
  have hend : dropBlankEnd ((stringLiteral v).toList ++ blanks) = (stringLiteral v).toList := by
    have hblanks : ∀ c ∈ blanks.reverse, isBlank c = true := fun c hc => h c (List.mem_reverse.1 hc)
    have hkept : dropBlank (stringLiteral v).toList.reverse =
        (stringLiteral v).toList.reverse := by
      rw [hlast]
      rfl
    rw [dropBlankEnd, List.reverse_append, dropBlank, List.dropWhile_append_of_pos hblanks,
      ← dropBlank, hkept, List.reverse_reverse]
  rw [piece, trim, String.toList_ofList, hstart, hend, String.ofList_toList]

/-- The pieces of a union of literals are the literals. -/
theorem pieces_intercalate : ∀ {vs : List String}, vs ≠ [] →
    pieces (" | ".intercalate (vs.map stringLiteral)) = vs.map stringLiteral
  | [], h => absurd rfl h
  | [v], _ => by
    have hone := cutAtBars_stringLiteral v []
    rw [List.append_nil] at hone
    have hlast : piece ((stringLiteral v).toList ++ []) = stringLiteral v :=
      piece_stringLiteral_append v (by simp)
    rw [List.map_singleton, String.intercalate_singleton, pieces, hone]
    show [piece ((stringLiteral v).toList ++ [])] = _
    rw [hlast]
  | v :: w :: vs, _ => by
    have ih : pieces (" | ".intercalate ((w :: vs).map stringLiteral)) =
        (w :: vs).map stringLiteral := pieces_intercalate (List.cons_ne_nil w vs)
    have hbar (cs : List Char) : cutAtBars {} (" | ".toList ++ cs) =
        [' '] :: (cutAtBars {} cs).modifyHead (' ' :: ·) := rfl
    -- The blank behind the bar is trimmed with the next piece.
    have hnext (xs : List (List Char)) : (xs.modifyHead (' ' :: ·)).map piece = xs.map piece := by
      cases xs with
      | nil => rfl
      | cons x xs => rw [List.modifyHead_cons, List.map_cons, List.map_cons, piece_blank_cons]
    have hfirst : piece ((stringLiteral v).toList ++ [' ']) = stringLiteral v :=
      piece_stringLiteral_append v (List.forall_mem_singleton.2 rfl)
    rw [List.map_cons, List.map_cons, String.intercalate_cons_cons, ← List.map_cons, pieces,
      String.toList_append, String.toList_append, List.append_assoc, cutAtBars_stringLiteral, hbar,
      List.modifyHead_cons, List.map_cons, hfirst, hnext]
    exact congrArg _ ih

/-! ### Reading a union back -/

/-- The texts that the literals of a union stand for. -/
def literals? (text : String) : Option (List String) := (pieces text).mapM decodeLiteral?

theorem mapM_decodeLiteral?_stringLiteral : ∀ vs : List String,
    (vs.map stringLiteral).mapM decodeLiteral? = some vs
  | [] => rfl
  | v :: vs => by
    rw [List.map_cons, List.mapM_cons, decodeLiteral?_stringLiteral,
      mapM_decodeLiteral?_stringLiteral vs]
    rfl

/-- Different texts have different literals, so a union of literals has each text once. -/
theorem members_ofStrings (values : List String) :
    (Union.ofStrings values).members = values.eraseDups.map stringLiteral := by
  rw [Union.ofStrings, members_ofTypes, eraseDups_map fun _ _ => stringLiteral_injective]

theorem text_ofStrings {values : List String} (h : values ≠ []) : (Union.ofStrings values).text =
    " | ".intercalate (values.eraseDups.map stringLiteral) := by
  have hsome : values.eraseDups.map stringLiteral ≠ [] :=
    mt List.map_eq_nil_iff.1 (eraseDups_ne_nil h)
  rw [Union.text, Union.textOr, members_ofStrings, if_neg (mt List.isEmpty_iff.1 hsome)]

/-- A union of literals is one line. -/
theorem ne_of_mem_text_ofStrings {values : List String} {c : Char}
    (hc : c ∈ (Union.ofStrings values).text.toList) : c ≠ '\n' ∧ c ≠ '\r' := by
  have hnever : '\n' ∉ "never".toList ∧ '\r' ∉ "never".toList := by decide
  have hbar : '\n' ∉ " | ".toList ∧ '\r' ∉ " | ".toList := by decide
  by_cases h : values = []
  · rw [h] at hc
    exact ⟨ne_of_mem_of_not_mem hc hnever.1, ne_of_mem_of_not_mem hc hnever.2⟩
  · rw [text_ofStrings h] at hc
    rcases mem_of_mem_intercalate hc with hc | ⟨t, ht, hc⟩
    · exact ⟨ne_of_mem_of_not_mem hc hbar.1, ne_of_mem_of_not_mem hc hbar.2⟩
    · obtain ⟨v, -, rfl⟩ := List.mem_map.1 ht
      exact ne_of_mem_stringLiteral hc

/-- A text of some literals loses none of them, whatever texts they stand for. -/
structure ReadsBack (values : List String) (text : String) : Prop where
  /-- Just the text without any literal is that of the empty type. -/
  never : text = "never" ↔ values = []
  /-- The literals stand for the texts, each once, in the order of their first appearance. -/
  literals : values ≠ [] → literals? text = some values.eraseDups
  /-- The text is one line. -/
  oneLine : ∀ c ∈ text.toList, c ≠ '\n' ∧ c ≠ '\r'

/-- **A union of literals is read back as its texts.** -/
theorem readsBack_ofStrings (values : List String) :
    ReadsBack values (Union.ofStrings values).text := by
  have hliterals (h : values ≠ []) :
      literals? (Union.ofStrings values).text = some values.eraseDups := by
    rw [text_ofStrings h, literals?, pieces_intercalate (eraseDups_ne_nil h),
      mapM_decodeLiteral?_stringLiteral]
  constructor
  case never =>
    constructor
    · intro htext
      by_contra h
      have hnone : literals? "never" = none := by decide
      have hsome := hliterals h
      rw [htext, hnone] at hsome
      cases hsome
    · rintro rfl
      rfl
  case literals => exact hliterals
  case oneLine => exact fun c hc => ne_of_mem_text_ofStrings hc

/-- Bars, brackets and quotes inside of a text neither cut it nor end it. -/
example : literals? (Union.ofStrings ["a' | 'b", "\x7b\\", "a' | 'b"]).text =
    some ["a' | 'b", "\x7b\\"] := by decide

end Lexgen.Types
