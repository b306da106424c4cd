/-
# Lists of string literals can be read back

The elements of an array literal are read character by character, in the way of the language: blanks
between the tokens count nowhere, a comma separates two literals, a literal may not go on over the
end of its line, and the bracket closes only behind a literal or right behind its opening bracket.
A written literal is taken off as a whole (`readElements?_stringLiteral`), so what was written for
some texts is read as these texts, whatever they are (`readElements?_elementsText`).

Key definitions: `Place`, `readElements?`, `elementsText`.
Key theorems: `readElements?_stringLiteral`, `readElements?_elementsText`.
-/
import Lexgen.Proofs.Code.Writer
import Lexgen.Proofs.TypeScript.Literal
import Lexgen.TypeScript.Value

namespace Lexgen.TypeScript

open Lexgen.Code Lexgen.Text

/-! ### Reading -/

/-- Where reading the elements of an array literal stands. The characters of a literal that have
been read are kept in reverse. -/
inductive Place where
  /-- Behind the opening bracket. -/
  | opening
  /-- In front of a literal. -/
  | element
  /-- Inside of a literal. -/
  | inside (read : List Char)
  /-- Inside of a literal, behind a backslash. -/
  | escaped (read : List Char)
  /-- Behind a literal. -/
  | behind
deriving DecidableEq, Repr

/-- The character that a character stands for behind a backslash; other escapes are not read. -/
def unescape? (c : Char) : Option Char :=
  match c with
  | '\\' => some '\\'
  | '\'' => some '\''
  | 'n' => some '\n'
  | 'r' => some '\r'
  | _ => none

/-- The texts of the elements from a place up to the closing bracket, and what follows that. -/
def readElements? : Place → List Char → Option (List String × List Char)
  | _, [] => none
  | .opening, c :: cs =>
    if isBlank c then readElements? .opening cs
    else if c = ']' then some ([], cs)
    else if c = '\'' then readElements? (.inside []) cs
    else none
  | .element, c :: cs =>
    if isBlank c then readElements? .element cs
    else if c = '\'' then readElements? (.inside []) cs
    else none
  | .inside read, c :: cs =>
    if c = '\'' then
      (readElements? .behind cs).map fun r => (String.ofList read.reverse :: r.1, r.2)
    else if c = '\\' then readElements? (.escaped read) cs
    else if c = '\n' ∨ c = '\r' then none
    else readElements? (.inside (c :: read)) cs
  | .escaped read, c :: cs =>
    (unescape? c).bind fun shown => readElements? (.inside (shown :: read)) cs
  | .behind, c :: cs =>
    if isBlank c then readElements? .behind cs
    else if c = ',' then readElements? .element cs
    else if c = ']' then some ([], cs)
    else none

/-! ### A literal -/

theorem readElements?_escapeChar (c : Char) (read rest : List Char) :
    readElements? (.inside read) (escapeChar c ++ rest) =
      readElements? (.inside (c :: read)) rest := by
  unfold escapeChar
  split
  · rfl
  · rfl
  · rfl
  · rfl
  · next hback hquote hline hreturn =>
    have hback : c ≠ '\\' := hback
    have hquote : c ≠ '\'' := hquote
    have hend : ¬ (c = '\n' ∨ c = '\r') := fun h => h.elim hline hreturn
    rw [List.singleton_append, readElements?, if_neg hquote, if_neg hback, if_neg hend]

theorem readElements?_flatMap_escapeChar : ∀ (cs read rest : List Char),
    readElements? (.inside read) (cs.flatMap escapeChar ++ rest) =
      readElements? (.inside (cs.reverse ++ read)) rest
  | [], _, _ => rfl
  | c :: cs, read, rest => by
    rw [List.flatMap_cons, List.append_assoc, readElements?_escapeChar,
      readElements?_flatMap_escapeChar cs, List.reverse_cons, List.append_assoc,
      List.singleton_append]

/-- **A written literal is read as a whole**, where a literal may stand. -/
theorem readElements?_stringLiteral {place : Place} (h : place = .opening ∨ place = .element)
    (s : String) (rest : List Char) :
    readElements? place ((stringLiteral s).toList ++ rest) =
      (readElements? .behind rest).map fun r => (s :: r.1, r.2) := by
  have hquote : readElements? place ((stringLiteral s).toList ++ rest) =
      readElements? (.inside []) (s.toList.flatMap escapeChar ++ ('\'' :: rest)) := by
    rw [toList_stringLiteral, List.cons_append, List.append_assoc, List.singleton_append]
    rcases h with rfl | rfl <;> rfl
  rw [hquote, readElements?_flatMap_escapeChar, List.append_nil, readElements?, if_pos rfl,
    List.reverse_reverse, String.ofList_toList]

/-! ### The lines of the elements -/

/-- The lines of the elements in a block. -/
def elementsText (values : List String) : String :=
  page ((Fragment.outlineAll 1 (elementLines (values.map stringLiteral))).map Indent.standard.at)

theorem elementsText_singleton (s : String) :
    elementsText [s] = "  " ++ stringLiteral s ++ "\n" := by
  have hindent : Indent.standard.at (1, stringLiteral s) = "  " ++ stringLiteral s := rfl
  show page [Indent.standard.at (1, stringLiteral s)] = _
  rw [hindent, page_cons]
  exact String.append_empty

theorem elementsText_cons_cons (s t : String) (values : List String) :
    elementsText (s :: t :: values) =
      "  " ++ (stringLiteral s ++ ",") ++ "\n" ++ elementsText (t :: values) := by
  have hindent :
      Indent.standard.at (1, stringLiteral s ++ ",") = "  " ++ (stringLiteral s ++ ",") := rfl
  rw [← hindent]
  exact page_cons _ _

/-- A line end and an indentation count nowhere in front of a literal. -/
theorem readElements?_indent {place : Place} (h : place = .opening ∨ place = .element)
    (cs : List Char) :
    readElements? place ('\n' :: ("  ".toList ++ cs)) = readElements? place cs := by
  rcases h with rfl | rfl <;> rfl

/-- **The lines of some elements are read as the texts of the elements.** -/
theorem readElements?_elementsText {place : Place} (h : place = .opening ∨ place = .element)
    (rest : List Char) : ∀ (s : String) (values : List String),
    readElements? place ('\n' :: ((elementsText (s :: values)).toList ++ ']' :: rest)) =
      some (s :: values, rest)
  | s, [] => by
    have hbehind : readElements? .behind ("\n".toList ++ ']' :: rest) = some ([], rest) := rfl
    rw [elementsText_singleton]
    simp only [String.toList_append, List.append_assoc]
    rw [readElements?_indent h, readElements?_stringLiteral h, hbehind]
    rfl
  | s, t :: values => by
    have hcomma (cs : List Char) : readElements? .behind (",".toList ++ ("\n".toList ++ cs)) =
        readElements? .element ('\n' :: cs) := rfl
    have hrest := readElements?_elementsText (.inr rfl) rest t values
    rw [elementsText_cons_cons]
    simp only [String.toList_append, List.append_assoc]
    rw [readElements?_indent h, readElements?_stringLiteral h, hcomma, hrest]
    rfl

end Lexgen.TypeScript
