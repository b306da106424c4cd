/-
# The label of a text that is not JSON

A fault in a JSON text is reported as the line and the column behind the bytes that were read or
looked at, and the label is computed back from line and column. Both ways together lose nothing: the
label is in front of the last of these bytes, or behind it if it is a line feed
(`leadsBack_malformed`).

Key theorems: `parse_eq_malformed_iff`, `leadsBack_malformed`.
-/
import Lexgen.Lexicon.Document
import Lexgen.Proofs.Text.Position

namespace Lexgen.Json

open Lexgen.Text

theorem Fault.bytes_le (f : Fault) (text : String) : f.bytes text ≤ (Text.bytes text).length := by
  rw [← byteSize_toList]
  exact Nat.min_le_right _ _

end Lexgen.Json

namespace Lexgen.Lexicon

open Lexgen.Json Lexgen.Text

/-- A text is malformed exactly if it is no JSON, and then the fault is what is reported. -/
theorem Document.parse_eq_malformed_iff {text problem : String} {offset : Nat} :
    Document.parse text = .error (.malformed problem offset) ↔
      ∃ f, Json.parse text = .error f ∧ f.message text = problem ∧
        offsetOf text (f.place text) = offset := by
  unfold Document.parse
  cases hroot : Json.parse text with
  | error f =>
    dsimp only [Except.mapError, bind, Except.bind]
    simp [Document.malformed]
  | ok root =>
    dsimp only [Except.mapError, bind, Except.bind]
    simp only [reduceCtorEq, false_and, exists_false, iff_false]
    split
    · simp
    · split
      · simp
      · split
        · simp
        · simp

/-- **Labels are computed back from line and column without drift.** For every text and each number
of its bytes, the place after them leads back to them; and what is reported of a text that is not
JSON is such a place and the offset that it leads back to. -/
theorem leadsBack_malformed (text : String) :
    (∀ i ≤ (bytes text).length, LeadsBack text i) ∧
    ∀ problem offset, Document.parse text = .error (.malformed problem offset) →
      ∃ i ≤ (bytes text).length, ∃ p : Problem,
        problem = p.message ++ " at line " ++ toString (lineAfter ((bytes text).take i)) ++
          " column " ++ toString (columnAfter ((bytes text).take i)) ∧
        offset = if columnAfter ((bytes text).take i) = 0 then i else i - 1 := by
  refine ⟨fun i hi => leadsBack_placeAfter hi, fun problem offset h => ?_⟩
  obtain ⟨f, -, rfl, rfl⟩ := Document.parse_eq_malformed_iff.mp h
  have hback := leadsBack_placeAfter (f.bytes_le text)
  refine ⟨f.bytes text, f.bytes_le text, f.problem, ?_, hback.offset⟩
  rw [Fault.message, Fault.place, hback.place]

/-- A text with a character of two bytes, an empty line and a last line without an end. -/
def brokenText : String := "[\"é\",\n\n  oops"

/-- Behind the empty line the label stays where it is, on the last line it is the byte in front. -/
theorem leadsBack_brokenText :
    LeadsBack brokenText 8 ∧ placeAfter brokenText 8 = ⟨3, 0⟩ ∧
    offsetOf brokenText (placeAfter brokenText 8) = 8 ∧
    Document.parse brokenText = .error (.malformed "expected value at line 3 column 3" 10) ∧
    ∃ i ≤ (bytes brokenText).length, 10 = if columnAfter ((bytes brokenText).take i) = 0 then i
      else i - 1 := by
  obtain ⟨hback, hreported⟩ := leadsBack_malformed brokenText
  have hparse : Document.parse brokenText =
      .error (.malformed "expected value at line 3 column 3" 10) := by
    have hrefused : (Document.parse brokenText).map (fun _ => ()) =
        .error (.malformed "expected value at line 3 column 3" 10) := by decide +kernel
    cases hparsed : Document.parse brokenText with
    | error e =>
      rw [hparsed] at hrefused
      exact congrArg Except.error (Except.error.inj hrefused)
    | ok d =>
      rw [hparsed] at hrefused
      cases hrefused
  obtain ⟨i, hi, -, -, hoffset⟩ := hreported _ _ hparse
  exact ⟨hback 8 (by decide +kernel), by decide +kernel, by decide +kernel, hparse, i, hi, hoffset⟩

end Lexgen.Lexicon
