/-
# What numbers and words are written with

Numbers and the words `null`, `true` and `false` are taken from the front of a text, and only with
characters that mean nothing to the layout of a document: neither a quote nor a bracket, brace or
comma. One lemma for each of the readers that call one another.

Key definitions: `isBare`, `Skips`.
Key theorems: `gives_skips_readNumber`, `gives_skips_readWord`.
-/
import Lexgen.Json.Reader
import Lexgen.Proofs.Data.Gives
import Mathlib.Data.List.TakeWhile

namespace Lexgen.Json

open Lexgen.Data

/-- Whether a character neither opens nor closes anything and parts no entries. -/
def isBare (c : Char) : Bool := !(['"', '{', '}', '[', ']', ','].contains c)

/-- The second text follows bare characters of the first. -/
def Skips (cs rest : List Char) : Prop :=
  ∃ used, cs = used ++ rest ∧ ∀ c ∈ used, isBare c

theorem Skips.refl (cs : List Char) : Skips cs cs := ⟨[], rfl, by simp⟩

theorem Skips.cons {c : Char} {cs rest : List Char} (hc : isBare c) (h : Skips cs rest) :
    Skips (c :: cs) rest := by
  obtain ⟨used, rfl, hused⟩ := h
  refine ⟨c :: used, rfl, fun d hd => ?_⟩
  rcases List.mem_cons.mp hd with rfl | hd
  · exact hc
  · exact hused d hd

theorem Skips.trans {cs middle rest : List Char} (h : Skips cs middle) (h' : Skips middle rest) :
    Skips cs rest := by
  obtain ⟨used, rfl, hused⟩ := h
  obtain ⟨used', rfl, hused'⟩ := h'
  exact ⟨used ++ used', (List.append_assoc ..).symm, List.forall_mem_append.mpr ⟨hused, hused'⟩⟩

/-- A property that none of the other characters has is one of bare characters. -/
theorem isBare_of {p : Char → Bool} (hp : ['"', '{', '}', '[', ']', ','].all (!p ·) = true)
    {c : Char} (h : p c = true) : isBare c := by
  rw [isBare, Bool.not_eq_true', List.contains_eq_mem, decide_eq_false_iff_not]
  intro hc
  have := List.all_eq_true.mp hp c hc
  rw [h] at this
  cases this

theorem isBare_of_isDigit {c : Char} (h : c.isDigit = true) : isBare c :=
  isBare_of (p := Char.isDigit) (by decide) h

theorem isBare_of_isSpace {c : Char} (h : isSpace c = true) : isBare c :=
  isBare_of (p := isSpace) (by decide) h

/-- Dropping characters from the front skips them. -/
theorem skips_dropWhile {p : Char → Bool} (hp : ∀ c, p c = true → isBare c) (cs : List Char) :
    Skips cs (cs.dropWhile p) :=
  ⟨cs.takeWhile p, List.takeWhile_append_dropWhile.symm,
    fun c hc => hp c (List.mem_takeWhile_imp hc)⟩

theorem skips_skipSpace (cs : List Char) : Skips cs (skipSpace cs) :=
  skips_dropWhile (fun _ => isBare_of_isSpace) cs

theorem skips_dropDigits (cs : List Char) : Skips cs (dropDigits cs) :=
  skips_dropWhile (fun _ => isBare_of_isDigit) cs

/-! ### Words -/

theorem gives_skips_readWord {v : Value} :
    ∀ {word : List Char} (cs : List Char), word.all isBare = true →
      Gives (fun r => r.1 = v ∧ Skips cs r.2) (readWord v word cs)
  | [], cs, _ => .ok ⟨rfl, .refl cs⟩
  | _ :: _, [], _ => .error
  | e :: word, c :: cs, h => by
    unfold readWord
    split
    · next hc =>
      intro r hr
      obtain ⟨he, hword⟩ := Bool.and_eq_true_iff.mp h
      obtain ⟨hv, hskips⟩ := gives_skips_readWord cs hword r hr
      exact ⟨hv, .cons (hc ▸ he) hskips⟩
    · exact .error

/-! ### Numbers -/

variable {negative : Bool} {significand : Nat}

/-- What a number reader leaves follows bare characters of what it is given. -/
abbrev SkipsIn (cs : List Char) (x : Except Fault (Number × List Char)) : Prop :=
  Gives (fun r => Skips cs r.2) x

theorem SkipsIn.cons {c : Char} {cs : List Char} {x : Except Fault (Number × List Char)}
    (hc : isBare c) (h : SkipsIn cs x) : SkipsIn (c :: cs) x :=
  fun r hr => .cons hc (h r hr)

theorem skipsIn_finish {e : Int} (cs : List Char) :
    SkipsIn cs (finish negative significand e cs) := by
  unfold finish
  split
  · exact .error
  · exact .ok (.refl cs)

theorem skipsIn_exponentDigits {start : Int} {down : Bool} :
    ∀ {e : Nat} (cs : List Char), SkipsIn cs (exponentDigits negative significand start down e cs)
  | _, [] => skipsIn_finish []
  | e, c :: cs => by
    unfold exponentDigits
    by_cases hc : c.isDigit
    · have hbare := isBare_of_isDigit hc
      rw [if_pos hc]
      dsimp only
      split
      · exact (skipsIn_exponentDigits cs).cons hbare
      · split
        · exact .error
        · exact .ok (.cons hbare (skips_dropDigits cs))
    · rw [if_neg hc]
      exact skipsIn_finish (c :: cs)

theorem skipsIn_exponentStart {start : Int} {down : Bool} :
    ∀ cs : List Char, SkipsIn cs (exponentStart negative significand start down cs)
  | [] => .error
  | c :: cs => by
    rw [exponentStart]
    split
    · next hc => exact (skipsIn_exponentDigits cs).cons (isBare_of_isDigit hc)
    · exact .error

theorem skipsIn_exponent {start : Int} (cs : List Char) :
    SkipsIn cs (exponent negative significand start cs) := by
  unfold exponent
  split
  · exact (skipsIn_exponentStart _).cons (by decide)
  · exact (skipsIn_exponentStart _).cons (by decide)
  · exact skipsIn_exponentStart cs

theorem isBare_exponentLetter {c : Char} (h : c = 'e' ∨ c = 'E') : isBare c := by
  rcases h with rfl | rfl <;> decide

theorem skipsIn_afterDigits {e : Int} :
    ∀ cs : List Char, SkipsIn cs (afterDigits negative significand e cs)
  | [] => skipsIn_finish []
  | c :: cs => by
    rw [afterDigits]
    split
    · next hc => exact (skipsIn_exponent cs).cons (isBare_exponentLetter hc)
    · exact skipsIn_finish (c :: cs)

theorem skipsIn_fraction {start : Int} :
    ∀ {significand count : Nat} (cs : List Char),
      SkipsIn cs (fraction negative significand start count cs)
  | _, count, [] => by
    unfold fraction
    split
    · exact .error
    · exact skipsIn_afterDigits []
  | _, count, c :: cs => by
    unfold fraction
    by_cases hc : c.isDigit
    · have hbare := isBare_of_isDigit hc
      rw [if_pos hc]
      split
      · exact (skipsIn_fraction cs).cons hbare
      · exact fun r hr => .cons hbare ((skips_dropDigits cs).trans (skipsIn_afterDigits _ r hr))
    · rw [if_neg hc]
      split
      · exact .error
      · exact skipsIn_afterDigits (c :: cs)

theorem skipsIn_moreDigits :
    ∀ {count : Nat} (cs : List Char), SkipsIn cs (moreDigits negative significand count cs)
  | _, [] => skipsIn_afterDigits []
  | _, c :: cs => by
    unfold moreDigits
    by_cases hc : c.isDigit
    · rw [if_pos hc]
      exact (skipsIn_moreDigits cs).cons (isBare_of_isDigit hc)
    · rw [if_neg hc]
      split
      · next hpoint => exact (skipsIn_fraction cs).cons (hpoint ▸ by decide)
      · exact skipsIn_afterDigits (c :: cs)

theorem skipsIn_afterInteger :
    ∀ cs : List Char, SkipsIn cs (afterInteger negative significand cs)
  | [] => .ok (.refl [])
  | c :: cs => by
    rw [afterInteger]
    split
    · next hpoint => exact (skipsIn_fraction cs).cons (hpoint ▸ by decide)
    · split
      · next hletter => exact (skipsIn_exponent cs).cons (isBare_exponentLetter hletter)
      · exact .ok (.refl _)

theorem skipsIn_integerDigits :
    ∀ {significand : Nat} (cs : List Char), SkipsIn cs (integerDigits negative significand cs)
  | _, [] => skipsIn_afterInteger []
  | _, c :: cs => by
    unfold integerDigits
    by_cases hc : c.isDigit
    · have hbare := isBare_of_isDigit hc
      rw [if_pos hc]
      split
      · exact (skipsIn_integerDigits cs).cons hbare
      · exact (skipsIn_moreDigits cs).cons hbare
    · rw [if_neg hc]
      exact skipsIn_afterInteger (c :: cs)

theorem skipsIn_unsigned (cs : List Char) : SkipsIn cs (unsigned negative cs) := by
  unfold unsigned
  split
  · exact .error
  · split
    · exact .error
    · exact (skipsIn_afterInteger _).cons (by decide)
  · split
    · next hc => exact (skipsIn_integerDigits _).cons (isBare_of_isDigit hc)
    · exact .error

/-- **A number** is written with bare characters. -/
theorem gives_skips_readNumber (cs : List Char) :
    Gives (fun r => Skips cs r.2) (readNumber cs) := by
  unfold readNumber
  split
  · exact (skipsIn_unsigned _).cons (by decide)
  · exact skipsIn_unsigned cs

end Lexgen.Json
