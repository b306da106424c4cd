/-
# Strings as they are written

Between its quotes a string is written with characters that stand for themselves and with escapes.
A quote in there has a backslash in front, so that the first quote without one ends the string. What
a string says depends on its written body alone, not on the text behind it
(`exists_body_of_readString`), and it looks like its body only if nothing in it has to be escaped
(`StandsFor`).

Key definitions: `IsBody`, `bodyOf`, `StandsFor`.
Key theorems: `bodyOf_append`, `IsBody.quotes_escaped`, `exists_body_of_readString`.
-/
import Lexgen.Json.Reader
import Lexgen.Data.Steps
import Mathlib.Data.List.Chain

namespace Lexgen.Json

open Lexgen.Data Lexgen.Text

/-! ### The body of a string -/

/-- What may stand between the quotes of a string: characters other than quotes and backslashes, and
backslashes each with the character behind it. -/
inductive IsBody : List Char → Prop where
  | nil : IsBody []
  | plain {c : Char} {body : List Char} : c ≠ '"' → c ≠ '\\' → IsBody body → IsBody (c :: body)
  | escape {c : Char} {body : List Char} : IsBody body → IsBody ('\\' :: c :: body)

/-- The characters of a string behind its opening quote up to its closing one, as written. -/
def bodyOf : List Char → List Char
  | [] => []
  | '\\' :: c :: rest => '\\' :: c :: bodyOf rest
  | c :: rest => if c = '"' then [] else c :: bodyOf rest

theorem bodyOf_append {body : List Char} (h : IsBody body) (rest : List Char) :
    bodyOf (body ++ '"' :: rest) = body := by
  induction h with
  | nil => simp [bodyOf]
  | @plain c body hquote hback _ ih =>
    rw [List.cons_append, bodyOf.eq_3, if_neg hquote, ih]
    rintro _ _ rfl
    exact absurd rfl hback
  | escape _ ih => rw [List.cons_append, List.cons_append, bodyOf, ih]

/-- Inside a string every quote has a backslash in front, whatever stands in front of the body. -/
theorem IsBody.quotes_escaped {body : List Char} (h : IsBody body) :
    ∀ front : Char, (front :: body).IsChain fun x y => y = '"' → x = '\\' := by
  induction h with
  | nil => exact fun front => List.isChain_singleton front
  | plain hquote _ _ ih =>
    exact fun front => List.isChain_cons_cons.mpr ⟨fun h => absurd h hquote, ih _⟩
  | escape _ ih =>
    exact fun front => List.isChain_cons_cons.mpr
      ⟨fun h => absurd h (by decide), List.isChain_cons_cons.mpr ⟨fun _ => rfl, ih _⟩⟩

theorem IsBody.append {front body : List Char} (hfront : IsBody front) (hbody : IsBody body) :
    IsBody (front ++ body) := by
  induction hfront with
  | nil => exact hbody
  | plain hquote hback _ ih => exact .plain hquote hback ih
  | escape _ ih => exact .escape ih

/-- Characters none of which is a quote or a backslash. -/
theorem isBody_of_plain : ∀ {body : List Char}, (∀ c ∈ body, c ≠ '"' ∧ c ≠ '\\') → IsBody body
  | [], _ => .nil
  | c :: body, h =>
    .plain (h c (by simp)).1 (h c (by simp)).2
      (isBody_of_plain fun d hd => h d (List.mem_cons_of_mem c hd))

/-! ### Reading depends on the body alone -/

/-- A hexadecimal digit is neither a quote nor a backslash. -/
theorem ne_of_hexValue? {c : Char} (h : (hexValue? c).isSome) : c ≠ '"' ∧ c ≠ '\\' := by
  constructor <;> rintro rfl <;> exact absurd h (by decide)

theorem hexValue?_of_mem {c : Char} :
    ∀ {cs : List Char} {n : Nat}, (hexNumberFrom? n cs).isSome → c ∈ cs → (hexValue? c).isSome
  | d :: cs, n, h, hc => by
    unfold hexNumberFrom? at h
    obtain ⟨m, hm⟩ := Option.isSome_iff_exists.mp h
    obtain ⟨v, hv, hm⟩ := Option.bind_eq_some_iff.mp hm
    rcases List.mem_cons.mp hc with rfl | hc
    · exact Option.isSome_of_mem hv
    · exact hexValue?_of_mem (Option.isSome_of_mem hm) hc

variable {cs rest : List Char}

/-- Four digits are read from the front, and the same ones in front of any other text. -/
theorem exists_used_of_readHex {n : Nat} (h : readHex cs = .ok (n, rest)) :
    ∃ used, cs = used ++ rest ∧ IsBody used ∧ ∀ tail, readHex (used ++ tail) = .ok (n, tail) := by
  unfold readHex at h
  split at h
  · next a b c d rest' =>
    split at h
    · next m hm =>
      cases h
      refine ⟨[a, b, c, d], rfl, isBody_of_plain fun x hx => ?_, fun tail => ?_⟩
      · exact ne_of_hexValue? (hexValue?_of_mem (Option.isSome_of_mem hm) hx)
      · simp only [List.cons_append, List.nil_append, readHex, hm]
    · cases h
  · split at h <;> cases h

theorem exists_used_of_readUnicode {c : Char} (h : readUnicode cs = .ok (c, rest)) :
    ∃ used, cs = used ++ rest ∧ IsBody used ∧
      ∀ tail, readUnicode (used ++ tail) = .ok (c, tail) := by
  obtain ⟨⟨high, middle⟩, hhigh, hrest⟩ := bind_eq_ok_iff.mp h
  clear h
  obtain ⟨first, rfl, hfirst, hreads⟩ := exists_used_of_readHex hhigh
  dsimp only at hrest
  split at hrest
  · cases hrest
  next hlow =>
  split at hrest
  · next hone =>
    cases hrest
    refine ⟨first, rfl, hfirst, fun tail => ?_⟩
    unfold readUnicode
    rw [hreads]
    simp only [bind, Except.bind, if_neg hlow, if_pos hone]
  next hpair =>
  split at hrest
  · cases hrest
  · cases hrest
  · next text =>
    -- a pair of surrogates
    obtain ⟨⟨low, behind⟩, hlow', hbehind⟩ := bind_eq_ok_iff.mp hrest
    clear hrest
    obtain ⟨second, rfl, hsecond, hreads'⟩ := exists_used_of_readHex hlow'
    dsimp only at hbehind
    split at hbehind
    · cases hbehind
    next hrange =>
    obtain ⟨rfl, rfl⟩ := Prod.mk.inj (Except.ok.inj hbehind)
    refine ⟨first ++ '\\' :: 'u' :: second, by simp, hfirst.append (.escape hsecond),
      fun tail => ?_⟩
    unfold readUnicode
    rw [List.append_assoc, hreads]
    simp only [bind, Except.bind, if_neg hlow, if_neg hpair, List.cons_append, hreads',
      if_neg hrange]
  · cases hrest
  · cases hrest

/-- An escape is read up to its end, which the text behind it does not move. -/
theorem exists_used_of_readEscape {c : Char} (h : readEscape cs = .ok (c, rest)) :
    ∃ used, cs = used ++ rest ∧ IsBody ('\\' :: used) ∧
      ∀ tail, readEscape (used ++ tail) = .ok (c, tail) := by
  match cs, h with
  | d :: cs, h =>
    simp only [readEscape] at h
    split at h
    case h_9 =>
      obtain ⟨used, rfl, hused, hreads⟩ := exists_used_of_readUnicode h
      exact ⟨'u' :: used, rfl, .escape hused, fun tail => hreads tail⟩
    case h_10 => cases h
    all_goals
      cases h
      exact ⟨[_], rfl, .escape .nil, fun _ => rfl⟩

/-- What a body stands for: no more characters than it has, and the same ones only if none of them
has to be escaped. -/
structure StandsFor (body s : List Char) : Prop where
  length_le : s.length ≤ body.length
  plain : s = body → ∀ c ∈ body, c ≠ '"' ∧ c ≠ '\\'

theorem StandsFor.cons {body s : List Char} (h : StandsFor body s) {c : Char} (hquote : c ≠ '"')
    (hback : c ≠ '\\') : StandsFor (c :: body) (c :: s) where
  length_le := Nat.succ_le_succ h.length_le
  plain heq := List.forall_mem_cons.mpr ⟨⟨hquote, hback⟩, h.plain (List.cons.inj heq).2⟩

/-- An escape stands for one character and is longer than that. -/
theorem StandsFor.escape {used body s : List Char} (h : StandsFor body s)
    (hused : IsBody ('\\' :: used)) (c : Char) :
    StandsFor ('\\' :: used ++ body) (c :: s) := by
  have hlength : (c :: s).length < ('\\' :: used ++ body).length := by
    have hpos : 0 < used.length := by
      cases hused with
      | plain _ hback _ => exact absurd rfl hback
      | escape _ => exact Nat.succ_pos _
    have hle := h.length_le
    simp only [List.length_cons, List.length_append]
    omega
  exact ⟨hlength.le, fun heq => absurd (congrArg List.length heq) hlength.ne⟩

/-- The characters of a string are read from its body, which ends at the closing quote. -/
theorem exists_body_of_stringBody {s : List Char} :
    ∀ {fuel : Nat} {cs : List Char}, stringBody fuel cs = .ok (s, rest) →
      ∃ body, cs = body ++ '"' :: rest ∧ IsBody body ∧ StandsFor body s ∧
        ∀ {fuel' : Nat} tail, body.length < fuel' →
          stringBody fuel' (body ++ '"' :: tail) = .ok (s, tail)
  | fuel + 1, cs, h => by
    unfold stringBody at h
    split at h
    · cases h
    · cases h
      refine ⟨[], rfl, .nil, ⟨Nat.le_refl 0, by simp⟩, fun {fuel'} tail hfuel => ?_⟩
      match fuel' with
      | n + 1 => rfl
    · next text =>
      obtain ⟨⟨c, behind⟩, hc, h'⟩ := bind_eq_ok_iff.mp h
      obtain ⟨⟨s', rest'⟩, hs', heq⟩ := bind_eq_ok_iff.mp h'
      cases heq
      obtain ⟨used, rfl, hused, hescape⟩ := exists_used_of_readEscape hc
      obtain ⟨body, rfl, hbody, hstands, hreads⟩ := exists_body_of_stringBody hs'
      refine ⟨'\\' :: used ++ body, by simp, hused.append hbody, hstands.escape hused c,
        fun {fuel'} tail hfuel => ?_⟩
      match fuel' with
      | n + 1 =>
        have hn : body.length < n := by
          simp only [List.length_append, List.length_cons] at hfuel
          omega
        rw [List.append_assoc, List.cons_append, stringBody]
        simp only [hescape, hreads tail hn, bind, Except.bind]
    · next c text hquote hback =>
      split at h
      · cases h
      next hcontrol =>
      obtain ⟨⟨s', rest'⟩, hs', heq⟩ := bind_eq_ok_iff.mp h
      cases heq
      obtain ⟨body, rfl, hbody, hstands, hreads⟩ := exists_body_of_stringBody hs'
      have hq : c ≠ '"' := by
        rintro rfl
        exact hquote rfl
      have hb : c ≠ '\\' := by
        rintro rfl
        exact hback rfl
      refine ⟨c :: body, rfl, .plain hq hb hbody, hstands.cons hq hb,
        fun {fuel'} tail hfuel => ?_⟩
      match fuel' with
      | n + 1 =>
        have hn : body.length < n := Nat.lt_of_succ_lt_succ hfuel
        rw [List.cons_append, stringBody.eq_5 _ _ _ hq hb, if_neg hcontrol, hreads tail hn]
        rfl

/-- **A string is read from its body alone**: it ends at the closing quote of the body, and without
the text behind it the string is the same. -/
theorem exists_body_of_readString {s : String} (h : readString cs = .ok (s, rest)) :
    ∃ body, cs = body ++ '"' :: rest ∧ IsBody body ∧ StandsFor body s.toList ∧
      readString (body ++ ['"']) = .ok (s, []) := by
  obtain ⟨⟨chars, rest'⟩, hchars, heq⟩ := bind_eq_ok_iff.mp h
  cases heq
  obtain ⟨body, hcs, hbody, hstands, hreads⟩ := exists_body_of_stringBody hchars
  refine ⟨body, hcs, hbody, String.toList_ofList ▸ hstands, ?_⟩
  have hfuel : body.length < (body ++ ['"']).length + 1 := by
    rw [List.length_append]
    omega
  unfold readString
  rw [hreads [] hfuel]
  rfl

end Lexgen.Json
