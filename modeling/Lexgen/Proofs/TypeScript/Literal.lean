/-
# String literals can be read back

Reading the body of a literal takes off one escaped character at a time
(`decodeBody?_escapeChar_append`), so it gives the text that was escaped and stops at the closing
quote. Hence a literal stands for one text only.

Key theorems: `decodeLiteral?_stringLiteral`, `stringLiteral_injective`,
`flatMap_escapeChar_eq_self_iff`.
-/
import Lexgen.TypeScript.Literal

namespace Lexgen.TypeScript

theorem toList_stringLiteral (s : String) :
    (stringLiteral s).toList = '\'' :: (s.toList.flatMap escapeChar ++ ['\'']) := by
  rw [stringLiteral, String.toList_ofList, List.cons_append]

theorem decodeBody?_escapeChar_append (c : Char) (body : List Char) :
    decodeBody? (escapeChar c ++ body) = (decodeBody? body).map fun r => (c :: r.1, r.2) := by
  unfold escapeChar
  split
  · simp [decodeBody?]
  · simp [decodeBody?]
  · simp [decodeBody?]
  · simp [decodeBody?]
  · next hback hquote hline hreturn =>
    rw [List.singleton_append, decodeBody?]
    · exact hquote
    · exact fun _ _ h _ => hback h

/-- A body is read up to its closing quote. -/
theorem decodeBody?_flatMap_escapeChar (rest : List Char) : ∀ cs : List Char,
    decodeBody? (cs.flatMap escapeChar ++ '\'' :: rest) = some (cs, rest)
  | [] => by simp [decodeBody?]
  | c :: cs => by
    rw [List.flatMap_cons, List.append_assoc, decodeBody?_escapeChar_append,
      decodeBody?_flatMap_escapeChar rest cs]
    rfl

/-- **A literal is read back as the text that it was made of.** -/
theorem decodeLiteral?_stringLiteral (s : String) : decodeLiteral? (stringLiteral s) = some s := by
  have hbody := decodeBody?_flatMap_escapeChar [] s.toList
  simp only [decodeLiteral?, toList_stringLiteral, hbody, String.ofList_toList]

theorem stringLiteral_injective {s t : String} (h : stringLiteral s = stringLiteral t) : s = t := by
  have hs := decodeLiteral?_stringLiteral s
  rw [h, decodeLiteral?_stringLiteral t] at hs
  exact (Option.some.inj hs).symm

/-- A literal is one line. -/
theorem ne_of_mem_stringLiteral {s : String} {c : Char} (h : c ∈ (stringLiteral s).toList) :
    c ≠ '\n' ∧ c ≠ '\r' := by
  have hbody (d : Char) : ∀ c ∈ escapeChar d, c ≠ '\n' ∧ c ≠ '\r' := by
    unfold escapeChar
    split
    · simp
    · simp
    · simp
    · simp
    · next hline hreturn => exact List.forall_mem_singleton.2 ⟨hline, hreturn⟩
  rw [toList_stringLiteral, List.mem_cons, List.mem_append, List.mem_singleton] at h
  rcases h with rfl | h | rfl
  · decide
  · obtain ⟨d, -, hc⟩ := List.mem_flatMap.1 h
    exact hbody d c hc
  · decide

/-! ### Texts without escapes -/

/-- A character stands for itself, or two characters stand for it. -/
theorem escapeChar_cases (c : Char) :
    (escapeChar c = [c] ∧ c ∉ ['\\', '\'', '\n', '\r']) ∨
      ((escapeChar c).length = 2 ∧ c ∈ ['\\', '\'', '\n', '\r']) := by
  unfold escapeChar
  split
  · exact .inr (by decide)
  · exact .inr (by decide)
  · exact .inr (by decide)
  · exact .inr (by decide)
  · next hback hquote hline hreturn =>
    refine .inl ⟨rfl, ?_⟩
    simp only [List.mem_cons, List.not_mem_nil, or_false, not_or]
    exact ⟨hback, hquote, hline, hreturn⟩

theorem length_le_flatMap_escapeChar : ∀ cs : List Char,
    cs.length ≤ (cs.flatMap escapeChar).length
  | [] => Nat.le_refl _
  | c :: cs => by
    have ih := length_le_flatMap_escapeChar cs
    rw [List.flatMap_cons, List.length_append, List.length_cons]
    rcases escapeChar_cases c with ⟨hself, -⟩ | ⟨htwo, -⟩
    · rw [hself, List.length_singleton]
      omega
    · omega

/-- A text is its own escape if none of its characters is escaped. -/
theorem flatMap_escapeChar_eq_self_iff : ∀ {cs : List Char},
    cs.flatMap escapeChar = cs ↔ ∀ c ∈ cs, c ∉ ['\\', '\'', '\n', '\r']
  | [] => by simp
  | c :: cs => by
    have ih := @flatMap_escapeChar_eq_self_iff cs
    rw [List.flatMap_cons, List.forall_mem_cons, ← ih]
    rcases escapeChar_cases c with ⟨hself, hc⟩ | ⟨htwo, hc⟩
    · rw [hself, List.singleton_append, List.cons.injEq]
      exact ⟨fun h => ⟨hc, h.2⟩, fun h => ⟨rfl, h.2⟩⟩
    · refine ⟨fun h => ?_, fun h => absurd hc h.1⟩
      have hlength := length_le_flatMap_escapeChar cs
      have htotal := congrArg List.length h
      rw [List.length_append, List.length_cons] at htotal
      omega

end Lexgen.TypeScript
