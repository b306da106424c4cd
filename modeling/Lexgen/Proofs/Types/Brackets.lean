/-
# Quotes and brackets in the texts of types

A text is scanned character by character (`Scan.after`). It is `Bracketed` if the scan ends outside
of quotes on the level where it started, and never gets below that level; it is `Sealed` if some
characters do not stand on that level either, and `Single` if no bar does, so that it needs no
parentheses. The scan does not depend on the level that it starts on (`Scan.after_deeper`), so
bracketed texts can stand inside of brackets (`sealed_nested`) and one after the other
(`Sealed.append`, `sealed_intercalate`), and a literal never leaves its quotes before its end
(`sealed_stringLiteral`). Types are put together in just these ways: objects and arrays are single,
and the text of a union of single types has a bar at its top exactly if two of them are different
(`barAtTop_textOr_ofTypes_iff`).

Key definitions: `Scan.after`, `Scan.deeper`, `Bracketed`, `Sealed`, `Single`.
Key theorems: `sealed_nested`, `sealed_stringLiteral`, `sealed_inlineObject`, `sealed_arrayOf`,
`single_arrayOf`, `sealed_textOr_ofTypes`, `barAtTop_textOr_ofTypes_iff`.
-/
import Lexgen.Proofs.Data.Distinct
import Lexgen.Proofs.TypeScript.Key
import Lexgen.Types.Shape
import Mathlib.Data.List.Infix

namespace Lexgen.Types

open Lexgen.Data Lexgen.Name Lexgen.TypeScript

/-! ### Scans -/

namespace Scan

/-- The scan after several characters. -/
def after (s : Scan) (cs : List Char) : Scan := cs.foldl step s

@[simp] theorem after_append (s : Scan) (as bs : List Char) :
    s.after (as ++ bs) = (s.after as).after bs :=
  List.foldl_append

/-- The scan some levels deeper. -/
def deeper (s : Scan) (k : Int) : Scan := { s with depth := s.depth + k }

theorem step_deeper (s : Scan) (k : Int) (c : Char) :
    (s.deeper k).step c = (s.step c).deeper k := by
  obtain ⟨depth, quoted, escaped⟩ := s
  cases quoted with
  | true => grind [step, deeper]
  | false => grind [step, deeper]

/-- A scan does not depend on the level that it starts on. -/
theorem after_deeper (k : Int) : ∀ (cs : List Char) (s : Scan),
    (s.deeper k).after cs = (s.after cs).deeper k
  | [], _ => rfl
  | c :: cs, s => by
    have ih := after_deeper k cs (s.step c)
    rw [← step_deeper] at ih
    exact ih

theorem step_of_not_quoted {s : Scan} {c : Char} (hs : s.quoted = false) (hquote : c ≠ '\'')
    (hopens : opens c = false) (hcloses : closes c = false) : s.step c = s := by
  simp [step, hs, hquote, hopens, hcloses]

end Scan

/-- Whether a character stands outside of all quotes and brackets. -/
def foundAtTop (c : Char) : Scan → List Char → Bool
  | _, [] => false
  | s, d :: cs => (s.atTop && d == c) || foundAtTop c (s.step d) cs

theorem barAtTop_eq : ∀ (s : Scan) (cs : List Char), barAtTop s cs = foundAtTop '|' s cs
  | _, [] => rfl
  | s, c :: cs => by rw [barAtTop, foundAtTop, barAtTop_eq (s.step c) cs]

@[simp] theorem foundAtTop_append (c : Char) : ∀ (s : Scan) (as bs : List Char),
    foundAtTop c s (as ++ bs) = (foundAtTop c s as || foundAtTop c (s.after as) bs)
  | _, [], _ => rfl
  | s, a :: as, bs => by
    simp [foundAtTop, foundAtTop_append c (s.step a) as bs, Bool.or_assoc, Scan.after]

theorem barAtTop_append (s : Scan) (as bs : List Char) :
    barAtTop s (as ++ bs) = (barAtTop s as || barAtTop (s.after as) bs) := by
  simp [barAtTop_eq]

theorem forall_prefix_append {P : List Char → Prop} {as bs : List Char} :
    (∀ p, p <+: as ++ bs → P p) ↔ (∀ p, p <+: as → P p) ∧ ∀ p, p <+: bs → P (as ++ p) := by
  constructor
  · refine fun h => ⟨fun p hp => h p (hp.trans (List.prefix_append _ _)), fun p hp => h _ ?_⟩
    exact (List.prefix_append_right_inj as).mpr hp
  · rintro ⟨hfirst, hsecond⟩ p hp
    rcases List.prefix_or_prefix_of_prefix hp (List.prefix_append as bs) with h | ⟨q, rfl⟩
    · exact hfirst p h
    · exact hsecond q ((List.prefix_append_right_inj as).mp hp)

theorem forall_prefix_singleton {P : List Char → Prop} {c : Char} :
    (∀ p, p <+: [c] → P p) ↔ P [] ∧ P [c] := by
  simp only [← List.mem_inits]
  simp

/-- Where a scan is never outside of all quotes and brackets, it finds nothing there. -/
theorem foundAtTop_eq_false {c : Char} : ∀ {s : Scan} {cs : List Char},
    (∀ p, p <+: cs → (s.after p).atTop = false) → foundAtTop c s cs = false
  | _, [], _ => rfl
  | s, d :: cs, h => by
    have h : ∀ p, p <+: [d] ++ cs → (s.after p).atTop = false := h
    obtain ⟨hnow, hrest⟩ := forall_prefix_append.mp h
    have htop : s.atTop = false := hnow [] List.nil_prefix
    rw [foundAtTop, htop, Bool.false_and, Bool.false_or]
    exact foundAtTop_eq_false hrest

/-! ### Bracketed texts -/

/-- The scan of the text ends outside of quotes on the level where it started, and is never below
that level. -/
structure Bracketed (cs : List Char) : Prop where
  ends : Scan.after {} cs = {}
  above : ∀ p, p <+: cs → 0 ≤ (Scan.after {} p).depth

/-- A bracketed text in which some characters do not stand outside of quotes and brackets. -/
structure Sealed (hidden : List Char) (cs : List Char) : Prop extends Bracketed cs where
  absent : ∀ c ∈ hidden, foundAtTop c {} cs = false

/-- A bracketed text without a bar outside of quotes and brackets. -/
structure Single (cs : List Char) : Prop extends Bracketed cs where
  noBar : barAtTop {} cs = false

theorem single_iff {cs : List Char} : Single cs ↔ Sealed ['|'] cs := by
  constructor
  · intro h
    refine { h.toBracketed with absent := fun c hc => ?_ }
    rw [List.mem_singleton.mp hc, ← barAtTop_eq]
    exact h.noBar
  · intro h
    refine { h.toBracketed with noBar := ?_ }
    rw [barAtTop_eq]
    exact h.absent '|' (List.mem_singleton_self _)

/-- A bracketed text is sealed if nothing needs to be hidden. -/
@[simp] theorem sealed_nil_iff {cs : List Char} : Sealed [] cs ↔ Bracketed cs :=
  ⟨fun h => h.toBracketed, fun h => { h with absent := fun _ hc => by cases hc }⟩

theorem bracketed_iff {cs : List Char} : Bracketed cs ↔
    Scan.after {} cs = {} ∧ ∀ p ∈ cs.inits, 0 ≤ (Scan.after {} p).depth := by
  simp only [List.mem_inits]
  exact ⟨fun h => ⟨h.ends, h.above⟩, fun h => ⟨h.1, h.2⟩⟩

instance (cs : List Char) : Decidable (Bracketed cs) := decidable_of_iff' _ bracketed_iff

instance (hidden cs : List Char) : Decidable (Sealed hidden cs) :=
  decidable_of_iff (Bracketed cs ∧ hidden.all (fun c => !foundAtTop c {} cs) = true) <| by
    simp only [List.all_eq_true, Bool.not_eq_true']
    exact ⟨fun h => { h.1 with absent := h.2 }, fun h => ⟨h.toBracketed, h.absent⟩⟩

instance (cs : List Char) : Decidable (Single cs) :=
  decidable_of_iff (Bracketed cs ∧ barAtTop {} cs = false)
    ⟨fun h => { h.1 with noBar := h.2 }, fun h => ⟨h.toBracketed, h.noBar⟩⟩

theorem Bracketed.append {as bs : List Char} (ha : Bracketed as) (hb : Bracketed bs) :
    Bracketed (as ++ bs) where
  ends := by simp [ha.ends, hb.ends]
  above := forall_prefix_append.mpr
    ⟨ha.above, fun p hp => by simpa [ha.ends] using hb.above p hp⟩

theorem Sealed.append {hidden as bs : List Char} (ha : Sealed hidden as) (hb : Sealed hidden bs) :
    Sealed hidden (as ++ bs) where
  toBracketed := ha.toBracketed.append hb.toBracketed
  absent := fun c hc => by simp [ha.absent c hc, ha.ends, hb.absent c hc]

theorem Single.append {as bs : List Char} (ha : Single as) (hb : Single bs) :
    Single (as ++ bs) :=
  single_iff.mpr ((single_iff.mp ha).append (single_iff.mp hb))

/-- The characters that count in a scan. -/
def scanned : List Char := ['\'', '{', '(', '<', '[', '}', ')', '>', ']', '|']

theorem sealed_singleton {hidden : List Char} {c : Char} (h : c ∉ scanned) (hc : c ∉ hidden) :
    Sealed hidden [c] := by
  simp only [scanned, List.mem_cons, List.not_mem_nil, or_false, not_or] at h
  obtain ⟨hquote, h1, h2, h3, h4, h5, h6, h7, h8, -⟩ := h
  have hopens : Scan.opens c = false := by simp [Scan.opens, h1, h2, h3, h4]
  have hcloses : Scan.closes c = false := by simp [Scan.closes, h5, h6, h7, h8]
  have hstep : Scan.after {} [c] = {} :=
    Scan.step_of_not_quoted (s := {}) rfl hquote hopens hcloses
  have hbracketed : Bracketed [c] := {
    ends := hstep
    above := forall_prefix_singleton.mpr ⟨Int.le_refl 0, Int.le_of_eq (by rw [hstep])⟩ }
  refine { hbracketed with absent := fun d hd => ?_ }
  have hne : c ≠ d := fun heq => hc (heq ▸ hd)
  simp [foundAtTop, hne]

/-- A text of which no character counts in a scan or is hidden. -/
theorem sealed_of_forall {hidden : List Char} : ∀ {cs : List Char},
    (∀ c ∈ cs, c ∉ scanned ∧ c ∉ hidden) → Sealed hidden cs
  | [], _ => { (show Bracketed [] by decide) with absent := fun _ _ => rfl }
  | c :: cs, h => by
    rw [List.forall_mem_cons] at h
    exact (sealed_singleton h.1.1 h.1.2).append (sealed_of_forall h.2)

/-- Between brackets all characters are hidden but the brackets. -/
theorem sealed_nested {hidden : List Char} {opening closing : Char} {cs : List Char}
    (ho : Scan.opens opening = true) (hc : Scan.closes closing = true)
    (hhidden : opening ∉ hidden ∧ closing ∉ hidden) (h : Bracketed cs) :
    Sealed hidden ([opening] ++ (cs ++ [closing])) := by
  have hin : Scan.after {} [opening] = Scan.deeper {} 1 := by
    have hquote : opening ≠ '\'' := by rintro rfl; simp [Scan.opens] at ho
    simp [Scan.after, Scan.step, Scan.deeper, hquote, ho]
  have hout : Scan.after (Scan.deeper {} 1) [closing] = {} := by
    have hquote : closing ≠ '\'' := by rintro rfl; simp [Scan.closes] at hc
    have hopens : Scan.opens closing = false := by
      simp only [Scan.closes, Bool.or_eq_true, beq_iff_eq] at hc
      rcases hc with ((rfl | rfl) | rfl) | rfl <;> decide
    simp [Scan.after, Scan.step, Scan.deeper, hquote, hc, hopens]
  have hinside : ∀ p, p <+: cs → 1 ≤ (Scan.after (Scan.deeper {} 1) p).depth := fun p hp => by
    have := h.above p hp
    rw [Scan.after_deeper]
    exact Int.add_le_add_right this 1
  have hback : Scan.after (Scan.deeper {} 1) cs = Scan.deeper {} 1 := by
    rw [Scan.after_deeper, h.ends]
  constructor
  · constructor
    · rw [Scan.after_append, hin, Scan.after_append, hback, hout]
    · simp only [forall_prefix_append, forall_prefix_singleton, Scan.after_append, hin, hback,
        hout]
      exact ⟨by decide, fun p hp => Int.le_of_lt (hinside p hp), by decide⟩
  · intro c hmem
    have hopening : opening ≠ c := fun heq => hhidden.1 (heq ▸ hmem)
    have hclosing : closing ≠ c := fun heq => hhidden.2 (heq ▸ hmem)
    have hnone : foundAtTop c (Scan.deeper {} 1) cs = false := by
      refine foundAtTop_eq_false fun p hp => ?_
      have := hinside p hp
      simp only [Scan.atTop, Bool.and_eq_false_iff, beq_eq_false_iff_ne]
      exact .inr (by omega)
    rw [foundAtTop_append, hin, foundAtTop_append, hback, hnone]
    simp [foundAtTop, hopening, hclosing]

/-- Between brackets a bracketed text is single. -/
theorem single_nested {opening closing : Char} {cs : List Char} (ho : Scan.opens opening = true)
    (hc : Scan.closes closing = true) (h : Bracketed cs) :
    Single ([opening] ++ (cs ++ [closing])) := by
  have hopenBar : opening ≠ '|' := by rintro rfl; simp [Scan.opens] at ho
  have hcloseBar : closing ≠ '|' := by rintro rfl; simp [Scan.closes] at hc
  exact single_iff.mpr (sealed_nested ho hc (by simp [hopenBar, hcloseBar]) h)

/-! ### Literals and names -/

/-- What an escaped character does inside of quotes. -/
theorem after_escapeChar (c : Char) :
    Scan.after ⟨0, true, false⟩ (escapeChar c) = ⟨0, true, false⟩ ∧
    ∀ p, p <+: escapeChar c → (Scan.after ⟨0, true, false⟩ p).depth = 0 ∧
      (Scan.after ⟨0, true, false⟩ p).quoted = true := by
  simp only [← List.mem_inits]
  unfold escapeChar
  split
  · decide
  · decide
  · decide
  · decide
  · next hback hquote _ _ =>
    have hstep : Scan.step ⟨0, true, false⟩ c = ⟨0, true, false⟩ := by
      have hback : c ≠ '\\' := hback
      have hquote : c ≠ '\'' := hquote
      simp [Scan.step, hback, hquote]
    simp [Scan.after, hstep]

/-- A scan does not leave the quotes before they are closed. -/
theorem after_flatMap_escapeChar : ∀ cs : List Char,
    Scan.after ⟨0, true, false⟩ (cs.flatMap escapeChar) = ⟨0, true, false⟩ ∧
    ∀ p, p <+: cs.flatMap escapeChar → (Scan.after ⟨0, true, false⟩ p).depth = 0 ∧
      (Scan.after ⟨0, true, false⟩ p).quoted = true
  | [] => by
    refine ⟨rfl, fun p hp => ?_⟩
    rw [List.prefix_nil.mp hp]
    decide
  | c :: cs => by
    obtain ⟨hone, hwithin⟩ := after_escapeChar c
    rw [List.flatMap_cons, Scan.after_append, hone, forall_prefix_append]
    simp only [Scan.after_append, hone]
    exact ⟨(after_flatMap_escapeChar cs).1, hwithin, (after_flatMap_escapeChar cs).2⟩

/-- In a literal all characters are hidden but the quotes. -/
theorem sealed_stringLiteral {hidden : List Char} (hquote : '\'' ∉ hidden) (s : String) :
    Sealed hidden (stringLiteral s).toList := by
  obtain ⟨hbody, hwithin⟩ := after_flatMap_escapeChar s.toList
  have hshape : (stringLiteral s).toList = ['\''] ++ (s.toList.flatMap escapeChar ++ ['\'']) :=
    toList_stringLiteral s
  have hin : Scan.after {} ['\''] = ⟨0, true, false⟩ := rfl
  rw [hshape]
  constructor
  · constructor
    · rw [Scan.after_append, hin, Scan.after_append, hbody]
      rfl
    · simp only [forall_prefix_append, forall_prefix_singleton, Scan.after_append, hin, hbody]
      exact ⟨by decide, fun p hp => Int.le_of_eq (hwithin p hp).1.symm, by decide⟩
  · intro c hmem
    have hc : '\'' ≠ c := fun heq => hquote (heq ▸ hmem)
    have hnone : foundAtTop c ⟨0, true, false⟩ (s.toList.flatMap escapeChar) = false := by
      refine foundAtTop_eq_false fun p hp => ?_
      rw [Scan.atTop, (hwithin p hp).2]
      rfl
    rw [foundAtTop_append, hin, foundAtTop_append, hbody, hnone]
    simp [foundAtTop, hc]

theorem sealed_of_isIdentifier {hidden : List Char} {name : String}
    (hhidden : ∀ c ∈ hidden, continuesIdentifier c = false) (h : isIdentifier name = true) :
    Sealed hidden name.toList := by
  refine sealed_of_forall fun c hc => ⟨fun hscanned => ?_, fun hmem => ?_⟩
  · have hnone : scanned.all (!continuesIdentifier ·) = true := by decide
    have hc := continues_of_mem_identifier h c hc
    simpa [hc] using List.all_eq_true.mp hnone c hscanned
  · have hc := continues_of_mem_identifier h c hc
    rw [hhidden c hmem] at hc
    cases hc

theorem sealed_propertyKey {hidden : List Char} (hquote : '\'' ∉ hidden)
    (hhidden : ∀ c ∈ hidden, continuesIdentifier c = false) (name : String) :
    Sealed hidden (propertyKey name).toList := by
  unfold propertyKey
  split
  · next h => exact sealed_of_isIdentifier hhidden h
  · exact sealed_stringLiteral hquote name

theorem single_propertyKey (name : String) : Single (propertyKey name).toList :=
  single_iff.mpr (sealed_propertyKey (by decide) (List.forall_mem_singleton.mpr (by decide)) name)

/-! ### Objects and arrays -/

theorem sealed_intercalate {hidden : List Char} {sep : String} (hsep : Sealed hidden sep.toList) :
    ∀ {ts : List String}, (∀ t ∈ ts, Sealed hidden t.toList) →
      Sealed hidden (sep.intercalate ts).toList
  | [], _ => by
    rw [String.intercalate_nil]
    exact sealed_of_forall fun c hc => by cases hc
  | [t], h => by simpa using h
  | t :: u :: ts, h => by
    obtain ⟨ht, hrest⟩ := List.forall_mem_cons.mp h
    rw [String.intercalate_cons_cons, String.toList_append, String.toList_append]
    exact (ht.append hsep).append (sealed_intercalate hsep hrest)

theorem bracketed_intercalate {sep : String} (hsep : Bracketed sep.toList) {ts : List String}
    (h : ∀ t ∈ ts, Bracketed t.toList) : Bracketed (sep.intercalate ts).toList :=
  (sealed_intercalate (sealed_nil_iff.mpr hsep) fun t ht => sealed_nil_iff.mpr (h t ht)).toBracketed

theorem bracketed_signature {m : Member} (h : Bracketed m.type.toList) :
    Bracketed m.signature.toList := by
  have hkey := (single_propertyKey m.name).toBracketed
  have hmark : Bracketed (if m.optional then "?" else "").toList := by
    split <;> decide
  simp only [Member.signature, String.toList_append]
  exact ((hkey.append hmark).append (by decide)).append h

/-- An object type hides all characters but its braces. -/
theorem sealed_inlineObject {hidden : List Char} (hhidden : '\x7b' ∉ hidden ∧ '\x7d' ∉ hidden)
    {members : List Member} (h : ∀ m ∈ members, Bracketed m.type.toList) :
    Sealed hidden (inlineObject members).toList := by
  unfold inlineObject
  split
  · have hnothing : Bracketed [] := by decide
    exact sealed_nested rfl rfl hhidden hnothing
  · have hinner : Bracketed ("; ".intercalate (members.map Member.signature)).toList := by
      refine bracketed_intercalate (by decide) fun t ht => ?_
      obtain ⟨m, hm, rfl⟩ := List.mem_map.mp ht
      exact bracketed_signature (h m hm)
    have hpadded := (show Bracketed [' '] by decide).append
      (hinner.append (show Bracketed [' '] by decide))
    have hshape : ("\x7b " ++ "; ".intercalate (members.map Member.signature) ++ " \x7d").toList =
        ['\x7b'] ++ (([' '] ++ (("; ".intercalate (members.map Member.signature)).toList ++ [' ']))
          ++ ['\x7d']) := by
      simp only [String.toList_append]
      simp
    rw [hshape]
    exact sealed_nested rfl rfl hhidden hpadded

/-- An array type hides what its item hides. -/
theorem sealed_arrayOf {hidden : List Char} (hhidden : ∀ c ∈ ['(', ')', '[', ']'], c ∉ hidden)
    {item : String} (h : Sealed hidden item.toList) : Sealed hidden (arrayOf item).toList := by
  have hnothing : Bracketed [] := by decide
  have hpair : Sealed hidden ['[', ']'] :=
    sealed_nested rfl rfl ⟨hhidden _ (by decide), hhidden _ (by decide)⟩ hnothing
  unfold arrayOf
  split
  · have hshape : ("(" ++ item ++ ")[]").toList =
        (['('] ++ (item.toList ++ [')'])) ++ ['[', ']'] := by
      simp only [String.toList_append]
      simp
    have hround : Sealed hidden (['('] ++ (item.toList ++ [')'])) :=
      sealed_nested rfl rfl ⟨hhidden _ (by decide), hhidden _ (by decide)⟩ h.toBracketed
    rw [hshape]
    exact hround.append hpair
  · rw [String.toList_append]
    exact h.append hpair

/-- An array type is single: the item stands in parentheses if it is not. -/
theorem single_arrayOf {item : String} (h : Bracketed item.toList) :
    Single (arrayOf item).toList := by
  unfold arrayOf
  split
  · have hshape : ("(" ++ item ++ ")[]").toList =
        (['('] ++ (item.toList ++ [')'])) ++ ['[', ']'] := by
      simp only [String.toList_append]
      simp
    rw [hshape]
    exact (single_nested rfl rfl h).append (by decide)
  · next hbar =>
    rw [String.toList_append]
    exact Single.append { h with noBar := by simpa using hbar } (by decide)

/-! ### Unions -/

/-- The members of a union are its types, each once, in the order of their first appearance. -/
theorem members_ofTypes (types : List String) :
    (Union.ofTypes types).members = types.eraseDups := by
  induction types using List.reverseRecOn with
  | nil => rfl
  | append_singleton types t ih =>
    have hlast : Union.ofTypes (types ++ [t]) = (Union.ofTypes types).add t := List.foldl_concat ..
    rw [hlast, eraseDups_concat, Union.add, ih]
    simp only [List.contains_iff_mem, List.mem_eraseDups]
    split
    · exact ih
    · rfl

@[simp] theorem mem_members_ofTypes {types : List String} {t : String} :
    t ∈ (Union.ofTypes types).members ↔ t ∈ types := by
  rw [members_ofTypes, List.mem_eraseDups]

/-- A union has several members exactly if two of its types are different. -/
theorem two_le_length_members_iff {types : List String} :
    2 ≤ (Union.ofTypes types).members.length ↔ ∃ a ∈ types, ∃ b ∈ types, a ≠ b := by
  have hnodup : (Union.ofTypes types).members.Nodup := members_ofTypes types ▸ nodup_eraseDups types
  have hmem : ∀ t, t ∈ types ↔ t ∈ (Union.ofTypes types).members :=
    fun _ => mem_members_ofTypes.symm
  simp only [hmem]
  generalize (Union.ofTypes types).members = ms at hnodup
  match ms, hnodup with
  | [], _ => simp
  | [a], _ => simp
  | a :: b :: ms, hnodup =>
    have hne : a ≠ b := fun heq => (List.nodup_cons.mp hnodup).1 (heq ▸ List.mem_cons_self)
    refine iff_of_true (by simp) ⟨a, by simp, b, by simp, hne⟩

/-- Behind the first of several members there is a bar at the top. -/
theorem barAtTop_intercalate_iff : ∀ {ms : List String}, (∀ m ∈ ms, Single m.toList) →
    (barAtTop {} (" | ".intercalate ms).toList = true ↔ 2 ≤ ms.length)
  | [], _ => by simp [barAtTop]
  | [m], h => by
    have hm : barAtTop {} m.toList = false := (h m List.mem_cons_self).noBar
    simp [hm]
  | m :: n :: ms, h => by
    have hm := h m List.mem_cons_self
    have hbar : barAtTop {} " | ".toList = true := by decide
    rw [String.intercalate_cons_cons, String.toList_append, String.toList_append, barAtTop_append,
      barAtTop_append, hm.ends, hbar, Bool.or_true, Bool.true_or]
    simp

variable {types : List String} {fallback : String}

theorem sealed_textOr_ofTypes {hidden : List Char} (hsep : Sealed hidden " | ".toList)
    (h : ∀ t ∈ types, Sealed hidden t.toList) (hfallback : Sealed hidden fallback.toList) :
    Sealed hidden ((Union.ofTypes types).textOr fallback).toList := by
  unfold Union.textOr
  split
  · exact hfallback
  · exact sealed_intercalate hsep fun t ht => h t (mem_members_ofTypes.mp ht)

/-- **When the text of a union needs parentheses**: if it has two different types. -/
theorem barAtTop_textOr_ofTypes_iff (h : ∀ t ∈ types, Single t.toList)
    (hfallback : Single fallback.toList) :
    barAtTop {} ((Union.ofTypes types).textOr fallback).toList = true ↔
      ∃ a ∈ types, ∃ b ∈ types, a ≠ b := by
  rw [← two_le_length_members_iff]
  unfold Union.textOr
  split
  · next hempty => simp [List.isEmpty_iff.mp hempty, hfallback.noBar]
  · exact barAtTop_intercalate_iff fun t ht => h t (mem_members_ofTypes.mp ht)

end Lexgen.Types
