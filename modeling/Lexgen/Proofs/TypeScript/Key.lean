/-
# Keys of members can be read back

A member is written on a line that starts with its key, a bare identifier or a literal. Behind the
key stands a mark or a colon, which is part of neither, so the key is read from the line as the name
of the member (`readKey?_propertyKey`, `startsWithKey_signature`). Hence different names have
different keys.

Key definitions: `readKey?`, `StartsWithKey`, `Interface.memberLines`, `Interface.keys`.
Key theorems: `readKey?_propertyKey`, `propertyKey_injective`, `startsWithKey_memberLines`,
`nodup_keys_iff`.
-/
import Mathlib.Data.List.Forall2
import Mathlib.Data.List.Nodup
import Lexgen.Proofs.TypeScript.Literal
import Lexgen.TypeScript.Declaration

namespace Lexgen.TypeScript

open Lexgen.Code Lexgen.Name

/-! ### Reading a key -/

/-- The name of the key that a text starts with, and what stands behind the key. A key is a string
literal or an identifier, which goes on as long as it can. -/
def readKey? : List Char → Option (String × List Char)
  | '\'' :: rest => (decodeBody? rest).map fun r => (String.ofList r.1, r.2)
  | cs =>
    let name := String.ofList (cs.takeWhile continuesIdentifier)
    if isIdentifier name then some (name, cs.dropWhile continuesIdentifier) else none

theorem continues_of_mem_identifier {name : String} (h : isIdentifier name = true) :
    ∀ c ∈ name.toList, continuesIdentifier c = true := by
  unfold isIdentifier at h
  split at h
  · cases h
  · next first rest hchars =>
    rw [Bool.and_eq_true, List.all_eq_true] at h
    rw [hchars, List.forall_mem_cons]
    refine ⟨?_, h.2⟩
    have hstarts := h.1
    simp only [startsIdentifier, continuesIdentifier, Char.isAlphanum, Bool.or_eq_true]
      at hstarts ⊢
    exact hstarts.imp_left (Or.imp_left Or.inl)

/-- **A key is read back as the name that it was made of**, if an identifier cannot go on behind
it. -/
theorem readKey?_propertyKey (name : String) {rest : List Char}
    (h : ∀ c ∈ rest.head?, continuesIdentifier c = false) :
    readKey? ((propertyKey name).toList ++ rest) = some (name, rest) := by
  unfold propertyKey
  split
  · next hname =>
    have hall := continues_of_mem_identifier hname
    have hend : rest.takeWhile continuesIdentifier = [] ∧
        rest.dropWhile continuesIdentifier = rest := by
      cases rest with
      | nil => exact ⟨rfl, rfl⟩
      | cons c rest =>
        have hc : continuesIdentifier c = false := h c rfl
        simp [hc]
    have htake : (name.toList ++ rest).takeWhile continuesIdentifier = name.toList := by
      rw [List.takeWhile_append_of_pos hall, hend.1, List.append_nil]
    have hdrop : (name.toList ++ rest).dropWhile continuesIdentifier = rest := by
      rw [List.dropWhile_append_of_pos hall, hend.2]
    have hquote : ∀ more, name.toList ++ rest ≠ '\'' :: more := by
      intro more hmore
      cases hchars : name.toList with
      | nil => simp [isIdentifier, hchars] at hname
      | cons c cs =>
        rw [hchars, List.cons_append, List.cons.injEq] at hmore
        have hfirst : continuesIdentifier c = true := hall c (hchars ▸ List.mem_cons_self ..)
        rw [hmore.1] at hfirst
        exact absurd hfirst (by decide)
    rw [readKey?, htake, hdrop, String.ofList_toList, if_pos hname]
    exact hquote
  · have hbody := decodeBody?_flatMap_escapeChar rest name.toList
    rw [toList_stringLiteral, List.cons_append, List.append_assoc, List.singleton_append, readKey?,
      hbody]
    simp

/-- Different names have different keys. -/
theorem propertyKey_injective : Function.Injective propertyKey := by
  intro name name' h
  have hread (name : String) : readKey? (propertyKey name).toList = some (name, []) := by
    have hkey : readKey? ((propertyKey name).toList ++ []) = some (name, []) :=
      readKey?_propertyKey name fun c hc => by cases hc
    rwa [List.append_nil] at hkey
  have hname := hread name
  rw [h, hread name', Option.some.injEq, Prod.mk.injEq] at hname
  exact hname.1.symm

/-! ### Lines of members -/

/-- What stands behind the key of a member. -/
def Member.behindKey (m : Member) : String := (if m.optional then "?" else "") ++ ": " ++ m.type

theorem Member.signature_eq (m : Member) : m.signature = propertyKey m.name ++ m.behindKey := by
  rw [signature, behindKey, String.append_assoc, String.append_assoc, String.append_assoc]

/-- Behind its key a member goes on with a mark or a colon. -/
theorem Member.head?_behindKey (m : Member) (rest : List Char) :
    ∀ c ∈ (m.behindKey.toList ++ rest).head?, continuesIdentifier c = false := by
  intro c hc
  cases hoptional : m.optional with
  | true =>
    simp [behindKey, hoptional] at hc
    rw [← hc]
    decide
  | false =>
    simp [behindKey, hoptional] at hc
    rw [← hc]
    decide

/-- The line starts with the key of the member, and what is read from it is this key, neither more
nor less, as the name of the member. -/
def StartsWithKey (m : Member) (line : String) : Prop :=
  ∃ rest, line = propertyKey m.name ++ rest ∧
    readKey? line.toList = some (m.name, rest.toList)

/-- **The line of a member starts with a key that is read as its name.** -/
theorem startsWithKey_signature (m : Member) (ending : String) :
    StartsWithKey m (m.signature ++ ending) := by
  refine ⟨m.behindKey ++ ending, by rw [m.signature_eq, String.append_assoc], ?_⟩
  rw [m.signature_eq, String.append_assoc, String.toList_append, String.toList_append]
  exact readKey?_propertyKey m.name (m.head?_behindKey ending.toList)

/-- A member is told apart by its text: its name, its mark and its type can be read from it. -/
theorem signature_injective {m m' : Member} (h : m.signature = m'.signature) :
    m.name = m'.name ∧ m.optional = m'.optional ∧ m.type = m'.type := by
  have hname : m.name = m'.name := by
    obtain ⟨_, -, hread⟩ := startsWithKey_signature m ""
    obtain ⟨_, -, hread'⟩ := startsWithKey_signature m' ""
    rw [h, hread', Option.some.injEq, Prod.mk.injEq] at hread
    exact hread.1.symm
  have hbehind : m.behindKey.toList = m'.behindKey.toList := by
    rw [m.signature_eq, m'.signature_eq, hname, ← String.toList_inj, String.toList_append,
      String.toList_append, List.append_right_inj] at h
    exact h
  cases hoptional : m.optional <;> cases hoptional' : m'.optional
  all_goals
    simp [Member.behindKey, hoptional, hoptional'] at hbehind
  · exact ⟨hname, rfl, String.toList_inj.1 hbehind⟩
  · exact ⟨hname, rfl, String.toList_inj.1 hbehind⟩

/-- The text of a fragment that is a plain line. -/
def lineOf? : Fragment → Option String
  | .line text => some text
  | _ => none

/-- The lines of the members in the body of an interface. -/
def Interface.memberLines (i : Interface) : List String :=
  (i.members.flatMap Member.fragments).filterMap lineOf?

theorem filterMap_lineOf?_fragments (m : Member) :
    m.fragments.filterMap lineOf? = [m.signature ++ ";"] := by
  rw [Member.fragments, docFragments]
  cases m.doc <;> rfl

/-- Each line of an interface starts with the key of its member. -/
theorem startsWithKey_memberLines (i : Interface) :
    List.Forall₂ StartsWithKey i.members i.memberLines := by
  have hlines : i.memberLines = i.members.map fun m => m.signature ++ ";" := by
    rw [Interface.memberLines, List.filterMap_flatMap]
    simp only [filterMap_lineOf?_fragments]
    exact List.map_eq_flatMap.symm
  rw [hlines, List.forall₂_map_right_iff, List.forall₂_same]
  exact fun m _ => startsWithKey_signature m ";"

/-- The keys of the members, as they are written. -/
def Interface.keys (i : Interface) : List String := i.members.map fun m => propertyKey m.name

/-- Keys are repeated exactly if names are. -/
theorem nodup_keys_iff (i : Interface) : i.keys.Nodup ↔ (i.members.map Member.name).Nodup := by
  have hkeys : i.keys = (i.members.map Member.name).map propertyKey := by
    rw [List.map_map]
    rfl
  rw [hkeys, List.nodup_map_iff propertyKey_injective]

end Lexgen.TypeScript
