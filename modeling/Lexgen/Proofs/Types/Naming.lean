/-
# Fresh names, and the names of repeated objects

The search for a free name always ends at one: among the numbered candidates that `freshName` looks
at there is one more than there are names taken, so one of them is free, and it is the first
(`firstFree_freshName`); trying one name after the other without a bound ends at the same name
(`FirstFree.search`). Names are given to the objects that occur at least twice, to each exactly one
(`lookup_ofDrafts_isSome_iff`), and each is the first that is free of the names taken and of those
given before (`namedInTurn_ofDrafts`); so no two objects share a name, and no object has the name of
a definition (`Naming.Sound`).

Key definitions: `FirstFree`, `Search`, `NamedInTurn`, `Naming.Sound`.
Key theorems: `firstFree_freshName`, `Search.unique`, `FirstFree.search`,
`mem_keys_repeatedObjects`, `namedInTurn_ofDrafts`, `Naming.sound_ofDrafts`,
`Naming.lookup_ofDrafts_isSome_iff`.
-/
import Lexgen.Types.Lifting
import Mathlib.Data.List.Nodup

namespace Lexgen.Types

open Lexgen.Data

/-! ### The search for a free name -/

/-- `name` is what a search for a name that is not taken has to find: the candidate, or the
candidate with the least number from 2 up that makes it free. -/
def FirstFree (taken : List String) (candidate name : String) : Prop :=
  (candidate ∉ taken ∧ name = candidate) ∨
  (candidate ∈ taken ∧ name ∉ taken ∧ ∃ k, 2 ≤ k ∧ name = candidate ++ toString k ∧
    ∀ j, 2 ≤ j → j < k → candidate ++ toString j ∈ taken)

theorem FirstFree.not_mem {taken : List String} {candidate name : String}
    (h : FirstFree taken candidate name) : name ∉ taken := by
  rcases h with ⟨h, rfl⟩ | ⟨-, h, -⟩
  · exact h
  · exact h

/-- Different numbers give different names. -/
theorem numbered_injective (candidate : String) {i j : Nat}
    (h : candidate ++ toString i = candidate ++ toString j) : i = j := by
  have hl := congrArg String.toList h
  simp only [String.toList_append] at hl
  have hd := congrArg (fun ds => Nat.ofDigitChars 10 ds 0) (List.append_cancel_left hl)
  simpa [Nat.toString_eq_repr, Nat.toList_repr] using hd

/-- Not all of the numbered candidates can be taken: there is one more of them than of names. -/
theorem exists_numbered_free (taken : List String) (candidate : String) :
    ∃ n < taken.length + 1, candidate ++ toString (n + 2) ∉ taken := by
  by_contra hall
  have hsub : ((List.range (taken.length + 1)).map fun n => candidate ++ toString (n + 2)) ⊆
      taken := by
    intro x hx
    obtain ⟨n, hn, rfl⟩ := List.mem_map.mp hx
    by_contra hfree
    exact hall ⟨n, List.mem_range.mp hn, hfree⟩
  have hnodup :
      ((List.range (taken.length + 1)).map fun n => candidate ++ toString (n + 2)).Nodup := by
    refine List.pairwise_map.mpr (List.nodup_range.imp fun hne heq => hne ?_)
    have := numbered_injective candidate heq
    omega
  have := hnodup.length_le_of_subset hsub
  simp only [List.length_map, List.length_range] at this
  omega

/-- **The search ends at the first free name**, whatever names are taken. -/
theorem firstFree_freshName (taken : List String) (candidate : String) :
    FirstFree taken candidate (freshName taken candidate) := by
  unfold freshName
  by_cases hc : candidate ∈ taken
  · obtain ⟨m, hm, hfree⟩ := exists_numbered_free taken candidate
    cases hf : (List.range (taken.length + 1)).find?
        ((!taken.contains ·) ∘ fun n => candidate ++ toString (n + 2)) with
    | none =>
      have := List.find?_range_eq_none.mp hf m hm
      simp only [Function.comp_apply, Bool.not_not, List.contains_iff_mem] at this
      exact absurd this hfree
    | some n =>
      obtain ⟨hn, -, hbefore⟩ := List.find?_range_eq_some.mp hf
      have hn : candidate ++ toString (n + 2) ∉ taken := by simpa using hn
      have hname : ((((List.range (taken.length + 1)).map fun n =>
          candidate ++ toString (n + 2)).find? (!taken.contains ·)).getD candidate) =
            candidate ++ toString (n + 2) := by
        rw [List.find?_map, hf]
        rfl
      simp only [List.contains_iff_mem, hc, if_true, hname]
      refine Or.inr ⟨hc, hn, n + 2, by omega, rfl, fun j h2 hj => ?_⟩
      have := hbefore (j - 2) (by omega)
      simpa [show j - 2 + 2 = j by omega] using this
  · simp only [List.contains_iff_mem, hc, if_false]
    exact Or.inl ⟨hc, rfl⟩

/-! ### The search, step by step -/

/-- A run of the search that tries one name after the other: it stands at `name`, tries the
candidate with the number `k` next and ends at `found`. -/
inductive Search (taken : List String) (candidate : String) : String → Nat → String → Prop where
  | free {name : String} {k : Nat} : name ∉ taken → Search taken candidate name k name
  | retry {name found : String} {k : Nat} : name ∈ taken →
    Search taken candidate (candidate ++ toString k) (k + 1) found →
    Search taken candidate name k found

/-- A run ends at one name only. -/
theorem Search.unique {taken : List String} {candidate name a b : String} {k : Nat}
    (h : Search taken candidate name k a) (h' : Search taken candidate name k b) : a = b := by
  induction h with
  | free hfree =>
    cases h' with
    | free => rfl
    | retry ht => exact absurd ht hfree
  | retry ht _ ih =>
    cases h' with
    | free hfree => exact absurd ht hfree
    | retry _ h' => exact ih h'

/-- A run from a number on, if the names up to a free one are taken. -/
theorem search_numbered {taken : List String} {candidate : String} : ∀ (gap k : Nat),
    (∀ j, k ≤ j → j < k + gap → candidate ++ toString j ∈ taken) →
    candidate ++ toString (k + gap) ∉ taken →
    Search taken candidate (candidate ++ toString k) (k + 1) (candidate ++ toString (k + gap))
  | 0, k, _, hfree => .free hfree
  | gap + 1, k, htaken, hfree => by
    have hk : candidate ++ toString k ∈ taken := htaken k (Nat.le_refl k) (by omega)
    have hrest := search_numbered gap (k + 1) (fun j hj hlt => htaken j (by omega) (by omega))
      (by rwa [show k + 1 + gap = k + (gap + 1) by omega])
    rw [show k + 1 + gap = k + (gap + 1) by omega] at hrest
    exact .retry hk hrest

/-- The search finds the first free name. -/
theorem FirstFree.search {taken : List String} {candidate name : String}
    (h : FirstFree taken candidate name) : Search taken candidate candidate 2 name := by
  rcases h with ⟨hfree, rfl⟩ | ⟨htaken, hfree, k, hk, rfl, hbefore⟩
  · exact .free hfree
  · have hgap : 2 + (k - 2) = k := by omega
    have hrun := search_numbered (k - 2) 2 (fun j h2 hj => hbefore j h2 (by omega))
      (by rwa [hgap])
    rw [hgap] at hrun
    exact .retry htaken hrun

/-! ### The objects that occur at least twice -/

theorem mem_keys_firstOfRepeated (all : List Occurrence) (k : String) :
    ∀ (seen : List String) (os : List Occurrence),
      k ∈ (firstOfRepeated all seen os).map Occurrence.key ↔
        k ∉ seen ∧ k ∈ os.map Occurrence.key ∧ 2 ≤ all.countP (·.key == k)
  | _, [] => by simp [firstOfRepeated]
  | seen, o :: rest => by
    unfold firstOfRepeated
    split
    · next hs =>
      rw [mem_keys_firstOfRepeated all k seen rest, List.map_cons, List.mem_cons]
      have hs : o.key ∈ seen := by simpa using hs
      grind
    · next hs =>
      have hs : o.key ∉ seen := by simpa using hs
      split
      · next h2 =>
        rw [List.map_cons, List.mem_cons, mem_keys_firstOfRepeated all k (o.key :: seen) rest]
        grind
      · next h2 =>
        rw [mem_keys_firstOfRepeated all k (o.key :: seen) rest]
        grind

theorem keys_firstOfRepeated_nodup (all : List Occurrence) :
    ∀ (seen : List String) (os : List Occurrence),
      ((firstOfRepeated all seen os).map Occurrence.key).Nodup
  | _, [] => by simp [firstOfRepeated]
  | seen, o :: rest => by
    unfold firstOfRepeated
    split
    · exact keys_firstOfRepeated_nodup all seen rest
    · split
      · rw [List.map_cons, List.nodup_cons, mem_keys_firstOfRepeated]
        exact ⟨fun h => h.1 List.mem_cons_self, keys_firstOfRepeated_nodup all _ rest⟩
      · exact keys_firstOfRepeated_nodup all _ rest

/-- The repeated objects are those whose full text occurs at least twice. -/
@[simp] theorem mem_keys_repeatedObjects (all : List Occurrence) (k : String) :
    k ∈ (repeatedObjects all).map Occurrence.key ↔ 2 ≤ all.countP (·.key == k) := by
  unfold repeatedObjects
  rw [mem_keys_firstOfRepeated]
  refine ⟨fun h => h.2.2, fun h => ⟨List.not_mem_nil, ?_, h⟩⟩
  obtain ⟨o, ho, hk⟩ := List.countP_pos_iff.mp (show 0 < all.countP (·.key == k) by omega)
  exact List.mem_map.mpr ⟨o, ho, by simpa using hk⟩

/-! ### Names given one after the other -/

/-- Objects are named in turn: each gets the first name free of those taken and of those given
before. -/
inductive NamedInTurn : List String → List Occurrence → Naming → Prop where
  | nil (taken : List String) : NamedInTurn taken [] []
  | cons {taken : List String} {o : Occurrence} {os : List Occurrence} {name : String}
    {n : Naming} : FirstFree taken o.candidate name → NamedInTurn (name :: taken) os n →
    NamedInTurn taken (o :: os) ((o.key, name) :: n)

theorem namedInTurn_nameAll : ∀ (taken : List String) (os : List Occurrence),
    NamedInTurn taken os (nameAll taken os)
  | taken, [] => .nil taken
  | taken, o :: os =>
    .cons (firstFree_freshName taken o.candidate) (namedInTurn_nameAll _ os)

theorem NamedInTurn.keys {taken : List String} {os : List Occurrence} {n : Naming}
    (h : NamedInTurn taken os n) : n.map Prod.fst = os.map Occurrence.key := by
  induction h with
  | nil => rfl
  | cons _ _ ih => simp [ih]

theorem NamedInTurn.not_taken {taken : List String} {os : List Occurrence} {n : Naming}
    (h : NamedInTurn taken os n) : ∀ e ∈ n, e.2 ∉ taken := by
  induction h with
  | nil => simp
  | cons hf _ ih =>
    intro e he
    rcases List.mem_cons.mp he with rfl | he
    · exact hf.not_mem
    · exact fun ht => ih e he (List.mem_cons_of_mem _ ht)

theorem NamedInTurn.names_nodup {taken : List String} {os : List Occurrence} {n : Naming}
    (h : NamedInTurn taken os n) : (n.map Prod.snd).Nodup := by
  induction h with
  | nil => simp
  | cons _ hr ih =>
    rw [List.map_cons, List.nodup_cons]
    refine ⟨fun hm => ?_, ih⟩
    obtain ⟨e, he, hname⟩ := List.mem_map.mp hm
    exact hr.not_taken e he (hname ▸ List.mem_cons_self)

/-- The names of repeated objects are given in turn, in the order in which the objects first occur,
clear of the names of definitions. -/
theorem namedInTurn_ofDrafts (drafts : List Draft) :
    NamedInTurn (drafts.map Draft.name) (repeatedObjects (drafts.flatMap Draft.occurrences))
      (Naming.ofDrafts drafts) :=
  namedInTurn_nameAll _ _

/-! ### Lookups -/

namespace Naming

/-- No object has two names, and no name belongs to two objects. -/
structure Sound (n : Naming) : Prop where
  keys_nodup : (n.map Prod.fst).Nodup
  names_nodup : (n.map Prod.snd).Nodup

theorem sound_ofDrafts (drafts : List Draft) : Sound (ofDrafts drafts) where
  keys_nodup := by
    rw [(namedInTurn_ofDrafts drafts).keys]
    exact keys_firstOfRepeated_nodup _ _ _
  names_nodup := (namedInTurn_ofDrafts drafts).names_nodup

/-- Objects with the same name have the same full text. -/
theorem Sound.key_eq {n : Naming} (h : n.Sound) {k k' name : String}
    (hk : n.lookup k = some name) (hk' : n.lookup k' = some name) : k = k' := by
  have := List.inj_on_of_nodup_map h.names_nodup (mem_of_lookup_eq_some hk)
    (mem_of_lookup_eq_some hk') rfl
  exact congrArg Prod.fst this

/-- No object has the name of a definition. -/
theorem not_mem_of_lookup_ofDrafts {drafts : List Draft} {k name : String}
    (h : (ofDrafts drafts).lookup k = some name) : name ∉ drafts.map Draft.name :=
  (namedInTurn_ofDrafts drafts).not_taken _ (mem_of_lookup_eq_some h)

/-- **An object has a name exactly if its full text occurs at least twice.** -/
theorem lookup_ofDrafts_isSome_iff (drafts : List Draft) (k : String) :
    ((ofDrafts drafts).lookup k).isSome ↔
      2 ≤ (drafts.flatMap Draft.occurrences).countP (·.key == k) := by
  rw [← mem_keys_repeatedObjects, ← (namedInTurn_ofDrafts drafts).keys]
  constructor
  · intro h
    obtain ⟨name, hname⟩ := Option.isSome_iff_exists.mp h
    exact List.mem_map.mpr ⟨_, mem_of_lookup_eq_some hname, rfl⟩
  · intro h
    obtain ⟨e, he, rfl⟩ := List.mem_map.mp h
    rw [lookup_eq_some_of_mem (sound_ofDrafts drafts).keys_nodup he]
    rfl

end Naming

end Lexgen.Types
