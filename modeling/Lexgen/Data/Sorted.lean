/-
# Entries sorted by name

`Sorted` is a list of entries whose names strictly increase in the order of their code points,
which is also the order of their UTF-8 bytes. Inserting replaces the value of a name that is
there already. A set of names is such a list without values.

Key definitions: `insertEntry`, `Sorted`, `Sorted.insert`, `NameSet`.
Key theorems: `insertEntry_increasing`, `Sorted.eq_of_get?`, `Sorted.get?_insert`,
`Sorted.mem_names_insertAll`, `Sorted.get?_insertAll`, `Sorted.ofList_entries`.
-/
import Lexgen.Data.Entries

namespace Lexgen.Data

variable {α : Type}

/-- Insert an entry at its place, replacing one of the same name. -/
def insertEntry (name : String) (value : α) : List (String × α) → List (String × α)
  | [] => [(name, value)]
  | (k, v) :: rest =>
    if name < k then (name, value) :: (k, v) :: rest
    else if name = k then (name, value) :: rest
    else (k, v) :: insertEntry name value rest

/-- Inserting adds at most the one entry. -/
theorem mem_insertEntry {name : String} {value : α} {e : String × α} :
    ∀ {es : List (String × α)}, e ∈ insertEntry name value es → e = (name, value) ∨ e ∈ es
  | [], h => by simpa [insertEntry] using h
  | (k, v) :: rest, h => by
    unfold insertEntry at h
    split at h
    · simpa using h
    · split at h
      · simp only [List.mem_cons] at h ⊢; grind
      · simp only [List.mem_cons] at h ⊢
        rcases h with h | h
        · exact .inr (.inl h)
        · rcases mem_insertEntry h with h | h
          · exact .inl h
          · exact .inr (.inr h)

/-- Inserting adds just the one name. -/
@[simp] theorem mem_names_insertEntry {name : String} {value : α} {x : String} :
    ∀ {es : List (String × α)},
      x ∈ (insertEntry name value es).map Prod.fst ↔ x = name ∨ x ∈ es.map Prod.fst
  | [] => by simp [insertEntry]
  | (k, v) :: rest => by
    have ih := @mem_names_insertEntry name value x rest
    unfold insertEntry
    split
    · simp
    · split
      · next hk => subst hk; simp
      · simp only [List.map_cons, List.mem_cons, ih]; grind

/-- A name behind all others is inserted at the end. -/
theorem insertEntry_of_forall_lt {name : String} {value : α} :
    ∀ {es : List (String × α)}, (∀ e ∈ es, e.1 < name) →
      insertEntry name value es = es ++ [(name, value)]
  | [], _ => rfl
  | (k, v) :: rest, h => by
    have hk : k < name := h (k, v) (List.mem_cons_self ..)
    have hne : name ≠ k := fun he => String.lt_irrefl k (he ▸ hk)
    rw [insertEntry, if_neg fun hlt => String.lt_irrefl k (String.lt_trans hk hlt), if_neg hne,
      insertEntry_of_forall_lt fun e he => h e (List.mem_cons_of_mem _ he), List.cons_append]

/-- Inserting keeps the names increasing. -/
theorem insertEntry_increasing (name : String) (value : α) :
    ∀ es : List (String × α), es.Pairwise (·.1 < ·.1) →
      (insertEntry name value es).Pairwise (·.1 < ·.1)
  | [], _ => by simp [insertEntry]
  | (k, v) :: rest, h => by
    rw [List.pairwise_cons] at h
    unfold insertEntry
    split
    · next hk =>
      refine List.pairwise_cons.2 ⟨fun e he => ?_, List.pairwise_cons.2 h⟩
      rcases List.mem_cons.1 he with rfl | he
      · exact hk
      · exact String.lt_trans hk (h.1 e he)
    · split
      · next hk => subst hk; exact List.pairwise_cons.2 ⟨fun e he => h.1 e he, h.2⟩
      · next h1 h2 =>
        refine List.pairwise_cons.2 ⟨fun e he => ?_, insertEntry_increasing name value rest h.2⟩
        rcases mem_insertEntry he with rfl | he
        · show k < name
          grind
        · exact h.1 e he

/-- After inserting, the name has the new value and all others keep theirs. -/
@[simp] theorem lookup_insertEntry (name : String) (value : α) (x : String) :
    ∀ es : List (String × α),
      (insertEntry name value es).lookup x = if x = name then some value else es.lookup x
  | [] => by simp [insertEntry, lookup_cons_ite]
  | (k, v) :: rest => by
    have ih := lookup_insertEntry name value x rest
    unfold insertEntry
    split
    · rw [lookup_cons_ite]
    · split
      · next hk => subst hk; rw [lookup_cons_ite, lookup_cons_ite]; split <;> rfl
      · next hk => rw [lookup_cons_ite, lookup_cons_ite, ih]; split <;> grind

/-- Entries whose names strictly increase. -/
structure Sorted (α : Type) where
  entries : List (String × α)
  increasing : entries.Pairwise (·.1 < ·.1)

namespace Sorted

/-- No entries. -/
def empty : Sorted α := ⟨[], List.Pairwise.nil⟩

instance : Inhabited (Sorted α) := ⟨empty⟩

/-- Two lists of the same entries are equal. -/
@[ext] theorem ext {s t : Sorted α} (h : s.entries = t.entries) : s = t := by
  cases s; cases t; cases h; rfl

instance [DecidableEq α] : DecidableEq (Sorted α) := fun s t =>
  if h : s.entries = t.entries then isTrue (ext h) else isFalse fun e => h (e ▸ rfl)

/-- The names, increasing. -/
def names (t : Sorted α) : List String := t.entries.map Prod.fst

/-- No name occurs twice. -/
theorem nodup_names (t : Sorted α) : t.names.Nodup := by
  rw [names, List.Nodup, List.pairwise_map]
  refine t.increasing.imp ?_
  intro d e hlt heq
  rw [heq] at hlt
  exact String.lt_irrefl _ hlt

/-- The value under a name. -/
def get? (t : Sorted α) (name : String) : Option α := t.entries.lookup name

/-- Looking up finds the entries, and nothing else. -/
theorem get?_eq_some_iff {t : Sorted α} {name : String} {value : α} :
    t.get? name = some value ↔ (name, value) ∈ t.entries :=
  ⟨mem_of_lookup_eq_some, lookup_eq_some_of_mem t.nodup_names⟩

/-- Two lists that have the same values under all names are equal. -/
theorem eq_of_get? {s t : Sorted α} (h : ∀ name, s.get? name = t.get? name) : s = t := by
  have hnodup (u : Sorted α) : u.entries.Nodup := by
    refine u.increasing.imp ?_
    rintro d e hlt rfl
    exact String.lt_irrefl _ hlt
  have hperm : s.entries.Perm t.entries := by
    refine (List.perm_ext_iff_of_nodup (hnodup s) (hnodup t)).2 fun ⟨name, value⟩ => ?_
    rw [← get?_eq_some_iff, h, get?_eq_some_iff]
  refine ext (hperm.eq_of_pairwise ?_ s.increasing t.increasing)
  intro d e _ _ hlt hgt
  exact absurd (String.lt_trans hlt hgt) (String.lt_irrefl _)

/-- Insert a value, replacing the one under the same name. -/
def insert (t : Sorted α) (name : String) (value : α) : Sorted α :=
  ⟨insertEntry name value t.entries, insertEntry_increasing name value t.entries t.increasing⟩

/-- Inserting sets the value under one name only. -/
@[simp] theorem get?_insert (t : Sorted α) (name : String) (value : α) (x : String) :
    (t.insert name value).get? x = if x = name then some value else t.get? x :=
  lookup_insertEntry name value x t.entries

@[simp] theorem mem_names_insert {t : Sorted α} {name x : String} {value : α} :
    x ∈ (t.insert name value).names ↔ x = name ∨ x ∈ t.names :=
  mem_names_insertEntry

@[simp] theorem names_empty : (empty : Sorted α).names = [] := rfl

@[simp] theorem get?_empty (name : String) : (empty : Sorted α).get? name = none := rfl

/-- Insert entries one after the other: the last of a name stays. -/
def insertAll (t : Sorted α) (es : List (String × α)) : Sorted α :=
  es.foldl (fun t e => t.insert e.1 e.2) t

/-- The entries of a list, the last of a name winning. -/
def ofList (es : List (String × α)) : Sorted α := empty.insertAll es

@[simp] theorem mem_names_insertAll {x : String} : ∀ (es : List (String × α)) (t : Sorted α),
    x ∈ (t.insertAll es).names ↔ x ∈ t.names ∨ x ∈ es.map Prod.fst
  | [], t => by simp [insertAll]
  | e :: es, t => by
    have ih := @mem_names_insertAll x es (t.insert e.1 e.2)
    rw [mem_names_insert] at ih
    rw [insertAll, List.foldl_cons, List.map_cons, List.mem_cons]
    exact ih.trans (by rw [or_assoc, or_left_comm])

/-- Under a name there is what was inserted last. -/
theorem get?_insertAll (x : String) : ∀ (es : List (String × α)) (t : Sorted α),
    (t.insertAll es).get? x = ((es.filter (·.1 == x)).getLast?.map Prod.snd).or (t.get? x)
  | [], t => rfl
  | (k, v) :: es, t => by
    have ih := get?_insertAll x es (t.insert k v)
    rw [insertAll, List.foldl_cons]
    refine ih.trans ?_
    rw [get?_insert, List.filter_cons]
    by_cases h : x = k
    · subst h
      cases hlast : (es.filter (·.1 == x)).getLast? with
      | none => simp [List.getLast?_eq_none_iff.mp hlast]
      | some e => simp [List.getLast?_cons, hlast]
    · have hne : (k == x) = false := by simpa using Ne.symm h
      simp [h, hne]

/-- Entries that continue the increasing order are added at the end. -/
theorem entries_insertAll : ∀ (es : List (String × α)) (t : Sorted α),
    (t.entries ++ es).Pairwise (·.1 < ·.1) → (t.insertAll es).entries = t.entries ++ es
  | [], t, _ => by simp [insertAll]
  | e :: es, t, h => by
    have hlast : (t.insert e.1 e.2).entries = t.entries ++ [e] :=
      insertEntry_of_forall_lt fun d hd =>
        (List.pairwise_append.1 h).2.2 d hd e (List.mem_cons_self ..)
    have hrest := entries_insertAll es (t.insert e.1 e.2) (by rw [hlast]; simpa using h)
    rw [hlast] at hrest
    rw [insertAll, List.foldl_cons]
    exact hrest.trans (by simp)

/-- Sorted entries are what a list of them makes. -/
@[simp] theorem ofList_entries (t : Sorted α) : ofList t.entries = t :=
  ext (entries_insertAll t.entries empty t.increasing)

end Sorted

/-- A set of names, listed in increasing order. -/
abbrev NameSet := Sorted Unit

/-- The set of the names of a list. -/
def NameSet.ofNames (names : List String) : NameSet := .ofList (names.map (·, ()))

end Lexgen.Data
