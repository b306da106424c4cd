/-
# Named entries in order of first mention

A list of entries under names. Putting an entry under a name that is there already replaces the
value and keeps the place, so the names stay in the order of their first mention. `Ordered` is such
a list in which no name occurs twice.

Key definitions: `putEntry`, `Ordered`, `Ordered.put`, `Ordered.update`.
Key theorems: `names_putEntry_nodup`, `lookup_putEntry`, `Ordered.get?_eq_some_iff`,
`Ordered.get?_update`.
-/
namespace Lexgen.Data

variable {α : Type}

/-- Looking up in a list that starts with an entry. -/
theorem lookup_cons_ite {κ : Type} [DecidableEq κ] [BEq κ] [LawfulBEq κ] (k : κ) (v : α)
    (es : List (κ × α)) (x : κ) :
    ((k, v) :: es).lookup x = if x = k then some v else es.lookup x := by
  rw [List.lookup_cons]
  by_cases h : x = k
  · simp [h]
  · have hb : (x == k) = false := by simpa using h
    simp [h, hb]

/-- What is found under a name is an entry of the list. -/
theorem mem_of_lookup_eq_some {k : String} {v : α} {es : List (String × α)}
    (h : es.lookup k = some v) : (k, v) ∈ es := by
  obtain ⟨before, after, rfl, -⟩ := List.lookup_eq_some_iff.mp h
  simp

/-- An entry of a list in which no name occurs twice is found under its name. -/
theorem lookup_eq_some_of_mem {k : String} {v : α} :
    ∀ {es : List (String × α)}, (es.map Prod.fst).Nodup → (k, v) ∈ es → es.lookup k = some v
  | (x, w) :: es, hn, h => by
    simp only [List.map_cons, List.nodup_cons] at hn
    rw [lookup_cons_ite]
    rcases List.mem_cons.1 h with heq | hm
    · cases heq
      simp
    · have hne : k ≠ x := fun he => hn.1 (he ▸ List.mem_map.2 ⟨(k, v), hm, rfl⟩)
      rw [if_neg hne]
      exact lookup_eq_some_of_mem hn.2 hm

/-- Put a value under a name, at the place of its first mention. -/
def putEntry (name : String) (value : α) : List (String × α) → List (String × α)
  | [] => [(name, value)]
  | (k, v) :: rest => if k = name then (name, value) :: rest else (k, v) :: putEntry name value rest

/-- A new name is put at the end. -/
theorem putEntry_of_lookup_eq_none {name : String} {value : α} :
    ∀ {es : List (String × α)}, es.lookup name = none →
      putEntry name value es = es ++ [(name, value)]
  | [], _ => rfl
  | (k, v) :: es, h => by
    rw [lookup_cons_ite] at h
    split at h
    · exact absurd h (Option.some_ne_none v)
    · next hne =>
      rw [putEntry, if_neg (Ne.symm hne), putEntry_of_lookup_eq_none h, List.cons_append]

/-- Putting adds at most the one name. -/
@[simp] theorem mem_names_putEntry (name : String) (value : α) (x : String) :
    ∀ es : List (String × α),
      x ∈ (putEntry name value es).map Prod.fst ↔ x = name ∨ x ∈ es.map Prod.fst
  | [] => by simp [putEntry]
  | (k, v) :: rest => by
    unfold putEntry
    split
    · next h => subst h; simp
    · have ih := mem_names_putEntry name value x rest
      simp only [List.map_cons, List.mem_cons, ih]
      grind

/-- Putting repeats no name. -/
theorem names_putEntry_nodup (name : String) (value : α) :
    ∀ es : List (String × α), (es.map Prod.fst).Nodup →
      ((putEntry name value es).map Prod.fst).Nodup
  | [], _ => by simp [putEntry]
  | (k, v) :: rest, h => by
    simp only [List.map_cons, List.nodup_cons] at h
    unfold putEntry
    split
    · next hk => subst hk; simpa using h
    · next hk =>
      simp only [List.map_cons, List.nodup_cons, mem_names_putEntry]
      exact ⟨by grind, names_putEntry_nodup name value rest h.2⟩

/-- After putting, the name has the new value and all others keep theirs. -/
@[simp] theorem lookup_putEntry (name : String) (value : α) (x : String) :
    ∀ es : List (String × α),
      (putEntry name value es).lookup x = if x = name then some value else es.lookup x
  | [] => by simp [putEntry, lookup_cons_ite]
  | (k, v) :: rest => by
    have ih := lookup_putEntry name value x rest
    unfold putEntry
    split
    · next hk => subst hk; rw [lookup_cons_ite, lookup_cons_ite]; split <;> rfl
    · next hk => rw [lookup_cons_ite, lookup_cons_ite, ih]; split <;> grind

/-! ### Lists without repeated names -/

/-- Entries in order of first mention, no name twice. -/
structure Ordered (α : Type) where
  entries : List (String × α)
  nodup : (entries.map Prod.fst).Nodup

namespace Ordered

/-- No entries. -/
def empty : Ordered α := ⟨[], List.nodup_nil⟩

instance : Inhabited (Ordered α) := ⟨empty⟩

/-- The names, in order. -/
def names (t : Ordered α) : List String := t.entries.map Prod.fst

/-- The value under a name. -/
def get? (t : Ordered α) (name : String) : Option α := t.entries.lookup name

/-- Looking up finds the entries, and nothing else. -/
theorem get?_eq_some_iff {t : Ordered α} {name : String} {value : α} :
    t.get? name = some value ↔ (name, value) ∈ t.entries :=
  ⟨mem_of_lookup_eq_some, lookup_eq_some_of_mem t.nodup⟩

/-- Put a value under a name, at the place of its first mention. -/
def put (t : Ordered α) (name : String) (value : α) : Ordered α :=
  ⟨putEntry name value t.entries, names_putEntry_nodup name value t.entries t.nodup⟩

/-- Change the value under a name, starting from `fresh` where there is none. -/
def update (t : Ordered α) (name : String) (fresh : α) (f : α → α) : Ordered α :=
  t.put name (f ((t.get? name).getD fresh))

/-- Updating changes the value under one name only. -/
@[simp] theorem get?_update (t : Ordered α) (name : String) (fresh : α) (f : α → α) (x : String) :
    (t.update name fresh f).get? x =
      if x = name then some (f ((t.get? name).getD fresh)) else t.get? x :=
  lookup_putEntry name _ x t.entries

/-- Put entries one after the other. -/
def ofList (es : List (String × α)) : Ordered α :=
  es.foldl (fun t e => t.put e.1 e.2) empty

end Ordered

end Lexgen.Data
