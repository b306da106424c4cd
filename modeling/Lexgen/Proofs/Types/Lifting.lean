/-
# What lifting declares

Lifting walks through the drafts with the objects declared so far and skips the inside of an object
that is declared already. `Lifts` says what such a walk has done at its end: every object that its
types are written with by name is declared, those that were not declared before have been lifted,
each once and under its name, and all objects that their own properties need are declared as well.
One lemma for nothing, one for two walks in a row and one for an object with a name make up the
proof for shapes (`lifts_lift`), and hence for drafts (`lifts_liftAll`).

What is counted beforehand are the objects among the parts of the drafts (`countP_occurrences`).

Key definitions: `Naming.needs`, `Draft.needs`, `Lifts`, `Shape.parts`, `Shape.fullText?`.
Key theorems: `lifts_lift`, `lifts_liftAll`, `names_liftAll_nodup`, `mem_parts_of_mem_liftAll`,
`countP_occurrences`.
-/
import Lexgen.Proofs.Types.Naming

namespace Lexgen.Types

/-! ### What is written by name -/

namespace Naming

mutual

/-- The full texts of the objects that a shape is written with by name. -/
def needs (n : Naming) : Shape → List String
  | .text _ => []
  | .union _ => []
  | .array item => needs n item
  | .object doc properties =>
    match n.lookup (Shape.object doc properties).inline with
    | none => needsOf n properties
    | some _ => [(Shape.object doc properties).inline]

/-- The full texts of the objects that some properties are written with by name. -/
def needsOf (n : Naming) : List (Property × Shape) → List String
  | [] => []
  | (_, s) :: rest => needs n s ++ needsOf n rest

end

@[simp] theorem mem_needsOf {n : Naming} {k : String} : ∀ {ps : List (Property × Shape)},
    k ∈ n.needsOf ps ↔ ∃ e ∈ ps, k ∈ n.needs e.2
  | [] => by simp [needsOf]
  | (p, s) :: rest => by
    rw [needsOf, List.mem_append, mem_needsOf, List.exists_mem_cons_iff]

end Naming

/-- The full texts of the objects that a draft is written with by name. -/
def Draft.needs (n : Naming) : Draft → List String
  | .interface _ _ _ properties => n.needsOf properties
  | .alias _ _ shape => n.needs shape

/-! ### Walks -/

/-- What a walk has done at its end that started with the objects `declared`, over types that are
written with the objects `needed` by name. -/
structure Lifts (n : Naming) (declared needed : List String) (out : List Lifted × List String) :
    Prop where
  named : ∀ o ∈ out.1, n.lookup o.key = some o.name
  mem_declared : ∀ k, k ∈ out.2 ↔ k ∈ declared ∨ k ∈ out.1.map Lifted.key
  fresh : ∀ o ∈ out.1, o.key ∉ declared
  keys_nodup : (out.1.map Lifted.key).Nodup
  needed_declared : ∀ k ∈ needed, k ∈ out.2
  closed : ∀ o ∈ out.1, ∀ k ∈ n.needsOf o.properties, k ∈ out.2

namespace Lifts

variable {n : Naming} {declared needed : List String}

/-- A walk that needs nothing new lifts nothing. -/
theorem nothing (h : ∀ k ∈ needed, k ∈ declared) : Lifts n declared needed ([], declared) where
  named := by simp
  mem_declared := by simp
  fresh := by simp
  keys_nodup := by simp
  needed_declared := h
  closed := by simp

/-- One walk after the other. -/
theorem append {needed' : List String} {a b : List Lifted} {d e : List String}
    (h : Lifts n declared needed (a, d)) (h' : Lifts n d needed' (b, e)) :
    Lifts n declared (needed ++ needed') (a ++ b, e) where
  named := fun o ho => (List.mem_append.mp ho).elim (h.named o) (h'.named o)
  mem_declared := fun k => by
    rw [h'.mem_declared, h.mem_declared]
    simp [or_assoc]
  fresh := fun o ho hd => by
    rcases List.mem_append.mp ho with ho | ho
    · exact h.fresh o ho hd
    · exact h'.fresh o ho ((h.mem_declared _).mpr (Or.inl hd))
  keys_nodup := by
    rw [List.map_append, List.nodup_append]
    refine ⟨h.keys_nodup, h'.keys_nodup, fun k hk k' hk' heq => ?_⟩
    obtain ⟨o, ho, rfl⟩ := List.mem_map.mp hk'
    exact h'.fresh o ho ((h.mem_declared _).mpr (Or.inr (heq ▸ hk)))
  needed_declared := fun k hk => by
    rcases List.mem_append.mp hk with hk | hk
    · exact (h'.mem_declared k).mpr (Or.inl (h.needed_declared k hk))
    · exact h'.needed_declared k hk
  closed := fun o ho k hk => by
    rcases List.mem_append.mp ho with ho | ho
    · exact (h'.mem_declared k).mpr (Or.inl (h.closed o ho k hk))
    · exact h'.closed o ho k hk

/-- An object with a name is declared before its properties are walked through, and lifted behind
what they lift. -/
theorem object {o : Lifted} {inner : List Lifted} {d : List String}
    (hname : n.lookup o.key = some o.name) (hnew : o.key ∉ declared)
    (h : Lifts n (o.key :: declared) (n.needsOf o.properties) (inner, d)) :
    Lifts n declared [o.key] (inner ++ [o], d) where
  named := fun p hp => by
    rcases List.mem_append.mp hp with hp | hp
    · exact h.named p hp
    · rwa [List.mem_singleton.mp hp]
  mem_declared := fun k => by
    rw [h.mem_declared]
    simp only [List.mem_cons, List.map_append, List.map_cons, List.map_nil, List.mem_append]
    grind
  fresh := fun p hp => by
    rcases List.mem_append.mp hp with hp | hp
    · exact fun hd => h.fresh p hp (List.mem_cons_of_mem _ hd)
    · rwa [List.mem_singleton.mp hp]
  keys_nodup := by
    rw [List.map_append, List.nodup_append]
    refine ⟨h.keys_nodup, by simp, fun k hk k' hk' heq => ?_⟩
    obtain ⟨p, hp, rfl⟩ := List.mem_map.mp hk
    simp only [List.map_cons, List.map_nil, List.mem_singleton] at hk'
    exact h.fresh p hp (by rw [heq, hk']; exact List.mem_cons_self)
  needed_declared := fun k hk => by
    rw [List.mem_singleton.mp hk]
    exact (h.mem_declared _).mpr (Or.inl List.mem_cons_self)
  closed := fun p hp => by
    rcases List.mem_append.mp hp with hp | hp
    · exact h.closed p hp
    · rw [List.mem_singleton.mp hp]
      exact h.needed_declared

end Lifts

mutual

/-- **What lifting the objects of a shape does.** -/
theorem lifts_lift (n : Naming) : ∀ (declared : List String) (s : Shape),
    Lifts n declared (n.needs s) (n.lift declared s)
  | declared, .text _ => by
    simp only [Naming.lift, Naming.needs]
    exact .nothing (by simp)
  | declared, .union _ => by
    simp only [Naming.lift, Naming.needs]
    exact .nothing (by simp)
  | declared, .array item => by
    simp only [Naming.lift, Naming.needs]
    exact lifts_lift n declared item
  | declared, .object doc properties => by
    cases hname : n.lookup (Shape.object doc properties).inline with
    | none =>
      simp only [Naming.lift, Naming.needs, hname]
      exact lifts_liftMembers n declared properties
    | some name =>
      simp only [Naming.lift, Naming.needs, hname, List.contains_iff_mem]
      split
      · next hd => exact .nothing (by simpa using hd)
      · next hd =>
        exact .object (o := ⟨name, doc, properties⟩) hname hd (lifts_liftMembers n _ properties)

/-- What lifting the objects of some properties does. -/
theorem lifts_liftMembers (n : Naming) : ∀ (declared : List String) (ps : List (Property × Shape)),
    Lifts n declared (n.needsOf ps) (n.liftMembers declared ps)
  | declared, [] => by
    simp only [Naming.liftMembers, Naming.needsOf]
    exact .nothing (by simp)
  | declared, (_, s) :: rest => by
    simp only [Naming.liftMembers, Naming.needsOf]
    exact (lifts_lift n declared s).append (lifts_liftMembers n _ rest)

end

theorem Draft.lifts_lift (n : Naming) (declared : List String) (d : Draft) :
    Lifts n declared (d.needs n) (d.lift n declared) :=
  match d with
  | .interface _ _ _ properties => lifts_liftMembers n declared properties
  | .alias _ _ shape => Types.lifts_lift n declared shape

/-- What lifting the objects of several drafts does. -/
theorem lifts_liftAll (n : Naming) : ∀ (declared : List String) (drafts : List Draft),
    ∃ final, Lifts n declared (drafts.flatMap (Draft.needs n))
      (Draft.liftAll n declared drafts, final)
  | declared, [] => ⟨declared, .nothing (by simp)⟩
  | declared, d :: rest => by
    obtain ⟨final, h⟩ := lifts_liftAll n (d.lift n declared).2 rest
    refine ⟨final, ?_⟩
    simp only [Draft.liftAll, List.flatMap_cons]
    exact (Draft.lifts_lift n declared d).append h

/-! ### The objects lifted from a whole module -/

/-- What is lifted starting from nothing is exactly what is declared: all that the drafts and the
lifted objects themselves are written with by name. -/
theorem mem_keys_liftAll (n : Naming) (drafts : List Draft) {k : String}
    (h : k ∈ drafts.flatMap (Draft.needs n) ∨
      ∃ o ∈ Draft.liftAll n [] drafts, k ∈ n.needsOf o.properties) :
    k ∈ (Draft.liftAll n [] drafts).map Lifted.key := by
  obtain ⟨final, hl⟩ := lifts_liftAll n [] drafts
  have hk : k ∈ final := by
    rcases h with h | ⟨o, ho, h⟩
    · exact hl.needed_declared k h
    · exact hl.closed o ho k h
  rcases (hl.mem_declared k).mp hk with h | h
  · cases h
  · exact h

theorem lookup_key_of_mem_liftAll {n : Naming} {drafts : List Draft} {o : Lifted}
    (ho : o ∈ Draft.liftAll n [] drafts) : n.lookup o.key = some o.name := by
  obtain ⟨final, hl⟩ := lifts_liftAll n [] drafts
  exact hl.named o ho

/-- Lifted objects have different names. -/
theorem names_liftAll_nodup {n : Naming} (hn : n.Sound) (drafts : List Draft) :
    ((Draft.liftAll n [] drafts).map Lifted.name).Nodup := by
  obtain ⟨final, hl⟩ := lifts_liftAll n [] drafts
  have hkeys := List.pairwise_map.mp hl.keys_nodup
  refine List.pairwise_map.mpr (hkeys.imp_of_mem fun {o p} ho hp hne heq => hne ?_)
  exact hn.key_eq (hl.named o ho) (heq ▸ hl.named p hp)

/-! ### Shapes inside of shapes -/

namespace Shape

mutual

/-- The shapes in a shape, the shape itself first. -/
def parts : Shape → List Shape
  | .text type => [.text type]
  | .union types => [.union types]
  | .array item => .array item :: parts item
  | .object doc properties => .object doc properties :: partsOf properties

/-- The shapes in the types of some properties. -/
def partsOf : List (Property × Shape) → List Shape
  | [] => []
  | (_, s) :: rest => parts s ++ partsOf rest

end

theorem mem_parts_self (s : Shape) : s ∈ s.parts := by
  cases s <;> simp [parts]

@[simp] theorem mem_partsOf {t : Shape} : ∀ {ps : List (Property × Shape)},
    t ∈ partsOf ps ↔ ∃ e ∈ ps, t ∈ e.2.parts
  | [] => by simp [partsOf]
  | (p, s) :: rest => by
    rw [partsOf, List.mem_append, mem_partsOf, List.exists_mem_cons_iff]

mutual

/-- A part of a part is a part. -/
theorem mem_parts_trans {t u : Shape} (hu : u ∈ t.parts) : ∀ {s : Shape}, t ∈ s.parts → u ∈ s.parts
  | .text _, ht => by
    simp only [parts, List.mem_singleton] at ht
    exact ht ▸ hu
  | .union _, ht => by
    simp only [parts, List.mem_singleton] at ht
    exact ht ▸ hu
  | .array item, ht => by
    rw [parts, List.mem_cons] at ht
    rcases ht with rfl | ht
    · exact hu
    · exact List.mem_cons_of_mem _ (mem_parts_trans hu ht)
  | .object doc properties, ht => by
    rw [parts, List.mem_cons] at ht
    rcases ht with rfl | ht
    · exact hu
    · exact List.mem_cons_of_mem _ (mem_partsOf_trans hu ht)

theorem mem_partsOf_trans {t u : Shape} (hu : u ∈ t.parts) :
    ∀ {ps : List (Property × Shape)}, t ∈ partsOf ps → u ∈ partsOf ps
  | (p, s) :: rest, ht => by
    rw [partsOf, List.mem_append] at ht ⊢
    exact ht.imp (mem_parts_trans hu) (mem_partsOf_trans hu)

end

end Shape

/-- The shapes in a draft. -/
def Draft.parts : Draft → List Shape
  | .interface _ _ _ properties => Shape.partsOf properties
  | .alias _ _ shape => shape.parts

theorem Draft.mem_parts_trans (d : Draft) {t u : Shape} (hu : u ∈ t.parts) (ht : t ∈ d.parts) :
    u ∈ d.parts :=
  match d with
  | .interface _ _ _ _ => Shape.mem_partsOf_trans hu ht
  | .alias _ _ _ => Shape.mem_parts_trans hu ht

mutual

theorem mem_parts_of_mem_lift {n : Naming} {o : Lifted} : ∀ {declared : List String} {s : Shape},
    o ∈ (n.lift declared s).1 → Shape.object o.doc o.properties ∈ s.parts
  | declared, .text _, h => by simp [Naming.lift] at h
  | declared, .union _, h => by simp [Naming.lift] at h
  | declared, .array item, h => by
    simp only [Naming.lift] at h
    exact List.mem_cons_of_mem _ (mem_parts_of_mem_lift h)
  | declared, .object doc properties, h => by
    cases hname : n.lookup (Shape.object doc properties).inline with
    | none =>
      simp only [Naming.lift, hname] at h
      exact List.mem_cons_of_mem _ (mem_partsOf_of_mem_liftMembers h)
    | some name =>
      simp only [Naming.lift, hname] at h
      split at h
      · cases h
      · rcases List.mem_append.mp h with h | h
        · exact List.mem_cons_of_mem _ (mem_partsOf_of_mem_liftMembers h)
        · rw [List.mem_singleton.mp h]
          exact List.mem_cons_self

theorem mem_partsOf_of_mem_liftMembers {n : Naming} {o : Lifted} :
    ∀ {declared : List String} {ps : List (Property × Shape)},
      o ∈ (n.liftMembers declared ps).1 → Shape.object o.doc o.properties ∈ Shape.partsOf ps
  | declared, [], h => by simp [Naming.liftMembers] at h
  | declared, (p, s) :: rest, h => by
    simp only [Naming.liftMembers] at h
    rw [Shape.partsOf, List.mem_append]
    exact (List.mem_append.mp h).imp mem_parts_of_mem_lift mem_partsOf_of_mem_liftMembers

end

/-- A lifted object is an object of the drafts. -/
theorem mem_parts_of_mem_liftAll {n : Naming} {o : Lifted} :
    ∀ {declared : List String} {drafts : List Draft}, o ∈ Draft.liftAll n declared drafts →
      Shape.object o.doc o.properties ∈ drafts.flatMap Draft.parts
  | declared, d :: rest, h => by
    simp only [Draft.liftAll] at h
    rw [List.flatMap_cons, List.mem_append]
    refine (List.mem_append.mp h).imp (fun h => ?_) mem_parts_of_mem_liftAll
    match d with
    | .interface _ _ _ properties => exact mem_partsOf_of_mem_liftMembers h
    | .alias _ _ shape => exact mem_parts_of_mem_lift h

/-! ### Counting -/

/-- The text of an object with every object in it written in place. -/
def Shape.fullText? : Shape → Option String
  | .object doc properties => some (Shape.object doc properties).inline
  | _ => none

mutual

/-- What is counted are the objects in a shape, by their full texts. -/
@[simp] theorem keys_occurrences : ∀ (owner name : String) (s : Shape),
    (occurrences owner name s).map Occurrence.key = s.parts.filterMap Shape.fullText?
  | _, _, .text _ => by simp [occurrences, Shape.parts, Shape.fullText?]
  | _, _, .union _ => by simp [occurrences, Shape.parts, Shape.fullText?]
  | owner, name, .array item => by
    simp only [occurrences, Shape.parts, List.filterMap_cons, Shape.fullText?]
    exact keys_occurrences owner _ item
  | owner, name, .object doc properties => by
    simp only [occurrences, Shape.parts, List.filterMap_cons, Shape.fullText?, List.map_cons]
    rw [keys_propertyOccurrences]

@[simp] theorem keys_propertyOccurrences : ∀ (owner : String) (ps : List (Property × Shape)),
    (propertyOccurrences owner ps).map Occurrence.key = (Shape.partsOf ps).filterMap Shape.fullText?
  | _, [] => by simp [propertyOccurrences, Shape.partsOf]
  | owner, (p, s) :: rest => by
    simp [propertyOccurrences, Shape.partsOf, keys_occurrences owner p.name s,
      keys_propertyOccurrences owner rest]

end

@[simp] theorem Draft.keys_occurrences (d : Draft) :
    d.occurrences.map Occurrence.key = d.parts.filterMap Shape.fullText? :=
  match d with
  | .interface name _ _ properties => keys_propertyOccurrences name properties
  | .alias name _ shape => Types.keys_occurrences name "" shape

/-- How often a full text occurs is how many objects in the drafts have it. -/
theorem countP_occurrences (drafts : List Draft) (k : String) :
    (drafts.flatMap Draft.occurrences).countP (·.key == k) =
      (drafts.flatMap Draft.parts).countP (·.fullText? == some k) := by
  have hkeys : (drafts.flatMap Draft.occurrences).map Occurrence.key =
      (drafts.flatMap Draft.parts).filterMap Shape.fullText? := by
    simp only [List.map_flatMap, List.filterMap_flatMap, Draft.keys_occurrences]
  calc (drafts.flatMap Draft.occurrences).countP (·.key == k)
      = ((drafts.flatMap Draft.occurrences).map Occurrence.key).count k := by
        rw [List.count, List.countP_map]
        rfl
    _ = ((drafts.flatMap Draft.parts).filterMap Shape.fullText?).count k := by rw [hkeys]
    _ = (drafts.flatMap Draft.parts).countP (·.fullText? == some k) := by
        rw [List.count, List.countP_filterMap]
        refine List.countP_congr fun s _ => ?_
        cases s.fullText? <;> simp

end Lexgen.Types
