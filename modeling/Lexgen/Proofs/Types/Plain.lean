/-
# Marked and plain declarations

The declarations of a lexicon are set against the plain ones, in which every nested object is
written in place. Marked, a declaration is as it is written, with the names of lifted objects told
apart; it unfolds to the plain declaration of the same draft (`unfolds_draft`), and to no other
(`existsUnique_unfolds`).

Key definitions: `MarkedDeclaration`, `Draft.mark`, `Draft.plain`, `markedModule`.
Key theorems: `unfolds_draft`, `existsUnique_unfolds`, `count_names_markedLifted`.
-/
import Lexgen.Proofs.Types.Drafts
import Lexgen.Proofs.Types.Unfolding

namespace Lexgen.Types

open Lexgen.Lexicon Lexgen.TypeScript

/-! ### Marked and plain declarations -/

/-- A declaration with marked types. -/
inductive MarkedDeclaration where
  | interface (i : MarkedInterface)
  | alias (name : String) (type : Written) (doc : Option String)
deriving Repr

namespace MarkedDeclaration

/-- The declaration as it is written. -/
def written : MarkedDeclaration → Declaration
  | .interface i => .interface i.written
  | .alias name type doc => .alias ⟨name, type.type, doc⟩

@[simp] theorem written_interface (i : MarkedInterface) :
    (MarkedDeclaration.interface i).written = .interface i.written := rfl

/-- The types of the members of an interface, or that of an alias. -/
def types : MarkedDeclaration → List Written
  | .interface i => i.members.map Prod.snd
  | .alias _ type _ => [type]

end MarkedDeclaration

/-- The member that tells records apart, marked. -/
def markDiscriminant (value : String) : Property × Written :=
  (⟨discriminantName, none, false⟩, .text (stringLiteral value))

namespace Draft

/-- The declaration of a draft, marked. -/
def mark (n : Naming) : Draft → MarkedDeclaration
  | .interface name doc discriminant properties =>
    .interface ⟨name, doc, discriminant.toList.map markDiscriminant ++
      inOrder (n.markMembers properties)⟩
  | .alias name doc shape => .alias name (n.mark shape) doc

/-- The declaration of a draft with every object written in place. -/
def plain : Draft → Declaration
  | .interface name doc discriminant properties =>
    .interface ⟨name, doc, discriminant.toList.map discriminantMember ++
      requiredFirst (Shape.inlineMembers properties)⟩
  | .alias name doc shape => .alias ⟨name, shape.inline, doc⟩

end Draft

/-! ### Declarations -/

/-- A declaration whose types unfold: its kind, its name, its comment, and name, comment and mark of
each member stay. -/
inductive MarkedDeclaration.Unfolds (suffix : Written → String → String)
    (lifted : List MarkedInterface) : MarkedDeclaration → Declaration → Prop where
  | interface {name : String} {doc : Option String} {members : List (Property × Written)}
    {ms : List Member} : UnfoldsMembers suffix lifted members ms →
    Unfolds suffix lifted (.interface ⟨name, doc, members⟩) (.interface ⟨name, doc, ms⟩)
  | alias {name t : String} {doc : Option String} {type : Written} :
    Types.Unfolds suffix lifted type t →
    Unfolds suffix lifted (.alias name type doc) (.alias ⟨name, t, doc⟩)

theorem Draft.written_mark (n : Naming) (d : Draft) : (d.mark n).written = d.write n :=
  match d with
  | .interface name doc discriminant properties => by
    simp only [mark, write, MarkedDeclaration.written, MarkedInterface.written,
      Written.memberTypes_eq_map, List.map_append, List.map_map]
    rw [← Written.memberTypes_eq_map, Written.memberTypes_inOrder, Naming.memberTypes_markMembers]
    rfl
  | .alias name doc shape => by
    simp only [mark, write, MarkedDeclaration.written, Naming.type_mark]

theorem Naming.written_markLifted (n : Naming) (o : Lifted) :
    (n.markLifted o).written = n.interface o := by
  simp only [markLifted, interface, MarkedInterface.written, Written.memberTypes_inOrder,
    memberTypes_markMembers]

/-- The members that tell records apart unfold to themselves. -/
theorem unfoldsMembers_discriminant (discriminant : Option String) :
    UnfoldsMembers suffix lifted (discriminant.toList.map markDiscriminant)
      (discriminant.toList.map discriminantMember) := by
  cases discriminant with
  | none => exact .nil
  | some value => exact .cons (.text _) .nil

/-- The lifted objects of some drafts, their interfaces marked. -/
def markedLifted (drafts : List Draft) : List MarkedInterface :=
  let n := Naming.ofDrafts drafts
  (Draft.liftAll n [] drafts).map n.markLifted

theorem names_markedLifted (drafts : List Draft) :
    (markedLifted drafts).map MarkedInterface.name =
      (Draft.liftAll (Naming.ofDrafts drafts) [] drafts).map Lifted.name := by
  rw [markedLifted, List.map_map]
  rfl

theorem names_markedLifted_nodup (drafts : List Draft) :
    ((markedLifted drafts).map MarkedInterface.name).Nodup := by
  rw [names_markedLifted]
  exact names_liftAll_nodup (Naming.sound_ofDrafts drafts) drafts

/-- A module, marked: the declarations of the drafts, then the lifted interfaces. -/
def markedModule (drafts : List Draft) : List MarkedDeclaration :=
  drafts.map (Draft.mark (Naming.ofDrafts drafts)) ++
    (markedLifted drafts).map MarkedDeclaration.interface

theorem written_markedModule (drafts : List Draft) :
    (markedModule drafts).map MarkedDeclaration.written = declare drafts := by
  simp only [markedModule, markedLifted, declare, List.map_append, List.map_map, Function.comp_def,
    Draft.written_mark, MarkedDeclaration.written_interface, Naming.written_markLifted]

section Drafts

variable {drafts : List Draft}

/-- A shape of the drafts that is written with lifted objects only. -/
structure Covered (drafts : List Draft) (s : Shape) : Prop where
  parts : ∀ t ∈ s.parts, t ∈ drafts.flatMap Draft.parts
  needs : ∀ k ∈ (Naming.ofDrafts drafts).needs s,
    k ∈ (Draft.liftAll (Naming.ofDrafts drafts) [] drafts).map Lifted.key

theorem covered_of_interface {name : String} {doc discriminant : Option String}
    {properties : List (Property × Shape)}
    (hd : Draft.interface name doc discriminant properties ∈ drafts)
    {e : Property × Shape} (he : e ∈ properties) : Covered drafts e.2 where
  parts := fun _ ht => List.mem_flatMap.mpr ⟨_, hd, Shape.mem_partsOf.mpr ⟨e, he, ht⟩⟩
  needs := fun _ hk => mem_keys_liftAll _ _
    (Or.inl (List.mem_flatMap.mpr ⟨_, hd, Naming.mem_needsOf.mpr ⟨e, he, hk⟩⟩))

theorem covered_of_alias {name : String} {doc : Option String} {shape : Shape}
    (hd : Draft.alias name doc shape ∈ drafts) : Covered drafts shape where
  parts := fun _ ht => List.mem_flatMap.mpr ⟨_, hd, ht⟩
  needs := fun _ hk => mem_keys_liftAll _ _ (Or.inl (List.mem_flatMap.mpr ⟨_, hd, hk⟩))

theorem parts_of_mem_liftAll {o : Lifted}
    (ho : o ∈ Draft.liftAll (Naming.ofDrafts drafts) [] drafts) :
    ∀ t ∈ Shape.partsOf o.properties, t ∈ drafts.flatMap Draft.parts := by
  intro t ht
  obtain ⟨d, hd, hpart⟩ := List.mem_flatMap.mp (mem_parts_of_mem_liftAll ho)
  refine List.mem_flatMap.mpr ⟨d, hd, d.mem_parts_trans ?_ hpart⟩
  rw [Shape.parts]
  exact List.mem_cons_of_mem _ ht

theorem covered_of_lifted {o : Lifted}
    (ho : o ∈ Draft.liftAll (Naming.ofDrafts drafts) [] drafts)
    {e : Property × Shape} (he : e ∈ o.properties) : Covered drafts e.2 where
  parts := fun _ ht => parts_of_mem_liftAll ho _ (Shape.mem_partsOf.mpr ⟨e, he, ht⟩)
  needs := fun _ hk => mem_keys_liftAll _ _
    (Or.inr ⟨o, ho, Naming.mem_needsOf.mpr ⟨e, he, hk⟩⟩)

theorem Covered.exists_unfolds (suffix : Written → String → String) {s : Shape}
    (hs : Covered drafts s) :
    ∃ t, Unfolds suffix (markedLifted drafts) ((Naming.ofDrafts drafts).mark s) t ∧
      (Suffixes suffix (Naming.ofDrafts drafts) (drafts.flatMap Draft.parts) → t = s.inline) :=
  exists_unfolds_mark (fun _ ho => lookup_key_of_mem_liftAll ho)
    (fun o ho _ hk => mem_keys_liftAll _ _ (Or.inr ⟨o, ho, hk⟩))
    (fun _ ho => parts_of_mem_liftAll ho) _ s (Nat.lt_succ_self _) hs.needs hs.parts

/-- The types of a marked module are texts that stand as they are and covered shapes. -/
theorem shape_of_mem_types {m : MarkedDeclaration} (hm : m ∈ markedModule drafts) {w : Written}
    (hw : w ∈ m.types) :
    (∃ v, w = .text v) ∨ ∃ s, Covered drafts s ∧ w = (Naming.ofDrafts drafts).mark s := by
  rcases List.mem_append.mp hm with hm | hm
  · obtain ⟨d, hd, rfl⟩ := List.mem_map.mp hm
    match d with
    | .interface name doc discriminant properties =>
      simp only [Draft.mark, MarkedDeclaration.types, List.map_append, List.mem_append] at hw
      rcases hw with hw | hw
      · obtain ⟨value, -, rfl⟩ := List.mem_map.mp (List.map_map ▸ hw)
        exact Or.inl ⟨_, rfl⟩
      · obtain ⟨e, he, rfl⟩ := List.mem_map.mp hw
        obtain ⟨p, hp, rfl⟩ := Naming.mem_inOrder_markMembers.mp he
        exact Or.inr ⟨p.2, covered_of_interface hd hp, rfl⟩
    | .alias name doc shape =>
      exact Or.inr ⟨shape, covered_of_alias hd, List.mem_singleton.mp hw⟩
  · obtain ⟨i, hi, rfl⟩ := List.mem_map.mp hm
    obtain ⟨o, ho, rfl⟩ := List.mem_map.mp hi
    obtain ⟨e, he, rfl⟩ := List.mem_map.mp hw
    obtain ⟨p, hp, rfl⟩ := Naming.mem_inOrder_markMembers.mp he
    exact Or.inr ⟨p.2, covered_of_lifted ho hp, rfl⟩

/-- Every type of a marked module unfolds, to one text. -/
theorem existsUnique_unfolds (suffix : Written → String → String) {m : MarkedDeclaration}
    (hm : m ∈ markedModule drafts) {w : Written} (hw : w ∈ m.types) :
    ∃! t, Unfolds suffix (markedLifted drafts) w t := by
  have hunique := names_markedLifted_nodup drafts
  rcases shape_of_mem_types hm hw with ⟨v, rfl⟩ | ⟨s, hs, rfl⟩
  · exact ⟨v, .text v, fun _ h => h.unique hunique (.text v)⟩
  · obtain ⟨t, ht, -⟩ := hs.exists_unfolds suffix
    exact ⟨t, ht, fun _ h => h.unique hunique ht⟩

/-- A name that stands for an object is that of exactly one lifted interface. -/
theorem count_names_markedLifted {m : MarkedDeclaration} (hm : m ∈ markedModule drafts)
    {w : Written} (hw : w ∈ m.types) {name : String} (hname : name ∈ w.names) :
    ((markedLifted drafts).map MarkedInterface.name).count name = 1 := by
  refine List.count_eq_one_of_mem (names_markedLifted_nodup drafts) ?_
  rcases shape_of_mem_types hm hw with ⟨v, rfl⟩ | ⟨s, hs, rfl⟩
  · simp [Written.names] at hname
  · obtain ⟨k, hk, hlookup⟩ := Naming.lookup_of_mem_names_mark hname
    obtain ⟨o, ho, rfl⟩ := List.mem_map.mp (hs.needs k hk)
    have hfound := (lookup_key_of_mem_liftAll ho).symm.trans hlookup
    rw [names_markedLifted]
    exact List.mem_map.mpr ⟨o, ho, Option.some.inj hfound⟩

/-- The declaration of a draft unfolds to the plain one. -/
theorem unfolds_draft (hsuf : Suffixes suffix (Naming.ofDrafts drafts) (drafts.flatMap Draft.parts))
    {d : Draft} (hd : d ∈ drafts) :
    (d.mark (Naming.ofDrafts drafts)).Unfolds suffix (markedLifted drafts) d.plain := by
  match d with
  | .interface name doc discriminant properties =>
    obtain ⟨ms, hms, heq⟩ := exists_unfoldsMembers fun e he =>
      (covered_of_interface hd he).exists_unfolds suffix
    rw [heq hsuf] at hms
    exact .interface ((unfoldsMembers_discriminant discriminant).append hms.inOrder)
  | .alias name doc shape =>
    obtain ⟨t, ht, heq⟩ := (covered_of_alias hd).exists_unfolds suffix
    rw [heq hsuf] at ht
    exact .alias ht

end Drafts

end Lexgen.Types
