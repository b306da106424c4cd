/-
# Unfolding the names of lifted objects

A type as it is written is a text in which some objects stand by name. `Written` is that text with
its names told apart, and `Unfolds` replaces each name by the inline object of the members of the
lifted interface of that name, again and again. Unfolding is an inductive relation, so a type that
unfolds to a text does so after finitely many steps, and to no other text (`Unfolds.unique`).

A type unfolds to its text with every object written in place (`exists_unfolds_mark`). What carries
the induction is the length of that text: an object has a longer one than each of its members, and a
lifted object has the text of the object that its name stands for. An array has brackets around its
item if the item's text has a bar outside of quotes and brackets; where a name stands for an object,
that is decided on the name. So there are two ways to unfold: with brackets decided anew
(`brackets`), which always gives the plain text, and with brackets kept as they were written
(`bracketsKept`), which gives it wherever both decisions agree.

Key definitions: `Written`, `Naming.mark`, `Naming.markLifted`, `Unfolds`, `brackets`,
`bracketsKept`.
Key theorems: `Unfolds.unique`, `exists_unfolds_mark`.
-/
import Lexgen.Proofs.Types.Lifting

namespace Lexgen.Types

open Lexgen.Lexicon Lexgen.TypeScript

/-! ### Written types -/

/-- A type as it is written, the names of lifted objects told apart from all other text. The members
of objects stand in the order in which they are written. -/
inductive Written where
  | text (type : String)
  | array (item : Written)
  | object (members : List (Property × Written))
  | lifted (name : String)
deriving Repr

namespace Written

mutual

/-- The text of a written type. -/
def type : Written → String
  | .text type => type
  | .array item => arrayOf (type item)
  | .object members => inlineObject (memberTypes members)
  | .lifted name => name

/-- The members of an object that is written in place. -/
def memberTypes : List (Property × Written) → List Member
  | [] => []
  | (p, w) :: rest => p.member (type w) :: memberTypes rest

end

mutual

/-- The names that stand for lifted objects. -/
def names : Written → List String
  | .text _ => []
  | .array item => names item
  | .object members => namesOf members
  | .lifted name => [name]

/-- The names that stand for lifted objects in the types of members. -/
def namesOf : List (Property × Written) → List String
  | [] => []
  | (_, w) :: rest => names w ++ namesOf rest

end

end Written

/-- Properties with their types, in the order in which they are written. -/
def inOrder {α : Type} (ps : List (Property × α)) : List (Property × α) :=
  ps.filter (!·.1.optional) ++ ps.filter (·.1.optional)

theorem mem_inOrder {α : Type} {ps : List (Property × α)} {e : Property × α} :
    e ∈ inOrder ps ↔ e ∈ ps := by
  unfold inOrder
  cases h : e.1.optional <;> simp [h]

namespace Naming

mutual

/-- A shape as it is written. -/
def mark (n : Naming) : Shape → Written
  | .text type => .text type
  | .union types => .text (unionText types)
  | .array item => .array (mark n item)
  | .object doc properties =>
    match n.lookup (Shape.object doc properties).inline with
    | some name => .lifted name
    | none => .object (inOrder (markMembers n properties))

/-- Properties as they are written, in the order of the document. -/
def markMembers (n : Naming) : List (Property × Shape) → List (Property × Written)
  | [] => []
  | (p, s) :: rest => (p, mark n s) :: markMembers n rest

end

theorem markMembers_eq_map (n : Naming) : ∀ ps : List (Property × Shape),
    n.markMembers ps = ps.map fun e => (e.1, n.mark e.2)
  | [] => by simp [markMembers]
  | (p, s) :: rest => by simp [markMembers, markMembers_eq_map n rest]

theorem mem_inOrder_markMembers {n : Naming} {ps : List (Property × Shape)}
    {e : Property × Written} :
    e ∈ inOrder (n.markMembers ps) ↔ ∃ p ∈ ps, (p.1, n.mark p.2) = e := by
  rw [mem_inOrder, markMembers_eq_map, List.mem_map]

end Naming

/-- An interface with marked types. -/
structure MarkedInterface where
  name : String
  doc : Option String
  members : List (Property × Written)
deriving Repr

/-- The interface as it is written. -/
def MarkedInterface.written (i : MarkedInterface) : Interface :=
  ⟨i.name, i.doc, Written.memberTypes i.members⟩

/-- The interface of a lifted object, marked. -/
def Naming.markLifted (n : Naming) (o : Lifted) : MarkedInterface :=
  ⟨o.name, o.doc, inOrder (n.markMembers o.properties)⟩

/-! ### Unfolding -/

mutual

/-- With every name of a lifted interface replaced by the inline object of its members, again and
again, a written type becomes the text. `suffix` tells how an array type is made of an item, as it
was written, and the unfolded text of the item. -/
inductive Unfolds (suffix : Written → String → String) (lifted : List MarkedInterface) :
    Written → String → Prop where
  | text (type : String) : Unfolds suffix lifted (.text type) type
  | array {item : Written} {t : String} : Unfolds suffix lifted item t →
    Unfolds suffix lifted (.array item) (suffix item t)
  | object {members : List (Property × Written)} {ms : List Member} :
    UnfoldsMembers suffix lifted members ms →
    Unfolds suffix lifted (.object members) (inlineObject ms)
  | lifted {i : MarkedInterface} {ms : List Member} : i ∈ lifted →
    UnfoldsMembers suffix lifted i.members ms →
    Unfolds suffix lifted (.lifted i.name) (inlineObject ms)

/-- Members with unfolded types; name, comment and mark of each stay. -/
inductive UnfoldsMembers (suffix : Written → String → String) (lifted : List MarkedInterface) :
    List (Property × Written) → List Member → Prop where
  | nil : UnfoldsMembers suffix lifted [] []
  | cons {p : Property} {w : Written} {t : String} {members : List (Property × Written)}
    {ms : List Member} : Unfolds suffix lifted w t → UnfoldsMembers suffix lifted members ms →
    UnfoldsMembers suffix lifted ((p, w) :: members) (p.member t :: ms)

end

variable {suffix : Written → String → String} {lifted : List MarkedInterface}

mutual

/-- **A type unfolds to one text only**, if no two lifted interfaces share a name. -/
theorem Unfolds.unique (hn : (lifted.map MarkedInterface.name).Nodup) {w : Written} {t u : String} :
    Unfolds suffix lifted w t → Unfolds suffix lifted w u → t = u
  | .text _, h => by
    cases h
    rfl
  | .array h, h' => by
    cases h' with
    | array h' => rw [h.unique hn h']
  | .object h, h' => by
    cases h' with
    | object h' => rw [h.unique hn h']
  | .lifted hi h, h' => by
    generalize hw : Written.lifted _ = w at h'
    cases h' with
    | lifted hj h' =>
      have := List.inj_on_of_nodup_map hn hi hj (Written.lifted.inj hw)
      subst this
      rw [h.unique hn h']
    | _ => cases hw

theorem UnfoldsMembers.unique (hn : (lifted.map MarkedInterface.name).Nodup)
    {members : List (Property × Written)} {ms ns : List Member} :
    UnfoldsMembers suffix lifted members ms → UnfoldsMembers suffix lifted members ns → ms = ns
  | .nil, h => by
    cases h
    rfl
  | .cons hw h, h' => by
    cases h' with
    | cons hw' h' => rw [hw.unique hn hw', h.unique hn h']

end

theorem UnfoldsMembers.append {as bs : List (Property × Written)} {ms ns : List Member} :
    UnfoldsMembers suffix lifted as ms → UnfoldsMembers suffix lifted bs ns →
    UnfoldsMembers suffix lifted (as ++ bs) (ms ++ ns)
  | .nil, h' => h'
  | .cons hw h, h' => .cons hw (h.append h')

/-- Members that are chosen by what unfolding keeps unfold to the texts so chosen. -/
theorem UnfoldsMembers.filter {q : Property × Written → Bool} {r : Member → Bool}
    (hqr : ∀ p w t, q (p, w) = r (p.member t)) {members : List (Property × Written)}
    {ms : List Member} : UnfoldsMembers suffix lifted members ms →
    UnfoldsMembers suffix lifted (members.filter q) (ms.filter r)
  | .nil => .nil
  | .cons (p := p) (w := w) (t := t) hw h => by
    rw [List.filter_cons, List.filter_cons, hqr p w t]
    split
    · exact .cons hw (h.filter hqr)
    · exact h.filter hqr

theorem UnfoldsMembers.inOrder {members : List (Property × Written)} {ms : List Member}
    (h : UnfoldsMembers suffix lifted members ms) :
    UnfoldsMembers suffix lifted (inOrder members) (requiredFirst ms) :=
  (h.filter fun _ _ _ => rfl).append (h.filter fun _ _ _ => rfl)

/-! ### The text of what is written -/

theorem requiredFirst_map {α : Type} {f : Property × α → Member}
    (hf : ∀ e, (f e).optional = e.1.optional) (ps : List (Property × α)) :
    requiredFirst (ps.map f) = (inOrder ps).map f := by
  simp only [requiredFirst, inOrder, List.filter_map, List.map_append, Function.comp_def, hf]

theorem Written.memberTypes_eq_map : ∀ members : List (Property × Written),
    memberTypes members = members.map fun e => e.1.member e.2.type
  | [] => by simp [memberTypes]
  | (p, w) :: rest => by simp [memberTypes, memberTypes_eq_map rest]

theorem Written.memberTypes_inOrder (members : List (Property × Written)) :
    memberTypes (Types.inOrder members) = requiredFirst (memberTypes members) := by
  rw [memberTypes_eq_map, memberTypes_eq_map, requiredFirst_map fun _ => rfl]

namespace Naming

mutual

/-- Marking changes no text. -/
@[simp] theorem type_mark (n : Naming) : ∀ s : Shape, (n.mark s).type = n.write s
  | .text _ => by simp [mark, write, Written.type]
  | .union _ => by simp [mark, write, Written.type]
  | .array item => by simp [mark, write, Written.type, type_mark n item]
  | .object doc properties => by
    cases hname : n.lookup (Shape.object doc properties).inline with
    | none =>
      simp only [mark, write, hname, Written.type, Written.memberTypes_inOrder,
        memberTypes_markMembers n properties]
    | some name => simp only [mark, write, hname, Written.type]

@[simp] theorem memberTypes_markMembers (n : Naming) : ∀ ps : List (Property × Shape),
    Written.memberTypes (n.markMembers ps) = n.writeMembers ps
  | [] => by simp [markMembers, writeMembers, Written.memberTypes]
  | (p, s) :: rest => by
    simp [markMembers, writeMembers, Written.memberTypes, type_mark n s,
      memberTypes_markMembers n rest]

end

/-! ### The names in what is written -/

theorem mem_namesOf {name : String} : ∀ {members : List (Property × Written)},
    name ∈ Written.namesOf members ↔ ∃ e ∈ members, name ∈ e.2.names
  | [] => by simp [Written.namesOf]
  | (p, w) :: rest => by
    rw [Written.namesOf, List.mem_append, mem_namesOf, List.exists_mem_cons_iff]

mutual

/-- The names in a written shape are those of the objects that it needs. -/
theorem lookup_of_mem_names_mark {n : Naming} {name : String} : ∀ {s : Shape},
    name ∈ (n.mark s).names → ∃ k ∈ n.needs s, n.lookup k = some name
  | .text _, h => by simp [mark, Written.names] at h
  | .union _, h => by simp [mark, Written.names] at h
  | .array item, h => by
    rw [mark, Written.names] at h
    rw [needs]
    exact lookup_of_mem_names_mark h
  | .object doc properties, h => by
    cases hname : n.lookup (Shape.object doc properties).inline with
    | none =>
      simp only [mark, hname, Written.names, mem_namesOf, mem_inOrder] at h
      simp only [needs, hname]
      exact lookup_of_mem_namesOf_markMembers (mem_namesOf.mpr h)
    | some found =>
      simp only [mark, hname, Written.names, List.mem_singleton] at h
      simp only [needs, hname]
      exact ⟨_, List.mem_singleton_self _, by rw [hname, h]⟩

theorem lookup_of_mem_namesOf_markMembers {n : Naming} {name : String} :
    ∀ {ps : List (Property × Shape)}, name ∈ Written.namesOf (n.markMembers ps) →
      ∃ k ∈ n.needsOf ps, n.lookup k = some name
  | [], h => by simp [markMembers, Written.namesOf] at h
  | (p, s) :: rest, h => by
    rw [markMembers, Written.namesOf, List.mem_append] at h
    rw [needsOf]
    rcases h with h | h
    · obtain ⟨k, hk, hlookup⟩ := lookup_of_mem_names_mark h
      exact ⟨k, List.mem_append_left _ hk, hlookup⟩
    · obtain ⟨k, hk, hlookup⟩ := lookup_of_mem_namesOf_markMembers h
      exact ⟨k, List.mem_append_right _ hk, hlookup⟩

end

end Naming

/-! ### The length of inline texts -/

theorem length_le_length_intercalate {sep x : String} : ∀ {l : List String}, x ∈ l →
    x.length ≤ (sep.intercalate l).length
  | [_], h => by
    simp only [List.mem_singleton.mp h, String.intercalate_singleton, Nat.le_refl]
  | a :: b :: l, h => by
    rw [String.intercalate_cons_cons, String.length_append, String.length_append]
    rcases List.mem_cons.mp h with rfl | h
    · omega
    · have : x.length ≤ (sep.intercalate (b :: l)).length := length_le_length_intercalate h
      omega

/-- An object type is longer than the types of its members. -/
theorem length_type_lt_length_inlineObject {ms : List Member} {m : Member} (hm : m ∈ ms) :
    m.type.length < (inlineObject ms).length := by
  have hsig : m.type.length ≤ m.signature.length := by
    unfold Member.signature
    rw [String.length_append]
    omega
  have hall : m.signature.length ≤ ("; ".intercalate (ms.map Member.signature)).length :=
    length_le_length_intercalate (List.mem_map_of_mem hm)
  unfold inlineObject
  rw [if_neg (by simp [List.ne_nil_of_mem hm]), String.length_append, String.length_append]
  have : "\x7b ".length = 2 := by decide
  omega

/-- An array type is longer than its item. -/
theorem length_lt_length_arrayOf (item : String) : item.length < (arrayOf item).length := by
  unfold arrayOf
  have h1 : ")[]".length = 3 := by decide
  have h2 : "[]".length = 2 := by decide
  split <;> simp only [String.length_append] <;> omega

theorem mem_requiredFirst {ms : List Member} {m : Member} : m ∈ requiredFirst ms ↔ m ∈ ms := by
  unfold requiredFirst
  cases h : m.optional <;> simp [h]

theorem Shape.inlineMembers_eq_map : ∀ ps : List (Property × Shape),
    inlineMembers ps = ps.map fun e => e.1.member e.2.inline
  | [] => by simp [inlineMembers]
  | (p, s) :: rest => by simp [inlineMembers, inlineMembers_eq_map rest]

/-- An object has a longer inline text than each of its members. -/
theorem Shape.length_inline_lt {doc : Option String} {ps : List (Property × Shape)}
    {e : Property × Shape} (he : e ∈ ps) :
    e.2.inline.length < (Shape.object doc ps).inline.length := by
  have hm : e.1.member e.2.inline ∈ requiredFirst (inlineMembers ps) := by
    rw [mem_requiredFirst, inlineMembers_eq_map]
    exact List.mem_map_of_mem he
  rw [Shape.inline]
  exact length_type_lt_length_inlineObject hm

/-! ### Unfolding what is written -/

/-- Brackets are decided on the unfolded item. -/
def brackets (_ : Written) (text : String) : String := arrayOf text

/-- Brackets stay where they were written. -/
def bracketsKept (item : Written) (text : String) : String :=
  if barAtTop {} item.type.toList then "(" ++ text ++ ")[]" else text ++ "[]"

/-- The way of making array types gives the plain text for all arrays among some shapes. -/
def Suffixes (suffix : Written → String → String) (n : Naming) (parts : List Shape) : Prop :=
  ∀ item, Shape.array item ∈ parts → suffix (n.mark item) item.inline = arrayOf item.inline

section Mark

variable {n : Naming} {objects : List Lifted} {parts : List Shape}

/-- Members whose types unfold, to their plain texts if `good`. -/
theorem exists_unfoldsMembers {good : Prop} : ∀ {ps : List (Property × Shape)},
    (∀ e ∈ ps, ∃ t, Unfolds suffix lifted (n.mark e.2) t ∧ (good → t = e.2.inline)) →
    ∃ ms, UnfoldsMembers suffix lifted (n.markMembers ps) ms ∧ (good → ms = Shape.inlineMembers ps)
  | [], _ => by
    rw [Naming.markMembers, Shape.inlineMembers]
    exact ⟨[], .nil, fun _ => rfl⟩
  | (p, s) :: rest, h => by
    obtain ⟨t, ht, heq⟩ := h _ List.mem_cons_self
    obtain ⟨ms, hms, heqs⟩ := exists_unfoldsMembers fun e he => h e (List.mem_cons_of_mem _ he)
    rw [Naming.markMembers, Shape.inlineMembers]
    exact ⟨_, .cons ht hms, fun hg => by rw [heq hg, heqs hg]⟩

/-- **A written type unfolds**, if all that it and the lifted objects are written with by name has
been lifted; and it unfolds to its text with every object written in place, if the way of making
array types gives the plain text for all arrays. -/
theorem exists_unfolds_mark (hnamed : ∀ o ∈ objects, n.lookup o.key = some o.name)
    (hclosed : ∀ o ∈ objects, ∀ k ∈ n.needsOf o.properties, k ∈ objects.map Lifted.key)
    (hparts : ∀ o ∈ objects, ∀ t ∈ Shape.partsOf o.properties, t ∈ parts) :
    ∀ (bound : Nat) (s : Shape), s.inline.length < bound →
      (∀ k ∈ n.needs s, k ∈ objects.map Lifted.key) → (∀ t ∈ s.parts, t ∈ parts) →
      ∃ t, Unfolds suffix (objects.map n.markLifted) (n.mark s) t ∧
        (Suffixes suffix n parts → t = s.inline) := by
  intro bound
  -- the bound is on inline texts: a name leads to an object whose members have shorter ones
  induction bound with
  | zero => intro s hs; omega
  | succ bound ih =>
    have members : ∀ (doc : Option String) (ps : List (Property × Shape)),
        (Shape.object doc ps).inline.length < bound + 1 →
        (∀ k ∈ n.needsOf ps, k ∈ objects.map Lifted.key) →
        (∀ t ∈ Shape.partsOf ps, t ∈ parts) →
        ∃ ms, UnfoldsMembers suffix (objects.map n.markLifted) (inOrder (n.markMembers ps)) ms ∧
          (Suffixes suffix n parts → inlineObject ms = (Shape.object doc ps).inline) := by
      intro doc ps hlen hneeds hin
      have hall : ∀ e ∈ ps, ∃ t, Unfolds suffix (objects.map n.markLifted) (n.mark e.2) t ∧
          (Suffixes suffix n parts → t = e.2.inline) := by
        intro e he
        have hlt : e.2.inline.length < (Shape.object doc ps).inline.length :=
          Shape.length_inline_lt he
        refine ih e.2 (by omega) (fun k hk => hneeds k ?_) (fun t ht => hin t ?_)
        · exact Naming.mem_needsOf.mpr ⟨e, he, hk⟩
        · exact Shape.mem_partsOf.mpr ⟨e, he, ht⟩
      obtain ⟨ms, hms, heq⟩ := exists_unfoldsMembers hall
      exact ⟨_, hms.inOrder, fun hg => by rw [heq hg, Shape.inline]⟩
    intro s hlen hneeds hin
    match s with
    | .text type =>
      rw [Naming.mark, Shape.inline]
      exact ⟨type, .text type, fun _ => rfl⟩
    | .union types =>
      rw [Naming.mark, Shape.inline]
      exact ⟨_, .text _, fun _ => rfl⟩
    | .array item =>
      rw [Shape.inline] at hlen
      have hlt := length_lt_length_arrayOf item.inline
      obtain ⟨t, ht, heq⟩ := ih item (by omega) (by simpa [Naming.needs] using hneeds)
        fun u hu => hin u (by rw [Shape.parts]; exact List.mem_cons_of_mem _ hu)
      rw [Naming.mark, Shape.inline]
      exact ⟨_, .array ht, fun hg => by rw [heq hg, hg item (hin _ (Shape.mem_parts_self _))]⟩
    | .object doc ps =>
      cases hname : n.lookup (Shape.object doc ps).inline with
      | none =>
        obtain ⟨ms, hms, heq⟩ := members doc ps hlen
          (by simpa [Naming.needs, hname] using hneeds)
          fun u hu => hin u (by rw [Shape.parts]; exact List.mem_cons_of_mem _ hu)
        simp only [Naming.mark, hname]
        exact ⟨_, .object hms, heq⟩
      | some name =>
        have hkey : (Shape.object doc ps).inline ∈ objects.map Lifted.key :=
          hneeds _ (by simp [Naming.needs, hname])
        obtain ⟨o, ho, hk⟩ := List.mem_map.mp hkey
        obtain ⟨ms, hms, heq⟩ := members o.doc o.properties
          (by rw [Lifted.key] at hk; rwa [hk]) (hclosed o ho) (hparts o ho)
        have hoN : o.name = name := by
          have := hnamed o ho
          rw [hk, hname] at this
          exact (Option.some.inj this).symm
        simp only [Naming.mark, hname]
        refine ⟨_, ?_, fun hg => (heq hg).trans hk⟩
        rw [← hoN]
        exact .lifted (i := n.markLifted o) (List.mem_map_of_mem ho) hms

end Mark

end Lexgen.Types
