/-
# Why declaring fails

Of the local references that name no definition the first one that is met decides the error of a
schema (`failure?_resolve`), of the parts of a definition, and of all drafts (`failure?_allDrafts`).
Only when there is none, the names of the declarations are looked at, and it is not necessary to
make the drafts to know them. `Outcome` puts together how the declarations of a lexicon come out,
and `outcome_declarations` says that they do come out so, in passes as well.

Key definitions: `Mention.isDangling`, `failure?`, `emittedMentions`, `emittedNames`, `Outcome`.
Key theorems: `failure?_resolve`, `failure?_allDrafts`, `firstRepeated?_eq_some_iff`,
`outcome_declarations`.
-/
import Lexgen.Proofs.Types.Passes
import Lexgen.Proofs.Types.References

namespace Lexgen.Types

open Lexgen.Data Lexgen.Lexicon Lexgen.TypeScript

/-! ### Failures -/

/-- The error of a step that fails. -/
def failure? {α : Type} : Except Error α → Option Error
  | .ok _ => none
  | .error e => some e

@[simp] theorem failure?_map {α β : Type} (f : α → β) (x : Except Error α) :
    failure? (f <$> x) = failure? x := by
  cases x <;> rfl

/-- A step that fails with the same error whatever it is given only matters if the step before it
succeeds. -/
theorem failure?_bind {α β : Type} {x : Except Error α} {f : α → Except Error β}
    {e : Option Error} (h : ∀ a, failure? (f a) = e) :
    failure? (x >>= f) = (failure? x <|> e) := by
  cases x with
  | error e' => rfl
  | ok a => exact h a

/-- Whether a reference is local and names no definition. -/
def Mention.isDangling (l : Lexicon) (m : Mention) : Bool :=
  (Target.ofReference m.reference).isLocal l &&
    (l.get? (Target.ofReference m.reference).definition).isNone

/-- The error that a reference makes. -/
def Mention.error (m : Mention) : Error := .unresolvedRef m.reference m.location

/-- The error that the first dangling one among some references makes, if there is one. -/
def firstDangling? (l : Lexicon) (ms : List Mention) : Option Error :=
  (ms.find? (·.isDangling l)).map Mention.error

@[simp] theorem firstDangling?_append (l : Lexicon) (ms ns : List Mention) :
    firstDangling? l (ms ++ ns) = (firstDangling? l ms <|> firstDangling? l ns) := by
  simp only [firstDangling?, List.find?_append]
  cases ms.find? (·.isDangling l) <;> rfl

/-! ### Schemas -/

section Schemas

variable {l : Lexicon} {name location : String}

theorem failure?_resolveRef (reference location : String) :
    failure? (resolveRef l reference location) = firstDangling? l [⟨reference, location⟩] := by
  simp only [resolveRef, firstDangling?, Mention.isDangling, List.find?_singleton]
  by_cases hlocal : (Target.ofReference reference).isLocal l = true
  · by_cases hnone : (l.get? (Target.ofReference reference).definition).isNone = true
    · simp [hlocal, hnone, failure?, Mention.error]
    · simp [hlocal, hnone, failure?]
  · simp [hlocal, failure?]

theorem failure?_resolveRefs (location : String) : ∀ refs : List String,
    failure? (resolveRefs l location refs) = firstDangling? l (refs.map (⟨·, location⟩))
  | [] => rfl
  | reference :: rest => by
    have hrest := failure?_resolveRefs location rest
    rw [resolveRefs, List.map_cons, ← List.singleton_append, firstDangling?_append,
      ← failure?_resolveRef, ← hrest]
    refine failure?_bind fun type => ?_
    cases resolveRefs l location rest <;> rfl

mutual

/-- **Resolving a schema fails with its first dangling reference**, if there is one. -/
theorem failure?_resolve : ∀ {location : String} (s : Schema),
    failure? (resolve l location s) = firstDangling? l (mentions location s)
  | location, ⟨f, ps, it⟩ => by
    unfold resolve
    split
    · next reference href =>
      simp only [mentions, href, failure?_map]
      exact failure?_resolveRef reference location
    · next href =>
      split
      · next hkeyword =>
        simp only [mentions, href, hkeyword, failure?_map]
        exact failure?_resolveItems it
      · next hkeyword =>
        simp only [mentions, href, hkeyword, failure?_map]
        exact failure?_resolveRefs location f.refs
      · next harray hunion =>
        split
        · next hshape =>
          simp only [mentions, href, hshape, if_true, failure?_map]
          exact failure?_resolveProperties ps
        · next hshape =>
          simp only [mentions, href, hshape]
          rfl

theorem failure?_resolveItems : ∀ {location : String} (it : Option Schema),
    failure? (resolveItems l location it) = firstDangling? l (itemMentions location it)
  | location, none => rfl
  | location, some s => by
    rw [resolveItems, itemMentions]
    exact failure?_resolve s

theorem failure?_resolveProperties : ∀ {location : String} {required : List String}
    (ps : List (String × Schema)),
    failure? (resolveProperties l location required ps) =
      firstDangling? l (propertyMentions location ps)
  | location, required, [] => by
    rw [resolveProperties, propertyMentions]
    rfl
  | location, required, (name, s) :: rest => by
    have hrest : failure? (resolveProperties l location required rest) =
        firstDangling? l (propertyMentions location rest) := failure?_resolveProperties rest
    rw [resolveProperties, propertyMentions, firstDangling?_append, ← failure?_resolve s, ← hrest]
    refine failure?_bind fun shape => ?_
    cases resolveProperties l location required rest <;> rfl

end

/-! ### Parts of definitions -/

/-- The references in a part of a definition. -/
def Part.mentions : Part → List Mention
  | .interface _ location _ _ s => propertyMentions location s.properties
  | .typed _ location _ s => Types.mentions location s
  | .fixed .. => []

theorem mentions_schemaPart (doc : Option String) (s : Schema) :
    (schemaPart name location doc s).mentions = mentions location s := by
  unfold schemaPart
  split
  · next hshape =>
    rw [Bool.and_eq_true] at hshape
    exact (mentions_of_isShape hshape.1 hshape.2).symm
  · rfl

theorem mentions_parameterParts (parameters : Option Schema) :
    (parameterParts l name parameters).flatMap Part.mentions =
      parameterMentions name parameters := by
  cases parameters with
  | none => rfl
  | some s =>
    simp only [parameterParts, parameterMentions]
    split
    · next hempty =>
      rw [List.isEmpty_iff.mp hempty]
      rfl
    · simp [Part.mentions]

theorem mentions_bodyParts (part : String) (description : Option String) (schema : Option Schema) :
    (bodyParts l name part location description schema).flatMap Part.mentions =
      partMentions name location schema := by
  cases schema with
  | none => rfl
  | some s => simp [bodyParts, mentions_schemaPart, partMentions, itemMentions]

theorem mentions_errorParts (errors : List NamedError) :
    (errorParts l name errors).flatMap Part.mentions = [] := by
  unfold errorParts
  split <;> rfl

/-- The references in a definition are those in its parts. -/
theorem mentions_partsOf (d : Definition) :
    (partsOf l name d).flatMap Part.mentions = definitionMentions name d := by
  cases d with
  | record r => simp [partsOf, definitionMentions, Part.mentions]
  | query q =>
    simp [partsOf, definitionMentions, mentions_parameterParts, mentions_bodyParts,
      mentions_errorParts]
  | procedure p =>
    simp [partsOf, definitionMentions, mentions_parameterParts, mentions_bodyParts,
      mentions_errorParts]
  | subscription s =>
    simp [partsOf, definitionMentions, mentions_parameterParts, mentions_bodyParts,
      mentions_errorParts]
  | schema s =>
    simp only [partsOf, definitionMentions]
    split
    · rfl
    · simp [mentions_schemaPart]

theorem failure?_draft (p : Part) : failure? (p.draft l) = firstDangling? l p.mentions := by
  cases p with
  | interface name location doc discriminant s =>
    rw [Part.draft, interfaceOf, failure?_map]
    exact failure?_resolveProperties s.properties
  | typed name location doc s =>
    rw [Part.draft, failure?_map]
    exact failure?_resolve s
  | fixed name doc type => rfl

theorem failure?_mapM_draft : ∀ parts : List Part,
    failure? (parts.mapM (Part.draft l)) = firstDangling? l (parts.flatMap Part.mentions)
  | [] => rfl
  | p :: parts => by
    have hrest := failure?_mapM_draft parts
    rw [List.mapM_cons, List.flatMap_cons, firstDangling?_append, ← failure?_draft, ← hrest]
    refine failure?_bind fun d => ?_
    cases parts.mapM (Part.draft l) <;> rfl

end Schemas

/-! ### All definitions -/

/-- The references in all definitions, in the order in which these are emitted from the primary one
on. -/
def emittedMentions (l : Lexicon) (e : String × Definition) : List Mention :=
  (e :: l.supporting e.1).flatMap fun d => definitionMentions d.1 d.2

/-- The names that all definitions declare, in the order in which these are emitted from the primary
one on. -/
def emittedNames (l : Lexicon) (e : String × Definition) : List String :=
  (e :: l.supporting e.1).flatMap (declaredNames l)

section Declarations

variable {l : Lexicon}

/-- With a primary definition, drafting fails with the first dangling reference of all. -/
theorem failure?_allDrafts {e : String × Definition} (he : l.primary? = some e) :
    failure? (allDrafts l) = firstDangling? l (emittedMentions l e) := by
  have hprimary : l.primary = .ok e := by
    rw [Lexicon.primary, he]
  have hmentions : ((e :: l.supporting e.1).flatMap fun d => partsOf l d.1 d.2).flatMap
      Part.mentions = emittedMentions l e := by
    simp only [List.flatMap_assoc, mentions_partsOf, emittedMentions]
  rw [allDrafts_eq_mapM, hprimary, ← hmentions]
  exact failure?_mapM_draft _

/-- The first name that occurs a second time. -/
theorem firstRepeatedFrom?_eq_some_iff {name : String} : ∀ {seen names : List String},
    firstRepeatedFrom? seen names = some name ↔ ∃ before after, names = before ++ name :: after ∧
      before.Nodup ∧ (∀ x ∈ before, x ∉ seen) ∧ (name ∈ before ∨ name ∈ seen)
  | seen, [] => by simp [firstRepeatedFrom?]
  | seen, first :: rest => by
    rw [firstRepeatedFrom?]
    by_cases hseen : first ∈ seen
    · simp only [List.contains_iff_mem, hseen, if_true, Option.some.injEq]
      constructor
      · rintro rfl
        exact ⟨[], rest, rfl, List.nodup_nil, by simp, Or.inr hseen⟩
      · rintro ⟨before, after, heq, -, hfresh, -⟩
        cases before with
        | nil => exact (List.cons.inj heq).1
        | cons x xs =>
          obtain ⟨rfl, -⟩ := List.cons.inj heq
          exact absurd hseen (hfresh _ List.mem_cons_self)
    · simp only [List.contains_iff_mem, hseen, if_false, firstRepeatedFrom?_eq_some_iff]
      constructor
      · rintro ⟨before, after, rfl, hnodup, hfresh, hmem⟩
        refine ⟨first :: before, after, rfl, ?_, ?_, ?_⟩
        · exact List.nodup_cons.mpr ⟨fun h => hfresh _ h List.mem_cons_self, hnodup⟩
        · intro x hx
          rcases List.mem_cons.mp hx with rfl | hx
          · exact hseen
          · exact fun h => hfresh x hx (List.mem_cons_of_mem _ h)
        · grind
      · rintro ⟨before, after, heq, hnodup, hfresh, hmem⟩
        cases before with
        | nil =>
          obtain ⟨rfl, rfl⟩ := List.cons.inj heq
          exact absurd (hmem.resolve_left (by simp)) hseen
        | cons x xs =>
          obtain ⟨rfl, rfl⟩ := List.cons.inj heq
          rw [List.nodup_cons] at hnodup
          refine ⟨xs, after, rfl, hnodup.2, ?_, by grind⟩
          intro y hy hmem'
          rcases List.mem_cons.mp hmem' with rfl | hmem'
          · exact hnodup.1 hy
          · exact hfresh y (List.mem_cons_of_mem _ hy) hmem'

theorem firstRepeated?_eq_some_iff {name : String} {names : List String} :
    firstRepeated? names = some name ↔
      ∃ before after, names = before ++ name :: after ∧ before.Nodup ∧ name ∈ before := by
  rw [firstRepeated?, firstRepeatedFrom?_eq_some_iff]
  simp

theorem firstDangling?_eq_none_iff {ms : List Mention} :
    firstDangling? l ms = none ↔ ∀ m ∈ ms, m.isDangling l = false := by
  simp [firstDangling?]

theorem firstDangling?_eq_some_iff {ms : List Mention} {error : Error} :
    firstDangling? l ms = some error ↔ ∃ before m after, ms = before ++ m :: after ∧
      (∀ m' ∈ before, m'.isDangling l = false) ∧ m.isDangling l = true ∧ m.error = error := by
  simp only [firstDangling?, Option.map_eq_some_iff, List.find?_eq_some_iff_append]
  grind

/-- How the declarations of a lexicon come out. -/
inductive Outcome (l : Lexicon) : Except Error (List Declaration) → Prop where
  /-- There is no primary definition. -/
  | noPrimary : l.primary? = none → Outcome l (.error (.noPrimary l.id))
  /-- A reference is dangling, and none before it is. -/
  | unresolved {e : String × Definition} {before after : List Mention} {m : Mention} :
    l.primary? = some e → emittedMentions l e = before ++ m :: after →
    (∀ m' ∈ before, m'.isDangling l = false) → m.isDangling l = true →
    Outcome l (.error (.unresolvedRef m.reference m.location))
  /-- No reference is dangling, and a name is declared for the second time, which none is before. -/
  | duplicate {e : String × Definition} {before after : List String} {name : String} :
    l.primary? = some e → (∀ m ∈ emittedMentions l e, m.isDangling l = false) →
    emittedNames l e = before ++ name :: after → before.Nodup → name ∈ before →
    Outcome l (.error (.duplicateType l.id name))
  /-- No reference is dangling, and no definition declares anything. -/
  | noTypes {e : String × Definition} : l.primary? = some e →
    (∀ m ∈ emittedMentions l e, m.isDangling l = false) → emittedNames l e = [] →
    Outcome l (.error (.noTypes l.id))
  /-- Otherwise the definitions declare their names, and at least one. -/
  | declared {e : String × Definition} {ds : List Declaration} : l.primary? = some e →
    (∀ m ∈ emittedMentions l e, m.isDangling l = false) → (emittedNames l e).Nodup →
    emittedNames l e ≠ [] → emittedNames l e <+: ds.map Declaration.name → Outcome l (.ok ds)

theorem outcome_of_primary? {e : String × Definition} (he : l.primary? = some e) :
    Outcome l (declarations l) := by
  have hfailure := failure?_allDrafts he
  cases hdrafts : allDrafts l with
  | error error =>
    rw [hdrafts, failure?, eq_comm, firstDangling?_eq_some_iff] at hfailure
    obtain ⟨before, m, after, hmentions, hbefore, hm, rfl⟩ := hfailure
    have hfails : declarations l = .error m.error := by
      rw [declarations, hdrafts]
      rfl
    rw [hfails]
    exact .unresolved he hmentions hbefore hm
  | ok drafts =>
    rw [hdrafts, failure?, eq_comm, firstDangling?_eq_none_iff] at hfailure
    have hnames : drafts.map Draft.name = emittedNames l e := by
      obtain ⟨e', he', hnames⟩ := names_allDrafts hdrafts
      rw [he] at he'
      cases he'
      exact hnames
    rw [declarations, hdrafts]
    dsimp only [bind, Except.bind]
    cases hrepeated : firstRepeated? (emittedNames l e) with
    | some name =>
      obtain ⟨before, after, hsplit, hnodup, hmem⟩ := firstRepeated?_eq_some_iff.mp hrepeated
      rw [hnames, hrepeated]
      exact .duplicate he hfailure hsplit hnodup hmem
    | none =>
      rw [hnames, hrepeated]
      cases drafts with
      | nil => exact .noTypes he hfailure hnames.symm
      | cons d ds =>
        refine .declared he hfailure (firstRepeated?_eq_none_iff.mp hrepeated) ?_ ?_
        · rw [← hnames]
          exact List.cons_ne_nil _ _
        · rw [names_declare, hnames]
          exact List.prefix_append _ _

/-- The error to expect: each kind only if there is none of the kinds before it. -/
def expected? (l : Lexicon) : Option Error :=
  match l.primary? with
  | none => some (.noPrimary l.id)
  | some e =>
    firstDangling? l (emittedMentions l e) <|>
    (firstRepeated? (emittedNames l e)).map (.duplicateType l.id) <|>
    if (emittedNames l e).isEmpty then some (.noTypes l.id) else none

/-- The conditions of the outcomes exclude each other. -/
theorem Outcome.failure?_eq {r : Except Error (List Declaration)} (h : Outcome l r) :
    failure? r = expected? l := by
  cases h with
  | noPrimary he => simp only [expected?, he, failure?]
  | @unresolved e before after m he hmentions hbefore hm =>
    have hfirst : firstDangling? l (emittedMentions l e) = some m.error :=
      firstDangling?_eq_some_iff.mpr ⟨before, m, after, hmentions, hbefore, hm, rfl⟩
    simp only [expected?, he, hfirst]
    rfl
  | @duplicate e before after name he hnone hnames hnodup hmem =>
    have hrepeated : firstRepeated? (emittedNames l e) = some name :=
      firstRepeated?_eq_some_iff.mpr ⟨before, after, hnames, hnodup, hmem⟩
    simp only [expected?, he, firstDangling?_eq_none_iff.mpr hnone, hrepeated]
    rfl
  | noTypes he hnone hempty =>
    simp only [expected?, he, firstDangling?_eq_none_iff.mpr hnone, hempty]
    rfl
  | declared he hnone hnodup hne _ =>
    simp only [expected?, he, firstDangling?_eq_none_iff.mpr hnone,
      firstRepeated?_eq_none_iff.mpr hnodup, List.isEmpty_eq_false_iff.mpr hne]
    rfl

end Declarations

/-- **How declaring comes out.** The declarations of every lexicon come out in one of five ways, and
the conditions of the ways leave no choice. Making them in passes gives the same, and once the
counting pass has gone through, no emitting pass fails. -/
theorem outcome_declarations (l : Lexicon) :
    Outcome l (declarations l) ∧
    (∀ r, Outcome l r → failure? r = failure? (declarations l)) ∧
    inPasses l = declarations l ∧
    ∀ (parts : List Part) (n : Naming) (c c' : Collected) (r : List Declaration × Collected),
      parts.mapM (Part.declare l .count) c = .ok r →
        ∃ r', parts.mapM (Part.declare l (.emit n)) c' = .ok r' := by
  have houtcome : Outcome l (declarations l) := by
    cases he : l.primary? with
    | none =>
      have hfails : declarations l = .error (.noPrimary l.id) := by
        rw [declarations, allDrafts, Lexicon.primary, he]
        rfl
      rw [hfails]
      exact .noPrimary he
    | some e => exact outcome_of_primary? he
  refine ⟨houtcome, fun r hr => ?_, inPasses_eq_declarations, fun parts n c c' r hr => ?_⟩
  · rw [hr.failure?_eq, houtcome.failure?_eq]
  · exact exists_ok_of_mapM_declare_eq_ok hr

/-- A note with two dangling references, the first one met inside an array, and two definitions that
declare the same name. -/
def danglingNotes : Lexicon :=
  noteLexicon [("item", .schema textSchema), ("Item", .schema textSchema),
    ("main", recordOf [
      ("parts", listSchema (objectSchema [("of", ⟨{ ref := some "#gone" }, [], none⟩)])),
      ("next", ⟨{ dollarRef := some "#lost" }, [], none⟩)])]

example : declarations danglingNotes = .error (.unresolvedRef "#gone" "main.parts[].of") := by rfl

end Lexgen.Types
