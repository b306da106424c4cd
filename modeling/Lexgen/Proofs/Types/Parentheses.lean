/-
# Which item types stand in parentheses

Where all type names are identifiers, the inline text of a schema is bracketed and does not end a
member, because the texts that its shape is put together from are so (`sealed_of_resolvesTo`). This
stays so where objects are written by names that are identifiers (`sealed_write`), of which the
inline text is the case without names (`Naming.write_nil`). It has a bar outside of quotes and
brackets exactly if the schema is written as a union of two different types
(`barAtTop_inline_iff`): names, objects and arrays are single texts. Hence just the items that are
such unions stand in parentheses. Schemas inside of a schema are resolved along with it and written
inside of its text (`exists_part_of_inside`, `inline_infix_of_mem_parts`), so this holds at every
depth.

Key definitions: `memberEnds`, `RendersUnion`, `NeedsParentheses`, `Inside`, `ArrayText`.
Key theorems: `sealed_write`, `barAtTop_inline_iff`, `parentheses_typeText`.
-/
import Lexgen.Proofs.Types.Brackets
import Lexgen.Proofs.Types.Passes
import Lexgen.Proofs.Types.References
import Lexgen.Proofs.Types.Unfolding

namespace Lexgen.Types

open Lexgen.Data Lexgen.Json Lexgen.Lexicon Lexgen.Name Lexgen.TypeScript

/-! ### Numbers -/

/-- Whether a character can stand in a number. -/
def isNumeral (c : Char) : Bool :=
  c.isDigit || c == '.' || c == 'e' || c == '+' || c == '-'

theorem all_isNumeral_toString (n : Nat) : (toString n).toList.all isNumeral = true := by
  rw [Nat.toString_eq_repr, Nat.toList_repr, List.all_eq_true]
  intro c hc
  rw [isNumeral, Nat.isDigit_of_mem_toDigits (by decide) (by decide) hc]
  rfl

theorem all_isNumeral_replicate (n : Nat) : (List.replicate n '0').all isNumeral = true := by
  rw [List.all_eq_true]
  intro c hc
  rw [List.eq_of_mem_replicate hc]
  decide

theorem all_isNumeral_layout {digits : String} (e : Int)
    (h : digits.toList.all isNumeral = true) : (layout digits e).toList.all isNumeral = true := by
  have htake : ∀ n, (digits.toList.take n).all isNumeral = true := fun n =>
    List.all_eq_true.mpr fun c hc => List.all_eq_true.mp h c (List.mem_of_mem_take hc)
  have hdrop : ∀ n, (digits.toList.drop n).all isNumeral = true := fun n =>
    List.all_eq_true.mpr fun c hc => List.all_eq_true.mp h c (List.mem_of_mem_drop hc)
  unfold layout
  split
  · simp only [String.toList_append, String.toList_ofList, List.all_append, Bool.and_eq_true]
    refine ⟨⟨⟨?_, by decide⟩, ?_⟩, all_isNumeral_toString _⟩
    · split
      · rfl
      · next d hd => rwa [hd] at h
      · next d rest _ hd =>
        rw [hd, List.all_cons, Bool.and_eq_true] at h
        rw [List.all_cons, List.all_cons, h.1, h.2]
        decide
    · split <;> decide
  · split
    · simp only [String.toList_append, String.toList_ofList, List.all_append, Bool.and_eq_true]
      exact ⟨⟨by decide, all_isNumeral_replicate _⟩, h⟩
    · simp only [String.toList_append, String.toList_ofList, List.all_append, Bool.and_eq_true]
      refine ⟨⟨⟨htake _, all_isNumeral_replicate _⟩, by decide⟩, ?_⟩
      split
      · decide
      · rw [String.toList_ofList]
        exact hdrop _

theorem all_isNumeral_text : ∀ n : Number, n.text.toList.all isNumeral = true
  | .integer (.ofNat n) => all_isNumeral_toString n
  | .integer (.negSucc n) => by
    show ("-" ++ toString (n + 1)).toList.all isNumeral = true
    rw [String.toList_append, List.all_append, all_isNumeral_toString]
    decide
  | .double bits => by
    show (doubleText bits).toList.all isNumeral = true
    have hsign : (if bits.toNat / Nat.pow 2 63 = 1 then "-" else "").toList.all isNumeral =
        true := by
      split <;> decide
    unfold doubleText
    dsimp only
    generalize (if bits.toNat / Nat.pow 2 63 = 1 then "-" else "") = sign at hsign
    split
    · rw [String.toList_append, List.all_append, hsign]
      decide
    · rw [String.toList_append, List.all_append, hsign,
        all_isNumeral_layout _ (all_isNumeral_toString _)]
      rfl

theorem sealed_number {hidden : List Char} (hhidden : ∀ c ∈ hidden, isNumeral c = false)
    (n : Number) : Sealed hidden n.text.toList := by
  refine sealed_of_forall fun c hc => ?_
  have hnumeral := List.all_eq_true.mp (all_isNumeral_text n) c hc
  refine ⟨fun hscanned => ?_, fun hmem => ?_⟩
  · have hnone : scanned.all (!isNumeral ·) = true := by decide
    simpa [hnumeral] using List.all_eq_true.mp hnone c hscanned
  · rw [hhidden c hmem] at hnumeral
    cases hnumeral

/-! ### Types without structure -/

/-- The characters that end a member of an object type, so that no type has one at its top. -/
def memberEnds : List Char := [';']

theorem single_anyType : Single anyType.toList := by decide

theorem single_keywordType (k : Keyword) : Single (keywordType k).toList := by
  cases k with
  | other word => exact single_anyType
  | _ => decide

theorem sealed_keywordType (k : Keyword) : Sealed memberEnds (keywordType k).toList := by
  cases k with
  | other word => exact (show Sealed memberEnds anyType.toList by decide)
  | _ => decide

theorem sealed_of_literalType? {hidden : List Char} (hquote : '\'' ∉ hidden)
    (hhidden : ∀ c ∈ hidden, isNumeral c = false ∧ continuesIdentifier c = false) {v : Value}
    {type : String} (h : literalType? v = some type) : Sealed hidden type.toList := by
  cases v with
  | string s =>
    cases h
    exact sealed_stringLiteral hquote s
  | number n =>
    cases h
    exact sealed_number (fun c hc => (hhidden c hc).1) n
  | bool b =>
    cases h
    refine sealed_of_isIdentifier (fun c hc => (hhidden c hc).2) ?_
    cases b <;> decide
  | null => cases h
  | array items => cases h
  | object members => cases h

theorem single_of_literalType? {v : Value} {type : String} (h : literalType? v = some type) :
    Single type.toList :=
  single_iff.mpr (sealed_of_literalType? (by decide) (List.forall_mem_singleton.mpr (by decide)) h)

theorem single_of_mem_filterMap {vs : List Value} :
    ∀ t ∈ vs.filterMap literalType?, Single t.toList := by
  intro t ht
  obtain ⟨v, -, hv⟩ := List.mem_filterMap.mp ht
  exact single_of_literalType? hv

theorem sealed_leafType (f : Facets) : Sealed memberEnds (leafType f).toList := by
  have hliteral {v : Value} {type : String} (h : literalType? v = some type) :
      Sealed memberEnds type.toList :=
    sealed_of_literalType? (by decide) (List.forall_mem_singleton.mpr (by decide)) h
  unfold leafType
  split
  · decide
  · next k _ =>
    split
    · next literal hbind =>
      obtain ⟨v, -, hv⟩ := Option.bind_eq_some_iff.mp hbind
      exact hliteral hv
    · split
      · refine sealed_textOr_ofTypes (by decide) (fun t ht => ?_) (sealed_keywordType k)
        obtain ⟨v, -, hv⟩ := List.mem_filterMap.mp ht
        exact hliteral hv
      · exact sealed_keywordType k

theorem BasicType.sealed {type : String} (h : BasicType type) : Sealed memberEnds type.toList := by
  have hliteral (s : String) : Sealed memberEnds (stringLiteral s).toList :=
    sealed_stringLiteral (by decide) s
  cases h with
  | any => decide
  | leaf f => exact sealed_leafType f
  | literal s => exact hliteral s
  | literals ss =>
    refine sealed_textOr_ofTypes (by decide) (fun t ht => ?_) (by decide)
    obtain ⟨s, -, rfl⟩ := List.mem_map.mp ht
    exact hliteral s

/-! ### Texts of shapes -/

section Written

variable {n : Naming}

/-- An object hides what neither an identifier nor an object type has at its top: it is written by
its name or in place. -/
theorem sealed_write_object {hidden : List Char} (hbraces : '\x7b' ∉ hidden ∧ '\x7d' ∉ hidden)
    (hhidden : ∀ c ∈ hidden, continuesIdentifier c = false)
    (hn : ∀ e ∈ n, isIdentifier e.2 = true) {doc : Option String}
    {properties : List (Property × Shape)}
    (h : ∀ m ∈ n.writeMembers properties, Bracketed m.type.toList) :
    Sealed hidden (n.write (.object doc properties)).toList := by
  rw [Naming.write]
  split
  · next name hname =>
    exact sealed_of_isIdentifier hhidden (hn _ (mem_of_lookup_eq_some hname))
  · exact sealed_inlineObject hbraces fun m hm => h m (mem_requiredFirst.mp hm)

mutual

/-- A shape whose objects are called by identifiers has a bracketed text, which does not end a
member, if the texts are so that it is put together from. -/
theorem sealed_write (hn : ∀ e ∈ n, isIdentifier e.2 = true) : ∀ {shape : Shape},
    (∀ t ∈ shape.texts, Sealed memberEnds t.toList) → Sealed memberEnds (n.write shape).toList
  | .text type, h => by
    rw [Shape.texts] at h
    rw [Naming.write]
    exact h type List.mem_cons_self
  | .union types, h => by
    rw [Shape.texts] at h
    rw [Naming.write]
    exact sealed_textOr_ofTypes (by decide) h (by decide)
  | .array item, h => by
    rw [Shape.texts] at h
    rw [Naming.write]
    exact sealed_arrayOf (by simp [memberEnds]) (sealed_write hn h)
  | .object _ properties, h => by
    rw [Shape.texts] at h
    refine sealed_write_object (by decide) (List.forall_mem_singleton.mpr (by decide)) hn ?_
    exact fun m hm => (sealed_writeMembers hn h m hm).toBracketed

theorem sealed_writeMembers (hn : ∀ e ∈ n, isIdentifier e.2 = true) :
    ∀ {ps : List (Property × Shape)}, (∀ t ∈ Shape.textsOf ps, Sealed memberEnds t.toList) →
      ∀ m ∈ n.writeMembers ps, Sealed memberEnds m.type.toList
  | [], _ => by simp [Naming.writeMembers]
  | (p, s) :: rest, h => by
    rw [Shape.textsOf, List.forall_mem_append] at h
    rw [Naming.writeMembers, List.forall_mem_cons]
    exact ⟨sealed_write hn h.1, sealed_writeMembers hn h.2⟩

end

/-- An object is written as a single text, by name or in place. -/
theorem single_write_object (hn : ∀ e ∈ n, isIdentifier e.2 = true) {doc : Option String}
    {properties : List (Property × Shape)}
    (h : ∀ t ∈ Shape.textsOf properties, Sealed memberEnds t.toList) :
    Single (n.write (.object doc properties)).toList := by
  refine single_iff.mpr (sealed_write_object (by decide) ?_ hn fun m hm => ?_)
  · exact List.forall_mem_singleton.mpr (by decide)
  · exact (sealed_writeMembers hn h m hm).toBracketed

end Written

mutual

/-- Without names, everything is written in place. -/
@[simp] theorem Naming.write_nil : ∀ shape : Shape, Naming.write [] shape = shape.inline
  | .text _ => rfl
  | .union _ => rfl
  | .array item => by rw [Naming.write, Shape.inline, Naming.write_nil item]
  | .object _ properties => by
    rw [Naming.write, List.lookup_nil, Shape.inline, Naming.writeMembers_nil properties]

@[simp] theorem Naming.writeMembers_nil : ∀ ps : List (Property × Shape),
    Naming.writeMembers [] ps = Shape.inlineMembers ps
  | [] => rfl
  | (p, s) :: rest => by
    rw [Naming.writeMembers, Shape.inlineMembers, Naming.write_nil s, Naming.writeMembers_nil rest]

end

/-- A shape has a bracketed text, which does not end a member, if the texts are so that it is put
together from. -/
theorem sealed_inline {shape : Shape} (h : ∀ t ∈ shape.texts, Sealed memberEnds t.toList) :
    Sealed memberEnds shape.inline.toList := by
  rw [← Naming.write_nil]
  exact sealed_write (List.forall_mem_nil _) h

theorem sealed_inlineMembers {ps : List (Property × Shape)}
    (h : ∀ t ∈ Shape.textsOf ps, Sealed memberEnds t.toList) :
    ∀ m ∈ Shape.inlineMembers ps, Sealed memberEnds m.type.toList := by
  rw [← Naming.writeMembers_nil]
  exact sealed_writeMembers (List.forall_mem_nil _) h

theorem single_inline_object {doc : Option String} {properties : List (Property × Shape)}
    (h : ∀ t ∈ Shape.textsOf properties, Sealed memberEnds t.toList) :
    Single (Shape.object doc properties).inline.toList := by
  rw [← Naming.write_nil]
  exact single_write_object (List.forall_mem_nil _) h

/-! ### Unions -/

/-- A schema is written as a union of types: those of its references, or those of the literals that
it lists, if it does not fix its value. -/
inductive RendersUnion (l : Lexicon) (location : String) (s : Schema) : List String → Prop where
  | references {types : List String} : s.reference? = none → s.facets.keyword = some .union →
    resolveRefs l location s.facets.refs = .ok types → RendersUnion l location s types
  | literals : s.reference? = none →
    s.facets.keyword ∈ [some .string, some .integer, some .number] →
    s.facets.const.bind literalType? = none →
    RendersUnion l location s (s.facets.literals.filterMap literalType?)

/-- A schema is written as a union of at least two different types. -/
def NeedsParentheses (l : Lexicon) (location : String) (s : Schema) : Prop :=
  ∃ types, RendersUnion l location s types ∧ ∃ a ∈ types, ∃ b ∈ types, a ≠ b

theorem barAtTop_leafType_iff (f : Facets) :
    barAtTop {} (leafType f).toList = true ↔
      f.keyword ∈ [some .string, some .integer, some .number] ∧
      f.const.bind literalType? = none ∧
      ∃ a ∈ f.literals.filterMap literalType?, ∃ b ∈ f.literals.filterMap literalType?, a ≠ b := by
  unfold leafType
  split
  · next hkeyword => simp [hkeyword, single_anyType.noBar]
  · next k hkeyword =>
    have hlists : listsLiterals k = true ↔
        f.keyword ∈ [some .string, some .integer, some .number] := by
      simp [listsLiterals, hkeyword, or_assoc]
    split
    · next literal hliteral =>
      obtain ⟨v, -, hv⟩ := Option.bind_eq_some_iff.mp hliteral
      simp [(single_of_literalType? hv).noBar, hliteral]
    · next hconst =>
      split
      · next hlist =>
        rw [Bool.and_eq_true] at hlist
        rw [barAtTop_textOr_ofTypes_iff single_of_mem_filterMap (single_keywordType k)]
        simp only [hlists.mp hlist.2, hconst, true_and]
      · next hlist =>
        rw [(single_keywordType k).noBar]
        refine iff_of_false (by simp) ?_
        rintro ⟨hmem, -, a, ha, -⟩
        refine hlist ?_
        obtain ⟨v, hv, -⟩ := List.mem_filterMap.mp ha
        rw [Bool.and_eq_true]
        exact ⟨by simp [List.ne_nil_of_mem hv], hlists.mpr hmem⟩

section Schemas

variable {l : Lexicon} {location : String}

/-- Type names that are identifiers hide what is no part of an identifier, and so does the type of
other documents. -/
theorem sealed_of_resolveRef {hidden : List Char}
    (hhidden : ∀ c ∈ hidden, continuesIdentifier c = false)
    (hl : ∀ e ∈ l.defs.entries, isIdentifier (l.typeName e.1) = true) {reference type : String}
    (h : resolveRef l reference location = .ok type) : Sealed hidden type.toList := by
  unfold resolveRef at h
  dsimp only at h
  generalize (Target.ofReference reference).definition = name at h
  split at h
  · cases h
    exact sealed_of_isIdentifier hhidden (by decide)
  · split at h
    · cases h
    · next hsome =>
      obtain ⟨d, hd⟩ := Option.ne_none_iff_exists'.mp (by simpa using hsome)
      have hmem := Ordered.get?_eq_some_iff.mp hd
      rw [← Except.ok.inj h]
      exact sealed_of_isIdentifier hhidden (hl _ hmem)

/-- Type names that are identifiers are single, and so is the type of other documents. -/
theorem single_of_resolveRef
    (hl : ∀ e ∈ l.defs.entries, isIdentifier (l.typeName e.1) = true) {reference type : String}
    (h : resolveRef l reference location = .ok type) : Single type.toList :=
  single_iff.mpr (sealed_of_resolveRef (List.forall_mem_singleton.mpr (by decide)) hl h)

theorem single_of_resolveRefs
    (hl : ∀ e ∈ l.defs.entries, isIdentifier (l.typeName e.1) = true) :
    ∀ {refs types : List String}, resolveRefs l location refs = .ok types →
      ∀ t ∈ types, Single t.toList
  | [], _, h => by
    cases h
    simp
  | reference :: rest, _, h => by
    obtain ⟨type, htype, h⟩ := bind_eq_ok_iff.mp h
    obtain ⟨others, hothers, h⟩ := bind_eq_ok_iff.mp h
    rw [← pure_eq_ok_iff.mp h, List.forall_mem_cons]
    exact ⟨single_of_resolveRef hl htype, single_of_resolveRefs hl hothers⟩

theorem sealed_of_resolvesTo
    (hl : ∀ e ∈ l.defs.entries, isIdentifier (l.typeName e.1) = true) {ms : List Mention}
    {texts : List String} (h : ResolvesTo l ms texts) :
    ∀ t ∈ texts, Sealed memberEnds t.toList := by
  intro t ht
  rcases h.basic_or_stands t ht with hbasic | ⟨m, -, hm⟩
  · exact hbasic.sealed
  · exact sealed_of_resolveRef (List.forall_mem_singleton.mpr (by decide)) hl hm

theorem sealed_of_resolve
    (hl : ∀ e ∈ l.defs.entries, isIdentifier (l.typeName e.1) = true) {s : Schema} {shape : Shape}
    (h : resolve l location s = .ok shape) : Sealed memberEnds shape.inline.toList :=
  sealed_inline (sealed_of_resolvesTo hl (resolvesTo_resolve h))

theorem bracketed_of_resolve
    (hl : ∀ e ∈ l.defs.entries, isIdentifier (l.typeName e.1) = true) {s : Schema} {shape : Shape}
    (h : resolve l location s = .ok shape) : Bracketed shape.inline.toList :=
  (sealed_of_resolve hl h).toBracketed

theorem RendersUnion.reference_eq_none {s : Schema} {types : List String}
    (h : RendersUnion l location s types) : s.reference? = none := by
  cases h with
  | references href => exact href
  | literals href => exact href

theorem not_needsParentheses_of_keyword {s : Schema}
    (h : s.facets.keyword ∉ [some .union, some .string, some .integer, some .number]) :
    ¬ NeedsParentheses l location s := by
  rintro ⟨types, hunion, -⟩
  cases hunion with
  | references _ hkeyword => simp [hkeyword] at h
  | literals _ hkeyword => exact h (List.mem_cons_of_mem _ hkeyword)

/-- **When the text of a schema has a bar at its top**: if it is a union of different types. -/
theorem barAtTop_inline_iff
    (hl : ∀ e ∈ l.defs.entries, isIdentifier (l.typeName e.1) = true) {s : Schema} {shape : Shape}
    (h : resolve l location s = .ok shape) :
    barAtTop {} shape.inline.toList = true ↔ NeedsParentheses l location s := by
  obtain ⟨f, ps, it⟩ := s
  have hall := sealed_of_resolvesTo hl (resolvesTo_resolve h)
  unfold resolve at h
  split at h
  · next reference href =>
    obtain ⟨type, htype, rfl⟩ := map_eq_ok_iff.mp h
    rw [Shape.inline, (single_of_resolveRef hl htype).noBar]
    refine iff_of_false (by simp) ?_
    rintro ⟨types, hunion, -⟩
    exact absurd (href.symm.trans hunion.reference_eq_none) (by simp)
  · next href =>
    split at h
    · next hkeyword =>
      obtain ⟨item, -, rfl⟩ := map_eq_ok_iff.mp h
      rw [Shape.texts] at hall
      rw [Shape.inline, (single_arrayOf (sealed_inline hall).toBracketed).noBar]
      refine iff_of_false (by simp) (not_needsParentheses_of_keyword ?_)
      simp [Schema.facets, hkeyword]
    · next hkeyword =>
      obtain ⟨types, htypes, rfl⟩ := map_eq_ok_iff.mp h
      rw [Shape.inline, unionText,
        barAtTop_textOr_ofTypes_iff (single_of_resolveRefs hl htypes) single_anyType]
      constructor
      · exact fun hdiff => ⟨types, .references href hkeyword htypes, hdiff⟩
      · rintro ⟨types', hunion, hdiff⟩
        cases hunion with
        | references _ _ htypes' => exact Except.ok.inj (htypes'.symm.trans htypes) ▸ hdiff
        | literals _ hmem => simp [Schema.facets, hkeyword] at hmem
    · next harray hunion =>
      split at h
      · next hshape =>
        obtain ⟨properties, -, rfl⟩ := map_eq_ok_iff.mp h
        rw [Shape.texts] at hall
        rw [(single_inline_object hall).noBar]
        refine iff_of_false (by simp) (not_needsParentheses_of_keyword ?_)
        simp only [Schema.isShape, Schema.isObject, Bool.and_eq_true, Bool.or_eq_true,
          Option.isNone_iff_eq_none, beq_iff_eq, Schema.facets] at hshape
        rcases hshape.2 with hkeyword | hkeyword | hkeyword <;> simp [Schema.facets, hkeyword]
      · next hshape =>
        cases h
        rw [Shape.inline, barAtTop_leafType_iff]
        constructor
        · rintro ⟨hmem, hconst, hdiff⟩
          exact ⟨_, .literals href hmem hconst, hdiff⟩
        · rintro ⟨types, hrenders, hdiff⟩
          cases hrenders with
          | references _ hkeyword => exact absurd hkeyword hunion
          | literals _ hmem hconst => exact ⟨hmem, hconst, hdiff⟩

end Schemas

/-! ### Texts inside of texts -/

theorem infix_intercalate {sep t : String} : ∀ {ts : List String}, t ∈ ts →
    t.toList <:+: (sep.intercalate ts).toList
  | [u], h => by
    rw [List.mem_singleton.mp h, String.intercalate_singleton]
  | u :: v :: ts, h => by
    rw [String.intercalate_cons_cons, String.toList_append, String.toList_append]
    rcases List.mem_cons.mp h with rfl | h
    · rw [List.append_assoc]
      exact (List.prefix_append _ _).isInfix
    · exact (infix_intercalate h).trans (List.suffix_append _ _).isInfix

theorem infix_inlineObject {members : List Member} {m : Member} (hm : m ∈ members) :
    m.type.toList <:+: (inlineObject members).toList := by
  have hsignature : m.type.toList <:+: m.signature.toList := by
    rw [Member.signature, String.toList_append]
    exact (List.suffix_append _ _).isInfix
  have hall : m.signature.toList <:+: ("; ".intercalate (members.map Member.signature)).toList :=
    infix_intercalate (List.mem_map_of_mem hm)
  unfold inlineObject
  rw [if_neg (by simp [List.ne_nil_of_mem hm]), String.toList_append, String.toList_append]
  exact (hsignature.trans hall).trans (List.infix_append _ _ _)

theorem infix_arrayOf (item : String) : item.toList <:+: (arrayOf item).toList := by
  unfold arrayOf
  split
  · rw [String.toList_append, String.toList_append]
    exact List.infix_append _ _ _
  · rw [String.toList_append]
    exact (List.prefix_append _ _).isInfix

mutual

/-- The text of a part stands in the text of the whole. -/
theorem inline_infix_of_mem_parts {u : Shape} : ∀ {s : Shape}, u ∈ s.parts →
    u.inline.toList <:+: s.inline.toList
  | .text _, h => by
    rw [Shape.parts, List.mem_singleton] at h
    rw [h]
  | .union _, h => by
    rw [Shape.parts, List.mem_singleton] at h
    rw [h]
  | .array item, h => by
    rw [Shape.parts, List.mem_cons] at h
    rcases h with rfl | h
    · exact List.infix_refl _
    · rw [Shape.inline]
      exact (inline_infix_of_mem_parts h).trans (infix_arrayOf _)
  | .object _ properties, h => by
    rw [Shape.parts, List.mem_cons] at h
    rcases h with rfl | h
    · exact List.infix_refl _
    · obtain ⟨m, hm, hinfix⟩ := exists_member_of_mem_partsOf h
      rw [Shape.inline]
      exact hinfix.trans (infix_inlineObject (mem_requiredFirst.mpr hm))

theorem exists_member_of_mem_partsOf {u : Shape} : ∀ {ps : List (Property × Shape)},
    u ∈ Shape.partsOf ps → ∃ m ∈ Shape.inlineMembers ps, u.inline.toList <:+: m.type.toList
  | (p, s) :: rest, h => by
    rw [Shape.partsOf, List.mem_append] at h
    rw [Shape.inlineMembers, List.exists_mem_cons_iff]
    exact h.imp inline_infix_of_mem_parts exists_member_of_mem_partsOf

end

/-! ### Schemas inside of schemas -/

/-- The schemas that are met in a schema on the way through its items and properties, with the
locations where they are met. -/
inductive Inside (outer : String) (s : Schema) : String → Schema → Prop where
  | self : Inside outer s outer s
  | items {location : String} {t item : Schema} : Inside outer s location t →
    t.reference? = none → t.facets.keyword = some .array → t.items = some item →
    Inside outer s (location ++ "[]") item
  | property {location name : String} {t p : Schema} : Inside outer s location t →
    t.reference? = none → t.isShape = true → (name, p) ∈ t.properties →
    Inside outer s (location ++ "." ++ name) p

section Arrays

variable {l : Lexicon} {location : String}

theorem resolve_array {s : Schema} (href : s.reference? = none)
    (hkeyword : s.facets.keyword = some .array) :
    resolve l location s = Shape.array <$> resolveItems l (location ++ "[]") s.items := by
  obtain ⟨f, ps, it⟩ := s
  have href : (f.dollarRef <|> f.ref) = none := href
  have hkeyword : f.keyword = some .array := hkeyword
  simp only [resolve, href, hkeyword, Schema.items]

theorem resolve_of_isShape {s : Schema} (href : s.reference? = none) (hshape : s.isShape = true) :
    resolve l location s = Shape.object (docOf s.description) <$>
      resolveProperties l location s.facets.required s.properties := by
  obtain ⟨f, ps, it⟩ := s
  have hnone : (f.dollarRef <|> f.ref) = none := href
  have hkeyword : f.keyword = none ∨ f.keyword = some .object ∨ f.keyword = some .params := by
    simp only [Schema.isShape, Schema.isObject, Bool.and_eq_true, Bool.or_eq_true,
      Option.isNone_iff_eq_none, beq_iff_eq] at hshape
    exact hshape.2
  rcases hkeyword with hkeyword | hkeyword | hkeyword
  all_goals
    simp only [resolve, hnone, hkeyword, hshape, if_true]
    rfl

theorem exists_of_mem_properties {name : String} {s : Schema} {required : List String} :
    ∀ {ps : List (String × Schema)} {properties : List (Property × Shape)},
      resolveProperties l location required ps = .ok properties → (name, s) ∈ ps →
      ∃ shape, resolve l (location ++ "." ++ name) s = .ok shape ∧
        shape ∈ Shape.partsOf properties
  | (other, t) :: rest, properties, h, hmem => by
    rw [resolveProperties] at h
    obtain ⟨shape, hshape, h⟩ := bind_eq_ok_iff.mp h
    obtain ⟨others, hothers, h⟩ := bind_eq_ok_iff.mp h
    rw [← pure_eq_ok_iff.mp h, Shape.partsOf]
    rcases List.mem_cons.mp hmem with heq | hmem
    · cases heq
      exact ⟨shape, hshape, List.mem_append_left _ (Shape.mem_parts_self shape)⟩
    · obtain ⟨found, hfound, hpart⟩ := exists_of_mem_properties hothers hmem
      exact ⟨found, hfound, List.mem_append_right _ hpart⟩

/-- A schema inside of another is resolved along with it, and its shape is a part of the other's. -/
theorem exists_part_of_inside {outer : String} {s t : Schema} {whole : Shape}
    (h : resolve l outer s = .ok whole) (hin : Inside outer s location t) :
    ∃ part, resolve l location t = .ok part ∧ part ∈ whole.parts := by
  induction hin with
  | self => exact ⟨whole, h, whole.mem_parts_self⟩
  | items _ href hkeyword hitems ih =>
    obtain ⟨part, hpart, hmem⟩ := ih
    rw [resolve_array href hkeyword, hitems] at hpart
    obtain ⟨item, hitem, rfl⟩ := map_eq_ok_iff.mp hpart
    rw [resolveItems] at hitem
    refine ⟨item, hitem, Shape.mem_parts_trans ?_ hmem⟩
    rw [Shape.parts]
    exact List.mem_cons_of_mem _ item.mem_parts_self
  | property _ href hshape hp ih =>
    obtain ⟨part, hpart, hmem⟩ := ih
    rw [resolve_of_isShape href hshape] at hpart
    obtain ⟨properties, hproperties, rfl⟩ := map_eq_ok_iff.mp hpart
    obtain ⟨shape, hok, hparts⟩ := exists_of_mem_properties hproperties hp
    refine ⟨shape, hok, Shape.mem_parts_trans ?_ hmem⟩
    rw [Shape.parts]
    exact List.mem_cons_of_mem _ hparts

/-- The items of an array are written as a union of at least two different types. -/
def ItemsNeedParentheses (l : Lexicon) (location : String) : Option Schema → Prop
  | none => False
  | some s => NeedsParentheses l location s

/-- The text of an array whose items have a text. -/
inductive ArrayText (needed : Prop) (item : String) : String → Prop where
  | parenthesized : needed → ArrayText needed item ("(" ++ item ++ ")[]")
  | bare : ¬ needed → ArrayText needed item (item ++ "[]")

theorem arrayText_arrayOf {needed : Prop} {item : String}
    (h : barAtTop {} item.toList = true ↔ needed) : ArrayText needed item (arrayOf item) := by
  unfold arrayOf
  split
  · next hbar => exact .parenthesized (h.mp hbar)
  · next hbar => exact .bare fun hneeded => hbar (h.mpr hneeded)

theorem barAtTop_items_iff
    (hl : ∀ e ∈ l.defs.entries, isIdentifier (l.typeName e.1) = true) {items : Option Schema}
    {shape : Shape} (h : resolveItems l location items = .ok shape) :
    barAtTop {} shape.inline.toList = true ↔ ItemsNeedParentheses l location items := by
  cases items with
  | none =>
    cases h
    rw [Shape.inline, single_anyType.noBar]
    simp [ItemsNeedParentheses]
  | some s =>
    rw [resolveItems] at h
    exact barAtTop_inline_iff hl h

theorem typeText_inPlace_eq {owner name text : String} {s : Schema} {c c' : Collected} :
    typeText l .inPlace owner name location s c = .ok (text, c') ↔
      ∃ shape, resolve l location s = .ok shape ∧ shape.inline = text ∧ c = c' := by
  rw [typeText_eq, follow, map_eq_ok_iff]
  simp only [Pass.text, Pass.after, Prod.mk.injEq]

theorem itemText_inPlace_eq {owner name text : String} {items : Option Schema} {c c' : Collected} :
    itemText l .inPlace owner name location items c = .ok (text, c') ↔
      ∃ shape, resolveItems l location items = .ok shape ∧ shape.inline = text ∧ c = c' := by
  rw [itemText_eq, follow, map_eq_ok_iff]
  simp only [Pass.text, Pass.after, Prod.mk.injEq]

/-- **Type texts are bracketed, and arrays bind to their whole item.** Where all type names are
identifiers, an inline text is bracketed, and it has a bar at its top exactly if the schema is a
union of two different types. Every array inside of the schema is written there with its item in
parentheses if the item is such a union, and bare otherwise. -/
theorem parentheses_typeText
    (hl : ∀ e ∈ l.defs.entries, isIdentifier (l.typeName e.1) = true) {owner name text : String}
    {s : Schema} {c c' : Collected}
    (h : typeText l .inPlace owner name location s c = .ok (text, c')) :
    Bracketed text.toList ∧
    (barAtTop {} text.toList = true ↔ NeedsParentheses l location s) ∧
    ∀ inner t, Inside location s inner t → t.reference? = none →
      t.facets.keyword = some .array → ∃ item array,
        (∀ owner name c,
          itemText l .inPlace owner name (inner ++ "[]") t.items c = .ok (item, c)) ∧
        (∀ owner name c, typeText l .inPlace owner name inner t c = .ok (array, c)) ∧
        ArrayText (ItemsNeedParentheses l (inner ++ "[]") t.items) item array ∧
        array.toList <:+: text.toList := by
  obtain ⟨shape, hshape, rfl, -⟩ := typeText_inPlace_eq.mp h
  refine ⟨bracketed_of_resolve hl hshape, barAtTop_inline_iff hl hshape,
    fun inner t hin href hkeyword => ?_⟩
  obtain ⟨part, hpart, hmem⟩ := exists_part_of_inside hshape hin
  obtain ⟨item, hitem, rfl⟩ := map_eq_ok_iff.mp (resolve_array href hkeyword ▸ hpart)
  refine ⟨item.inline, (Shape.array item).inline,
    fun _ _ _ => itemText_inPlace_eq.mpr ⟨item, hitem, rfl, rfl⟩,
    fun _ _ _ => typeText_inPlace_eq.mpr ⟨_, hpart, rfl, rfl⟩, ?_, inline_infix_of_mem_parts hmem⟩
  rw [Shape.inline]
  exact arrayText_arrayOf (barAtTop_items_iff hl hitem)

end Arrays

/-- A list of what may be a person or something else. -/
def owners : Schema :=
  listSchema ⟨{ keyword := some .union, refs := ["#person", "com.example.other"] }, [], none⟩

/-- An object with a list of unions, and with a list of lists of literals in which bars, quotes and
brackets stand. -/
def ownedSchema : Schema :=
  objectSchema [("owners", owners),
    ("it's|", listSchema (listSchema ⟨{
      keyword := some .string
      literals := [.string "a'|(", .string "\\", .string "a'|("] }, [], none⟩))]

theorem parentheses_ownedSchema :
    (∀ e ∈ linkedNotes.defs.entries, isIdentifier (linkedNotes.typeName e.1) = true) ∧
    typeText linkedNotes .inPlace "Note" "owned" "main.owned" ownedSchema {} =
      .ok ("\x7b owners?: (Person | any)[]; 'it\\'s|'?: ('a\\'|(' | '\\\\')[][] \x7d", {}) ∧
    ∃ location item array, Inside "main.owned" ownedSchema location owners ∧
      typeText linkedNotes .inPlace "Note" "owners" location owners {} = .ok (array, {}) ∧
      ArrayText (ItemsNeedParentheses linkedNotes (location ++ "[]") owners.items) item array := by
  have hnames : ∀ e ∈ linkedNotes.defs.entries,
      isIdentifier (linkedNotes.typeName e.1) = true := by decide
  have htext : typeText linkedNotes .inPlace "Note" "owned" "main.owned" ownedSchema {} =
      .ok ("\x7b owners?: (Person | any)[]; 'it\\'s|'?: ('a\\'|(' | '\\\\')[][] \x7d", {}) := by
    rfl
  have hinside : Inside "main.owned" ownedSchema ("main.owned" ++ "." ++ "owners") owners :=
    .property .self rfl rfl List.mem_cons_self
  obtain ⟨item, array, -, harray, htexts, -⟩ :=
    (parentheses_typeText hnames htext).2.2 _ _ hinside rfl rfl
  exact ⟨hnames, htext, _, item, array, hinside, harray _ _ _, htexts⟩

end Lexgen.Types
