/-
# Every definition is emitted once

The module of a lexicon is cut into blocks, one for each definition, with the lifted interfaces
behind the last of them. The first block is that of the primary definition; `IsPrimary` describes
that definition by its place in the document (`primary?_eq_some_iff`). The others follow in the
order of the document, none left out and none twice, because the names of definitions are different
(`supporting_of_entries`). What a block consists of is known from the names that the definition
declares: those of an operation are its parts (`endings_of_isOperation`), and all others declare
their own (`isBlock_of_draftsOf`).

Key definitions: `IsPrimary`, `OperationPart`, `OperationPart.isIn`, `IsBlock`, `IsLifted`.
Key theorems: `primary?_eq_some_iff`, `isBlock_of_draftsOf`, `emission_declarations`.
-/
import Lexgen.Proofs.Types.References

namespace Lexgen.Types

open Lexgen.Data Lexgen.Lexicon Lexgen.TypeScript

/-! ### The primary definition -/

/-- The definition called main is the primary one. Where none is called so, it is the first of its
kind in the document, its kind being the highest that the document has. -/
inductive IsPrimary (l : Lexicon) : String × Definition → Prop where
  | main {d : Definition} : (mainName, d) ∈ l.defs.entries → IsPrimary l (mainName, d)
  | first {e : String × Definition} {before after : List (String × Definition)}
    {higher lower : List Kind} :
    (∀ x ∈ l.defs.entries, x.1 ≠ mainName) →
    [.record, .query, .procedure, .subscription] = higher ++ e.2.kind :: lower →
    (∀ x ∈ l.defs.entries, x.2.kind ∉ higher) →
    l.defs.entries = before ++ e :: after → (∀ x ∈ before, x.2.kind ≠ e.2.kind) → IsPrimary l e

theorem get?_mainName_eq_none_iff {l : Lexicon} :
    l.get? mainName = none ↔ ∀ x ∈ l.defs.entries, x.1 ≠ mainName := by
  rw [Lexicon.get?, Ordered.get?, List.lookup_eq_none_iff]
  refine forall₂_congr fun x _ => ?_
  rw [bne_iff_ne, ne_comm]

/-- **Which definition is the primary one.** -/
theorem primary?_eq_some_iff {l : Lexicon} {e : String × Definition} :
    l.primary? = some e ↔ IsPrimary l e := by
  unfold Lexicon.primary?
  cases hmain : l.get? mainName with
  | some d =>
    have hmem := Ordered.get?_eq_some_iff.mp hmain
    constructor
    · rintro ⟨⟩
      exact .main hmem
    · intro h
      cases h with
      | main hmem' =>
        have hd := Ordered.get?_eq_some_iff.mpr hmem'
        rw [Lexicon.get?, hd] at hmain
        rw [Option.some.inj hmain]
      | first hnone => exact absurd rfl (hnone _ hmem)
  | none =>
    have hnone := get?_mainName_eq_none_iff.mp hmain
    constructor
    · intro h
      obtain ⟨higher, kind, lower, hkinds, hfound, hhigher⟩ := List.findSome?_eq_some_iff.mp h
      obtain ⟨hkind, before, after, hentries, hbefore⟩ := List.find?_eq_some_iff_append.mp hfound
      obtain rfl : e.2.kind = kind := by simpa using hkind
      refine .first hnone hkinds (fun x hx hmem => ?_) hentries fun x hx => ?_
      · have hmiss := List.find?_eq_none.mp (hhigher _ hmem) x hx
        simp at hmiss
      · simpa using hbefore x hx
    · intro h
      cases h with
      | main hmem => exact absurd rfl (hnone _ hmem)
      | @first _ before after higher lower _ hkinds hhigher hentries hbefore =>
        refine List.findSome?_eq_some_iff.mpr ⟨higher, e.2.kind, lower, hkinds, ?_, ?_⟩
        · refine List.find?_eq_some_iff_append.mpr ⟨by simp, before, after, hentries, ?_⟩
          intro x hx
          simpa using hbefore x hx
        · intro kind hkind
          refine List.find?_eq_none.mpr fun x hx hsame => hhigher x hx ?_
          rw [beq_iff_eq.mp hsame]
          exact hkind

/-- The definitions beside one of them are those before it and those behind it. -/
theorem supporting_of_entries {l : Lexicon} {e : String × Definition}
    {before after : List (String × Definition)} (h : l.defs.entries = before ++ e :: after) :
    l.supporting e.1 = before ++ after := by
  have hnodup := l.defs.nodup
  rw [h, List.map_append, List.map_cons] at hnodup
  have hother : ∀ x ∈ before ++ after, (x.1 != e.1) = true := by
    intro x hx
    rw [bne_iff_ne]
    rintro hname
    have hnot : e.1 ∉ (before ++ after).map Prod.fst := by
      rw [List.map_append]
      exact (List.nodup_cons.mp (List.nodup_middle.mp hnodup)).1
    exact hnot (List.mem_map.mpr ⟨x, hx, hname⟩)
  rw [List.forall_mem_append] at hother
  rw [Lexicon.supporting, h, List.filter_append, List.filter_cons_of_neg (by simp),
    List.filter_eq_self.mpr hother.1, List.filter_eq_self.mpr hother.2]

/-! ### The parts of operations -/

/-- What an operation can declare. -/
inductive OperationPart where
  | params
  | input
  | output
  | message
  | errors
deriving DecidableEq, Repr

namespace OperationPart

/-- The parts in the order in which they are declared. -/
def inOrder : List OperationPart := [.params, .input, .output, .message, .errors]

/-- What stands behind the type name of an operation in the name of a part. -/
def ending : OperationPart → String
  | .params => "Params"
  | .input => "Input"
  | .output => "Output"
  | .message => "Message"
  | .errors => "Error"

/-- Whether there are parameters with properties. -/
def hasProperties (parameters : Option Schema) : Bool :=
  parameters.any (!·.properties.isEmpty)

/-- Whether a definition has a part: parameters with properties, a body or a message with a schema,
or errors. Each kind of operation has some of the parts only, and what is no operation has none. -/
def isIn : OperationPart → Definition → Bool
  | .params, .query q => hasProperties q.parameters
  | .params, .procedure p => hasProperties p.parameters
  | .params, .subscription s => hasProperties s.parameters
  | .input, .procedure p => (p.input.bind (·.schema)).isSome
  | .output, .query q => (q.output.bind (·.schema)).isSome
  | .output, .procedure p => (p.output.bind (·.schema)).isSome
  | .message, .subscription s => (s.message.bind (·.schema)).isSome
  | .errors, .query q => !q.errors.isEmpty
  | .errors, .procedure p => !p.errors.isEmpty
  | .errors, .subscription s => !s.errors.isEmpty
  | _, _ => false

end OperationPart

/-- The parts that a definition has, in order. -/
def partsIn (d : Definition) : List OperationPart := OperationPart.inOrder.filter (·.isIn d)

section Endings

open OperationPart

/-- The endings of the parts, each if the part is there. -/
theorem map_ending_partsIn (d : Definition) :
    (partsIn d).map ending =
      (if params.isIn d then ["Params"] else []) ++
        ((if input.isIn d then ["Input"] else []) ++
          ((if output.isIn d then ["Output"] else []) ++
            ((if message.isIn d then ["Message"] else []) ++
              (if errors.isIn d then ["Error"] else [])))) := by
  have hcons : ∀ (part : OperationPart) (rest : List OperationPart),
      ((part :: rest).filter (·.isIn d)).map ending =
        (if part.isIn d then [part.ending] else []) ++ (rest.filter (·.isIn d)).map ending := by
    intro part rest
    rw [List.filter_cons]
    split <;> rfl
  rw [partsIn, OperationPart.inOrder]
  simp only [hcons, List.filter_nil, List.map_nil, List.append_nil, ending]

theorem parameterEndings_eq (parameters : Option Schema) :
    parameterEndings parameters = if hasProperties parameters then ["Params"] else [] := by
  cases parameters with
  | none => rfl
  | some s =>
    rw [parameterEndings, hasProperties, Option.any_some]
    cases s.properties.isEmpty <;> rfl

theorem errorEndings_eq (errors : List NamedError) :
    errorEndings errors = if !errors.isEmpty then ["Error"] else [] := by
  rw [errorEndings]
  cases errors.isEmpty <;> rfl

/-- An operation declares its parts. -/
theorem endings_of_isOperation {d : Definition} (h : d.isOperation = true) :
    endings d = (partsIn d).map ending := by
  rw [map_ending_partsIn]
  cases d with
  | record r => cases h
  | query q =>
    simp only [isIn, Bool.false_eq_true, if_false, List.nil_append]
    simp only [endings, parameterEndings_eq, partEndings, errorEndings_eq, List.append_assoc]
    rfl
  | procedure p =>
    simp only [isIn, Bool.false_eq_true, if_false, List.nil_append]
    simp only [endings, parameterEndings_eq, partEndings, errorEndings_eq, List.append_assoc]
    rfl
  | subscription s =>
    simp only [isIn, Bool.false_eq_true, if_false, List.nil_append]
    simp only [endings, parameterEndings_eq, partEndings, errorEndings_eq, List.append_assoc]
    rfl
  | schema s => cases h

end Endings

/-! ### Blocks -/

/-- What a definition puts into the module: an operation one declaration for each of its parts, in
order, and everything else one declaration of its own name. -/
inductive IsBlock (l : Lexicon) (e : String × Definition) : List Declaration → Prop where
  | own {d : Declaration} : e.2.isOperation = false → d.name = l.typeName e.1 → IsBlock l e [d]
  | parts {block : List Declaration} : e.2.isOperation = true →
    block.map Declaration.name = (partsIn e.2).map (fun part => l.typeName e.1 ++ part.ending) →
    IsBlock l e block

@[simp] theorem names_map_write (n : Naming) (drafts : List Draft) :
    (drafts.map (Draft.write n)).map Declaration.name = drafts.map Draft.name := by
  rw [List.map_map]
  exact List.map_congr_left fun d _ => d.name_write n

theorem endings_of_not_isOperation {d : Definition} (h : d.isOperation = false) :
    endings d = [""] := by
  cases d with
  | record r => rfl
  | query q => cases h
  | procedure p => cases h
  | subscription s => cases h
  | schema s => rfl

/-- The drafts of a definition are written as its block. -/
theorem isBlock_of_draftsOf {l : Lexicon} {e : String × Definition} {drafts : List Draft}
    (h : draftsOf l e.1 e.2 = .ok drafts) (n : Naming) :
    IsBlock l e (drafts.map (Draft.write n)) := by
  have hnames := names_map_write n drafts
  rw [names_of_draftsOf h] at hnames
  cases hkind : e.2.isOperation with
  | true =>
    rw [endings_of_isOperation hkind] at hnames
    exact .parts hkind (hnames.trans List.map_map)
  | false =>
    rw [endings_of_not_isOperation hkind, List.map_singleton, String.append_empty] at hnames
    obtain ⟨d, hd, hname⟩ := List.map_eq_singleton_iff.mp hnames
    rw [hd]
    exact .own hkind hname

/-! ### The module -/

/-- An interface that was lifted: that of an anonymous object whose full text occurs at least twice
in the drafts of the lexicon. -/
def IsLifted (l : Lexicon) (i : Interface) : Prop :=
  ∃ drafts o, allDrafts l = .ok drafts ∧ i = (Naming.ofDrafts drafts).interface o ∧
    Shape.object o.doc o.properties ∈ drafts.flatMap Draft.parts ∧
    2 ≤ (drafts.flatMap Draft.parts).countP (·.fullText? == some o.key)

theorem isLifted_of_mem_liftAll {l : Lexicon} {drafts : List Draft} {o : Lifted}
    (h : allDrafts l = .ok drafts) (ho : o ∈ Draft.liftAll (Naming.ofDrafts drafts) [] drafts) :
    IsLifted l ((Naming.ofDrafts drafts).interface o) := by
  refine ⟨drafts, o, h, rfl, mem_parts_of_mem_liftAll ho, ?_⟩
  rw [← countP_occurrences, ← Naming.lookup_ofDrafts_isSome_iff, lookup_key_of_mem_liftAll ho]
  rfl

/-- **Every definition is emitted once, in order.** The module consists of one block for each
definition, that of the primary one first and those of the others in the order of the document, and
of lifted interfaces behind them. -/
theorem emission_declarations {l : Lexicon} {ds : List Declaration}
    (h : declarations l = .ok ds) :
    ∃ primary before after blocks, ∃ lifted : List Interface, IsPrimary l primary ∧
      l.defs.entries = before ++ primary :: after ∧
      List.Forall₂ (fun e block => contribution l e = .ok block ∧ IsBlock l e block)
        (primary :: (before ++ after)) blocks ∧
      ds = blocks.flatten ++ lifted.map Declaration.interface ∧ ∀ i ∈ lifted, IsLifted l i := by
  obtain ⟨drafts, hdrafts, -, -, rfl⟩ := declarations_eq_ok_iff.mp h
  obtain ⟨primary, hprimary, bs, hbs, hflat⟩ := allDrafts_eq_ok_iff.mp hdrafts
  obtain ⟨before, after, hentries⟩ := List.append_of_mem (mem_entries_of_primary? hprimary)
  rw [supporting_of_entries hentries] at hbs
  generalize hn : Naming.ofDrafts drafts = n
  refine ⟨primary, before, after, bs.map (·.map (Draft.write n)),
    (Draft.liftAll n [] drafts).map n.interface, primary?_eq_some_iff.mp hprimary, hentries,
    ?_, ?_, ?_⟩
  · refine List.forall₂_map_right_iff.mpr (hbs.imp fun e block hblock => ⟨?_, ?_⟩)
    · rw [contribution, hdrafts, ← hn]
      change (draftsOf l e.1 e.2 >>= _) = _
      rw [hblock]
      rfl
    · exact isBlock_of_draftsOf hblock n
  · rw [declare, hn, ← List.map_flatten, hflat, List.map_map]
    rfl
  · intro i hi
    obtain ⟨o, ho, rfl⟩ := List.mem_map.mp hi
    rw [← hn] at ho ⊢
    exact isLifted_of_mem_liftAll hdrafts ho

/-- A record of an item with two places of the same kind. -/
def placedItem : Definition :=
  recordOf [("start", objectSchema [("line", textSchema)]),
    ("end", objectSchema [("line", textSchema)])]

/-- A query with all that a query can have. -/
def itemQuery : Definition :=
  .query {
    parameters := some (objectSchema [("limit", textSchema)])
    output := some { schema := some (listSchema textSchema) }
    errors := [⟨"NotFound", none⟩] }

/-- A lexicon without a main definition, in which records stand behind operations. -/
def itemsLexicon : Lexicon :=
  noteLexicon [("status", .schema textSchema), ("list", itemQuery), ("item", placedItem),
    ("put", .procedure { input := some { schema := some textSchema } }), ("other", recordOf [])]

/-- What `itemsLexicon` declares. -/
def itemsModule : List Declaration := [
  .interface ⟨"Item", none, [⟨"$type", "'com.example.note#item'", none, false⟩,
    ⟨"start", "ItemStart", none, true⟩, ⟨"end", "ItemStart", none, true⟩]⟩,
  .alias ⟨"Status", "string", none⟩,
  .interface ⟨"ListParams", none, [⟨"limit", "string", none, true⟩]⟩,
  .alias ⟨"ListOutput", "string[]", none⟩,
  .alias ⟨"ListError", "'NotFound'", none⟩,
  .alias ⟨"PutInput", "string", none⟩,
  .interface ⟨"Other", none, [⟨"$type", "'com.example.note#other'", none, false⟩]⟩,
  .interface ⟨"ItemStart", none, [⟨"line", "string", none, true⟩]⟩]

theorem emission_itemsLexicon : declarations itemsLexicon = .ok itemsModule ∧
    ∃ primary before after blocks, ∃ lifted : List Interface, primary = ("item", placedItem) ∧
      itemsLexicon.defs.entries = before ++ primary :: after ∧
      List.Forall₂ (fun e block => contribution itemsLexicon e = .ok block ∧
        IsBlock itemsLexicon e block) (primary :: (before ++ after)) blocks ∧
      itemsModule = blocks.flatten ++ lifted.map Declaration.interface := by
  have h : declarations itemsLexicon = .ok itemsModule := by rfl
  obtain ⟨primary, before, after, blocks, lifted, hprimary, hentries, hblocks, hds, -⟩ :=
    emission_declarations h
  have hitem : itemsLexicon.primary? = some ("item", placedItem) := by rfl
  rw [primary?_eq_some_iff.mpr hprimary] at hitem
  exact ⟨h, primary, before, after, blocks, lifted, Option.some.inj hitem, hentries, hblocks, hds⟩

end Lexgen.Types
