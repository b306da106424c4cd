/-
# What the labels of a refused lexicon point at

Four kinds of errors are about an entry of the document: its version, its id, its definitions or one
definition. They are labelled at the place where the search for the entry's name comes to rest, and
this is the entry's own key only if nothing in the name has to be escaped. For nearly all such names
it is the end of the first key that ends with the quoted name, and so the entry's own key just if
that one comes first and is written without escapes (`marks_parse`). If not, the label may be on a
key deep inside of another definition.

Key definitions: `Entry`, `Error.entry?`, `Marks`.
Key theorems: `refused_of_parse`, `body_of_keySpan?`, `keySpan?_eq_spanOf_iff`, `marks_parse`.
-/
import Lexgen.Proofs.Lexicon.Search
import Lexgen.Lexicon.Basic
import Mathlib.Data.List.Pairwise

namespace Lexgen.Lexicon

open Lexgen.Json Lexgen.Data Lexgen.Text

/-! ### Entries of a document -/

/-- An entry of a document: the names that lead from the root to its object, and its own name. -/
structure Entry where
  objects : List String
  name : String
deriving DecidableEq, Repr

/-- The names that lead from the root to an entry. -/
def Entry.path (entry : Entry) : List String := entry.objects ++ [entry.name]

/-- The entry that an error is about. -/
def Error.entry? : Error → Option Entry
  | .unsupportedVersion .. => some ⟨[], "lexicon"⟩
  | .missingId .. => some ⟨[], "id"⟩
  | .missingDefs .. => some ⟨[], "defs"⟩
  | .invalidDefinition name .. => some ⟨["defs"], name⟩
  | _ => none

/-- The range of a key, its quotes included. -/
def spanOf (k : Key) : Span := ⟨k.offset, k.size⟩

/-- What the label of an error about an entry is, in a text that holds a value. -/
structure Marks (text : String) (root : Value) (entry : Entry) (span : Option Span) : Prop where
  /-- The entry has a key of its own exactly if the value has the entry. -/
  key : (keyAt? (keysOf text) [] entry.path).isSome = (root.at? entry.path).isSome
  /-- An entry of an object inside of the root is there. -/
  inner : entry.objects ≠ [] → (root.at? entry.path).isSome
  /-- The label is where the search for the quoted name comes to rest, and is missing if it does
  not. -/
  place : ∀ s, span = some s ↔ ∃ front, Rests (inQuotes entry.name) text.toList front ∧
    s = ⟨byteSize front, byteSize (inQuotes entry.name)⟩
  /-- A place where the quoted name stands with a colon behind is not in front of the label, unless
  it overlaps one that has no colon behind. -/
  earliest : ∀ front, Stands (inQuotes entry.name) text.toList front true →
    Overlapped (inQuotes entry.name) text.toList front ∨
      ∃ s, span = some s ∧ s.offset ≤ byteSize front
  /-- The label is the entry's own key only if this looks like the name, so that nothing in the name
  has to be escaped. -/
  plain : ∀ k, keyAt? (keysOf text) [] entry.path = some k → span = some (spanOf k) →
    k.body = entry.name.toList ∧ ∀ c ∈ entry.name.toList, c ≠ '"' ∧ c ≠ '\\'
  /-- The label is the end of the first key that ends with the quoted name, if the name can be
  found. -/
  first : Findable entry.name → span = (firstEnding? text entry.name).map (endingSpan entry.name)
  /-- Then it is the entry's own key exactly if this is the first key that ends with the quoted
  name, and is written without escapes. -/
  own : Findable entry.name → ∀ k, keyAt? (keysOf text) [] entry.path = some k →
    (span = some (spanOf k) ↔ firstEnding? text entry.name = some k ∧ k.body = entry.name.toList)

/-! ### Refused texts -/

/-- Reading the members of an object adds no names of its own. -/
theorem mem_of_mem_ofList {α : Type} {x : String} (es : List (String × α)) :
    ∀ t : Ordered α, x ∈ (es.foldl (fun t e => t.put e.1 e.2) t).names →
      x ∈ t.names ∨ x ∈ es.map Prod.fst := by
  induction es with
  | nil => exact fun t h => .inl h
  | cons e es ih =>
    intro t h
    rcases ih _ h with h | h
    · rcases (mem_names_putEntry e.1 e.2 x t.entries).mp h with rfl | h
      · exact .inr (by simp)
      · exact .inl h
    · exact .inr (List.mem_cons_of_mem _ h)

/-- A definition that does not classify is one of the document, and the search is for its name. -/
theorem invalidDefinition_of_classifyAll {source : String} {e : Error} :
    ∀ {raw : List (String × Value)}, classifyAll source raw = .error e →
      ∃ name reason, e = .invalidDefinition name reason (keySpan? source name) ∧
        name ∈ raw.map Prod.fst
  | (name, v) :: raw, h => by
    unfold classifyAll at h
    split at h
    · next reason _ =>
      cases h
      exact ⟨name, reason, rfl, by simp⟩
    · cases hrest : classifyAll source raw with
      | ok defs =>
        rw [hrest] at h
        cases h
      | error e' =>
        rw [hrest] at h
        cases h
        obtain ⟨name', reason, rfl, hmem⟩ := invalidDefinition_of_classifyAll hrest
        exact ⟨name', reason, rfl, List.mem_cons_of_mem _ hmem⟩

/-- What is labelled when a text is refused over an entry. -/
structure Refused (text : String) (e : Error) (entry : Entry) (root : Value) : Prop where
  parsed : Json.parse text = .ok root
  span : e.label?.map Label.span = keySpan? text entry.name
  inner : entry.objects ≠ [] → (root.at? entry.path).isSome

/-- An error about an entry of the root is labelled where the search finds its name. -/
theorem Refused.of_root {text name : String} {e : Error} {root : Value}
    (hroot : Json.parse text = .ok root)
    (hspan : e.label?.map Label.span = keySpan? text name) : Refused text e ⟨[], name⟩ root :=
  ⟨hroot, hspan, fun h => absurd rfl h⟩

/-- A document is refused over an entry of its root. -/
theorem refused_of_document {text : String} {e : Error} {entry : Entry}
    (h : Document.parse text = .error e) (he : e.entry? = some entry) :
    ∃ root, Refused text e entry root := by
  unfold Document.parse at h
  cases hroot : Json.parse text with
  | error fault =>
    rw [hroot] at h
    cases h
    cases he
  | ok root =>
    rw [hroot] at h
    dsimp only [Except.mapError, bind, Except.bind] at h
    refine ⟨root, ?_⟩
    split at h
    · cases h
      cases he
      refine .of_root hroot ?_
      cases hspan : keySpan? text "lexicon" <;> rfl
    · split at h
      · cases h
        cases he
        refine .of_root hroot ?_
        cases hspan : keySpan? text "id" <;> rfl
      · split at h
        · cases h
          cases he
          refine .of_root hroot ?_
          cases hspan : keySpan? text "defs" <;> rfl
        · cases h

/-- The definitions of a document are the members of an object of its root. -/
theorem member_of_defs? {root : Value} {members : List (String × Value)}
    (h : Document.defs? root = some members) : root.member? "defs" = some (.object members) := by
  unfold Document.defs? at h
  split at h
  · next members' hmember =>
    split at h
    · cases h
    · cases h
      exact hmember
  · cases h

/-- **A text is refused over an entry** of its root, or over a definition that it has. -/
theorem refused_of_parse {text : String} {e : Error} {entry : Entry}
    (h : Lexicon.parse text = .error e) (he : e.entry? = some entry) :
    ∃ root, Refused text e entry root := by
  unfold Lexicon.parse at h
  cases hdoc : Document.parse text with
  | error e' =>
    rw [hdoc] at h
    cases h
    exact refused_of_document hdoc he
  | ok doc =>
    rw [hdoc] at h
    dsimp only [bind, Except.bind] at h
    obtain ⟨root, id, members, hroot, -, -, hdefs, rfl⟩ := Document.parse_eq_ok_iff.mp hdoc
    have hmember := member_of_defs? hdefs
    unfold Lexicon.ofDocument at h
    split at h
    · next e' hclassify =>
      cases h
      obtain ⟨name, reason, rfl, hname⟩ := invalidDefinition_of_classifyAll hclassify
      cases he
      have hmem : name ∈ members.map Prod.fst :=
        (mem_of_mem_ofList members .empty hname).resolve_left
          (by simp [Ordered.names, Ordered.empty])
      refine ⟨root, hroot, ?_, fun _ => ?_⟩
      · cases hspan : keySpan? text name <;> rfl
      · obtain ⟨⟨x, v⟩, hv, rfl⟩ := List.mem_map.mp hmem
        obtain ⟨w, hw⟩ := Option.isSome_iff_exists.mp
          (List.lookup_isSome_iff.mpr ⟨(x, v), hv, beq_self_eq_true x⟩)
        have hat : root.at? ["defs", x] = some w :=
          calc root.at? ["defs", x]
              = (root.member? "defs").bind (·.at? [x]) := rfl
            _ = (members.lookup x).bind (·.at? []) := by
              rw [hmember]
              rfl
            _ = some w := by
              rw [hw]
              rfl
        exact Option.isSome_of_mem hat
    · cases h

/-! ### The entry's own key -/

/-- The key of an entry is one of the document, and stands for the last name of the path. -/
theorem of_keyAt?_eq_some {ks : List Key} {k : Key} : ∀ {around : List Frame} {path : List String},
    keyAt? ks around path = some k → k ∈ ks ∧ k.name? = path.getLast?
  | _, [], h => by cases h
  | _, [name], h => by
    obtain ⟨hk, -, hname⟩ := of_lastKey?_eq_some h
    exact ⟨hk, hname⟩
  | _, name :: next :: path, h => by
    rw [keyAt?] at h
    obtain ⟨d, -, hd⟩ := Option.bind_eq_some_iff.mp h
    rw [List.getLast?_cons_cons]
    exact of_keyAt?_eq_some hd

theorem Entry.getLast?_path (entry : Entry) : entry.path.getLast? = some entry.name :=
  List.getLast?_concat

/-- Two keys of a document are the same, or one stands behind the other. -/
theorem separated_keysOf {text : String} {root : Value} (h : Json.parse text = .ok root)
    {k l : Key} (hk : k ∈ keysOf text) (hl : l ∈ keysOf text) :
    k = l ∨ k.offset + k.size ≤ l.offset ∨ l.offset + l.size ≤ k.offset := by
  obtain ⟨⟨size, hpasses⟩, -⟩ := passes_of_parse h
  obtain ⟨-, -, hpairs⟩ := hpasses.separated
  let apart (k l : Key) : Prop :=
    k = l ∨ k.offset + k.size ≤ l.offset ∨ l.offset + l.size ≤ k.offset
  have hapart : (keysOf text).Pairwise apart := hpairs.imp fun h => .inr (.inl h)
  have hflip : (keysOf text).Pairwise (flip apart) := hpairs.imp fun h => .inr (.inr h)
  exact hapart.forall_of_forall_of_flip (fun _ _ => .inl rfl) hflip hk hl

theorem inQuotes_eq_written_iff {name : String} {k : Key} :
    inQuotes name = k.written ↔ name.toList = k.body := by
  simp [inQuotes, Key.written]

theorem written_of_size {name : String} {k : Key} (hends : endsWith name k)
    (hsize : k.size ≤ byteSize (inQuotes name)) : k.body = name.toList := by
  obtain ⟨front, hfront⟩ := of_decide_eq_true hends
  rw [← Key.byteSize_written, ← hfront, byteSize_append] at hsize
  have hempty : front = [] := byteSize_eq_zero_iff.mp (by omega)
  subst hempty
  exact (inQuotes_eq_written_iff.mp hfront).symm

/-- The end of a key with a quoted name is a whole key just if it is all of it. -/
theorem endingSpan_eq_iff {text name : String} {root : Value}
    (h : Json.parse text = .ok root) {k l : Key} (hk : k ∈ keysOf text) (hl : l ∈ keysOf text)
    (hends : endsWith name l) : endingSpan name l = spanOf k ↔ l = k ∧ k.body = name.toList := by
  have hle : byteSize (inQuotes name) ≤ l.size := by
    rw [← Key.byteSize_written]
    exact byteSize_le_of_suffix (of_decide_eq_true hends)
  constructor
  · intro heq
    injection heq with hoffset hsize
    have hpos : 2 ≤ k.size := Nat.le_add_left 2 _
    have hsame : l = k := by
      rcases separated_keysOf h hl hk with hsame | hbefore | hbehind
      · exact hsame
      · omega
      · omega
    subst hsame
    exact ⟨rfl, written_of_size hends (Nat.le_of_eq hsize.symm)⟩
  · rintro ⟨rfl, hbody⟩
    have hsize : byteSize (inQuotes name) = l.size := by
      rw [← Key.byteSize_written, Key.written, hbody]
      rfl
    rw [endingSpan, spanOf, hsize, Nat.sub_self, Nat.add_zero]

/-- The search comes to rest at a whole key only if this is the name in quotes. -/
theorem body_of_keySpan? {text name : String} {root : Value} (h : Json.parse text = .ok root)
    {k : Key} (hk : k ∈ keysOf text) (hspan : keySpan? text name = some (spanOf k)) :
    k.body = name.toList := by
  obtain ⟨⟨size, hpasses⟩, -⟩ := passes_of_parse h
  obtain ⟨front, rest, htext, hoffset⟩ := hpasses.standsIn k hk
  obtain ⟨front', hrests, hsame⟩ := keySpan?_eq_some_iff.mp hspan
  obtain ⟨rest', htext', -⟩ := hrests.stands
  injection hsame with hstart hsize
  -- both stand behind the same number of bytes and have the same number of bytes
  have hfront : byteSize front = byteSize front' := by
    dsimp only at hoffset
    omega
  obtain ⟨-, hbehind⟩ := eq_of_byteSize_eq (htext.symm.trans htext') hfront
  obtain ⟨hwritten, -⟩ := eq_of_byteSize_eq hbehind (k.byteSize_written.trans hsize)
  exact (inQuotes_eq_written_iff.mp hwritten.symm).symm

/-- The search for a name that can be found comes to rest at a whole key just if this is the first
that ends with the quoted name, and is all of it. -/
theorem keySpan?_eq_spanOf_iff {text name : String} {root : Value} (hname : Findable name)
    (h : Json.parse text = .ok root) {k : Key} (hk : k ∈ keysOf text) :
    keySpan? text name = some (spanOf k) ↔
      firstEnding? text name = some k ∧ k.body = name.toList := by
  rw [keySpan?_eq hname h]
  cases hl : firstEnding? text name with
  | none => simp
  | some l =>
    have hmem : l ∈ keysOf text := List.mem_of_find?_eq_some hl
    have hends : endsWith name l := List.find?_some hl
    rw [Option.map_some, Option.some_inj, Option.some_inj]
    exact endingSpan_eq_iff h hk hmem hends

/-- **What labels point at**: if a text is refused over an entry, the label is where the search for
its name comes to rest, and it is the entry's own key only if this needs no escapes. For a name that
can be found the label is the end of the first key that ends with the quoted name, and it is the
entry's own key exactly if this comes first and is written without escapes. -/
theorem marks_parse {text : String} {e : Error} {entry : Entry}
    (h : Lexicon.parse text = .error e) (he : e.entry? = some entry) :
    ∃ root, Json.parse text = .ok root ∧ Marks text root entry (e.label?.map Label.span) := by
  obtain ⟨root, hroot, hspan, hinner⟩ := refused_of_parse h he
  have hpath : entry.path ≠ [] := by simp [Entry.path]
  rw [hspan]
  refine ⟨root, hroot, ?_⟩
  constructor
  case key => exact (passes_of_parse hroot).2 _ hpath
  case inner => exact hinner
  case place => exact fun s => keySpan?_eq_some_iff
  case earliest =>
    intro front hstands
    refine (hstands.rests_or_overlapped inQuotes_ne_nil).imp_right ?_
    rintro ⟨first, hrests, hle⟩
    exact ⟨_, keySpan?_eq_some_iff.mpr ⟨first, hrests, rfl⟩, byteSize_le_of_prefix hle⟩
  case plain =>
    intro k hk hlabel
    obtain ⟨hmem, hname⟩ := of_keyAt?_eq_some hk
    have hbody := body_of_keySpan? hroot hmem hlabel
    exact ⟨hbody, Key.plain_of_name? (hname.trans entry.getLast?_path) hbody⟩
  case first => exact fun hname => keySpan?_eq hname hroot
  case own => exact fun hname k hk => keySpan?_eq_spanOf_iff hname hroot (of_keyAt?_eq_some hk).1

/-! ### A definition with the name of a property -/

/-- The entry over which a text is refused. -/
def refusedOver? (text : String) : Option Entry :=
  match Lexicon.parse text with
  | .error e => e.entry?
  | .ok _ => none

theorem exists_error_of_refusedOver? {text : String} {entry : Entry}
    (h : refusedOver? text = some entry) :
    ∃ e, Lexicon.parse text = .error e ∧ e.entry? = some entry := by
  unfold refusedOver? at h
  split at h
  · next e he => exact ⟨e, he, h⟩
  · cases h

theorem findable_tag : Findable "tag" :=
  ⟨by simp, by simp [standsBehind, isSpace]⟩

/-- A lexicon with a definition `tag` that is no object, in front of one with a property `tag`. -/
def frontTag : String :=
  "\x7b\"lexicon\": 1, \"id\": \"app.note\", \"defs\": \x7b\"tag\": 5, \"main\": " ++
    "\x7b\"type\": \"object\", \"properties\": \x7b\"tag\": \x7b\x7d\x7d\x7d\x7d\x7d"

theorem marks_frontTag : ∃ e root k, Lexicon.parse frontTag = .error e ∧
    e.entry? = some ⟨["defs"], "tag"⟩ ∧ Findable "tag" ∧
    Marks frontTag root ⟨["defs"], "tag"⟩ (e.label?.map Label.span) ∧
    keyAt? (keysOf frontTag) [] ["defs", "tag"] = some k ∧
    e.label?.map Label.span = some (spanOf k) := by
  have hrefused : refusedOver? frontTag = some ⟨["defs"], "tag"⟩ := by decide +kernel
  obtain ⟨e, hparse, hentry⟩ := exists_error_of_refusedOver? hrefused
  obtain ⟨root, -, hmarks⟩ := marks_parse hparse hentry
  have hkey : keyAt? (keysOf frontTag) [] ["defs", "tag"] =
      some ⟨[.member 33], ['t', 'a', 'g'], 42⟩ := by
    unfold frontTag
    rw [keysOf_ofList_append]
    decide +kernel
  have hfirst : firstEnding? frontTag "tag" = some ⟨[.member 33], ['t', 'a', 'g'], 42⟩ := by
    unfold firstEnding? frontTag
    rw [keysOf_ofList_append]
    decide +kernel
  exact ⟨e, root, _, hparse, hentry, findable_tag, hmarks, hkey,
    (hmarks.own findable_tag _ hkey).mpr ⟨hfirst, rfl⟩⟩

/-- A lexicon with a definition `tag` that is no object, behind one with a property `tag`. -/
def backTag : String :=
  "\x7b\"lexicon\": 1, \"id\": \"app.note\", \"defs\": \x7b\"main\": \x7b\"type\": \"object\", " ++
    "\"properties\": \x7b\"tag\": \x7b\x7d\x7d\x7d, \"tag\": 5\x7d\x7d"

/-- The label is on the key of the property, which stands inside of another definition. -/
theorem label_backTag : ∃ e k l, Lexicon.parse backTag = .error e ∧
    e.entry? = some ⟨["defs"], "tag"⟩ ∧
    keyAt? (keysOf backTag) [] ["defs", "tag"] = some k ∧
    keyAt? (keysOf backTag) [] ["defs", "main", "properties", "tag"] = some l ∧
    e.label?.map Label.span = some (spanOf l) ∧ spanOf l ≠ spanOf k := by
  have hrefused : refusedOver? backTag = some ⟨["defs"], "tag"⟩ := by decide +kernel
  obtain ⟨e, hparse, hentry⟩ := exists_error_of_refusedOver? hrefused
  obtain ⟨root, hroot, hspan, -⟩ := refused_of_parse hparse hentry
  have hown : keyAt? (keysOf backTag) [] ["defs", "tag"] =
      some ⟨[.member 33], ['t', 'a', 'g'], 97⟩ := by
    unfold backTag
    rw [keysOf_ofList_append]
    decide +kernel
  have hproperty : keyAt? (keysOf backTag) [] ["defs", "main", "properties", "tag"] =
      some ⟨[.member 69, .member 42, .member 33], ['t', 'a', 'g'], 84⟩ := by
    unfold backTag
    rw [keysOf_ofList_append]
    decide +kernel
  have hfirst : firstEnding? backTag "tag" =
      some ⟨[.member 69, .member 42, .member 33], ['t', 'a', 'g'], 84⟩ := by
    unfold firstEnding? backTag
    rw [keysOf_ofList_append]
    decide +kernel
  refine ⟨e, _, _, hparse, hentry, hown, hproperty, ?_, by decide⟩
  rw [hspan, keySpan?_eq findable_tag hroot, hfirst]
  decide

end Lexgen.Lexicon
