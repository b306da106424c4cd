/-
# What the route configuration lists

Adding client modules one after the other collects the ids that resolving them gives, each once, in
the order in which they were first met (`collections_addAll`): one more module adds its id at the
end or nothing (`addNew_eraseDups`). Resolving only looks at the manifest and the known lexicons,
which stay as they are.

The module of a route configuration starts with its list (`exists_render_eq`), and reading the
elements of the list gives back the collections, whatever texts they are (`listed?_render`).

Key definitions: `addAll`, `listed?`, `Lists`.
Key theorems: `collections_addAll`, `listed?_render`, `lists_routeConfig`.
-/
import Mathlib.Data.List.Induction
import Lexgen.Proofs.Data.Distinct
import Lexgen.Proofs.TypeScript.Module
import Lexgen.Proofs.TypeScript.Value
import Lexgen.Routes.Config

namespace Lexgen.Routes

open Lexgen.Code Lexgen.Data Lexgen.Text Lexgen.TypeScript

namespace RouteConfig

/-! ### Adding client modules -/

/-- The route configuration after some client modules, each with its file name and its text. -/
def addAll (r : RouteConfig) (modules : List (String × String)) : RouteConfig :=
  modules.foldl (fun r m => r.add m.1 m.2) r

/-- The ids that some client modules resolve to, in order. -/
def resolved (r : RouteConfig) (modules : List (String × String)) : List String :=
  modules.filterMap fun m => (r.resolve m.1 m.2).map Prod.fst

@[simp] theorem addAll_concat (r : RouteConfig) (modules : List (String × String))
    (m : String × String) :
    r.addAll (modules ++ [m]) = (r.addAll modules).add m.1 m.2 := by
  simp [addAll]

/-- What a module resolves to does not depend on the modules before it. -/
@[simp] theorem resolve_addAll (r : RouteConfig) (modules : List (String × String))
    (file text : String) :
    (r.addAll modules).resolve file text = r.resolve file text := by
  induction modules using List.reverseRecOn with
  | nil => rfl
  | append_singleton modules m ih =>
    rw [← ih, addAll_concat, add]
    split <;> rfl

/-- A module that does not resolve, or to an id that is there, changes nothing. -/
theorem add_eq_self {r : RouteConfig} {file text : String}
    (h : ∀ id how, r.resolve file text = some (id, how) → id ∈ r.collections) :
    r.add file text = r := by
  unfold add
  split
  · next id how hid => rw [addNew, if_pos (h id how hid)]
  · rfl

/-- One more id is kept if it is new. -/
@[simp] theorem addNew_eraseDups (ids : List String) (id : String) :
    addNew ids.eraseDups id = (ids ++ [id]).eraseDups := by
  simp [addNew, eraseDups_concat]

/-- **The collections after some client modules** are the ids that these resolve to, each once, in
the order of their first appearance. -/
theorem collections_addAll {r : RouteConfig} (h : r.collections = [])
    (modules : List (String × String)) :
    (r.addAll modules).collections = (r.resolved modules).eraseDups := by
  induction modules using List.reverseRecOn with
  | nil => exact h
  | append_singleton modules m ih =>
    have hresolved : r.resolved (modules ++ [m]) =
        r.resolved modules ++ ((r.resolve m.1 m.2).map Prod.fst).toList := by
      rw [resolved, List.filterMap_append]
      cases hm : (r.resolve m.1 m.2).map Prod.fst <;> simp [resolved, hm]
    rw [addAll_concat, hresolved, add, resolve_addAll]
    cases r.resolve m.1 m.2 with
    | none => simpa using ih
    | some found =>
      show addNew (r.addAll modules).collections found.1 = _
      rw [ih, addNew_eraseDups]
      rfl

/-! ### Reading the module back -/

/-- What follows the first place where a word stands. -/
def behind? (word : List Char) : List Char → Option (List Char)
  | [] => none
  | c :: cs =>
    if word.isPrefixOf (c :: cs) then some ((c :: cs).drop word.length) else behind? word cs

theorem length_le_of_behind? {word rest : List Char} : ∀ {cs : List Char},
    behind? word cs = some rest → word.length ≤ cs.length
  | c :: cs, h => by
    unfold behind? at h
    split at h
    · next hword => exact (List.isPrefixOf_iff_prefix.1 hword).length_le
    · exact (length_le_of_behind? h).trans (Nat.le_succ _)

/-- The first place where a word stands stays the first one when the text goes on. -/
theorem behind?_append {word rest : List Char} (more : List Char) : ∀ {cs : List Char},
    behind? word cs = some rest → behind? word (cs ++ more) = some (rest ++ more)
  | c :: cs, h => by
    unfold behind? at h
    rw [List.cons_append, behind?]
    split at h
    · next hword =>
      have hstart := List.isPrefixOf_iff_prefix.1 hword
      have hmore : word.isPrefixOf (c :: (cs ++ more)) = true :=
        List.isPrefixOf_iff_prefix.2 (hstart.trans (List.prefix_append (c :: cs) more))
      rw [if_pos hmore, ← List.cons_append, List.drop_append_of_le_length hstart.length_le]
      exact congrArg (fun r => some (r ++ more)) (Option.some.inj h)
    · next hword =>
      -- The word stands further back, so it is not longer than what is left of `cs`.
      have hlength : word.length ≤ (c :: cs).length :=
        (length_le_of_behind? h).trans (Nat.le_succ _)
      have hmore : ¬ word.isPrefixOf (c :: (cs ++ more)) = true := by
        intro hstart
        refine hword (List.isPrefixOf_iff_prefix.2 ?_)
        exact List.prefix_of_prefix_length_le (List.isPrefixOf_iff_prefix.1 hstart)
          (List.prefix_append (c :: cs) more) hlength
      rw [if_neg hmore]
      exact behind?_append more h

/-- What opens the list of collections. -/
def listOpening : String := "export const DATA_ROUTE_LEXICONS = ["

/-- What stands behind the closing bracket of the list. -/
def listEnding : String := " as const;"

/-- The ids that a module lists: the texts of the literals between the opening of the list and its
end. -/
def listed? (module : String) : Option (List String) :=
  (behind? listOpening.toList module.toList).bind fun cs =>
    (readElements? .opening cs).bind fun (ids, rest) =>
      if listEnding.toList.isPrefixOf rest then some ids else none

/-- What stands between the brackets of the list. -/
def listText (ids : List String) : String :=
  if ids.isEmpty then "" else "\n" ++ elementsText ids

theorem readElements?_listText (rest : List Char) : ∀ ids : List String,
    readElements? .opening ((listText ids).toList ++ ']' :: rest) = some (ids, rest)
  | [] => rfl
  | id :: ids => by
    have htext : (listText (id :: ids)).toList = '\n' :: (elementsText (id :: ids)).toList :=
      String.toList_append
    rw [htext, List.cons_append, readElements?_elementsText (.inl rfl)]

/-- The lines in front of the list. -/
def leading : String :=
  page ["// Generated by pac routegen. Do not edit by hand.",
    "// Lexicon collections exposed to the data debugger.", ""]

theorem behind?_leading : behind? listOpening.toList (leading ++ listOpening).toList = some [] := by
  decide +kernel

theorem anyBlank_elementLines : ∀ es : List String, Fragment.anyBlank (elementLines es) = false
  | [] => rfl
  | [_] => rfl
  | _ :: e :: es => anyBlank_elementLines (e :: es)

/-- The constant with the list. -/
def listFragments (ids : List String) : List Fragment :=
  (Constant.array listName (ArrayLiteral.ofStrings ids true)).fragments

theorem anyBlank_listFragments : ∀ ids : List String,
    Fragment.anyBlank (listFragments ids) = false
  | [] => rfl
  | id :: ids => by
    show (Fragment.anyBlank (elementLines ((id :: ids).map stringLiteral)) || false) = false
    rw [anyBlank_elementLines]
    rfl

/-- The lines of the list. -/
theorem page_listFragments : ∀ ids : List String,
    page ((Fragment.outlineAll 0 (listFragments ids)).map Indent.standard.at) =
      listOpening ++ listText ids ++ "]" ++ listEnding ++ "\n"
  | [] => by decide +kernel
  | id :: ids => by
    have hlines : Fragment.outlineAll 0 (listFragments (id :: ids)) =
        (0, listOpening) ::
          (Fragment.outlineAll 1 (elementLines ((id :: ids).map stringLiteral)) ++
            [(0, "]" ++ listEnding)]) := by
      show _ :: (_ ++ _) ++ [] = _
      rw [List.append_nil]
      rfl
    have hclose : page [Indent.standard.at (0, "]" ++ listEnding)] = "]" ++ listEnding ++ "\n" := by
      rfl
    have hopening : Indent.standard.at (0, listOpening) = listOpening := by
      rfl
    have hlist : listText (id :: ids) = "\n" ++ elementsText (id :: ids) := rfl
    rw [hlines, List.map_cons, List.map_append, page_cons, page_append, List.map_singleton,
      hclose, hopening, hlist, elementsText]
    simp only [String.append_assoc]

/-- The module of a route configuration starts with its list. -/
theorem exists_render_eq (r : RouteConfig) : ∃ more,
    r.render = leading ++ listOpening ++ listText r.collections ++ "]" ++ listEnding ++ more := by
  have hbody : r.module.body = listFragments r.collections :: r.module.body.tail := rfl
  obtain ⟨after, hafter⟩ :=
    Module.exists_text_write hbody (anyBlank_listFragments r.collections) Indent.standard
  have hheader : r.module.header = ["// Generated by pac routegen. Do not edit by hand."] ++
      ["// Lexicon collections exposed to the data debugger."] := rfl
  have hpreamble : (r.module.preamble (Writer.start Indent.standard)).text = leading :=
    Module.text_preamble_of_header hheader (c := '.') (by decide) (by decide) rfl _
  have htext : (r.module.write (Writer.start Indent.standard)).text =
      leading ++ listOpening ++ listText r.collections ++ "]" ++ listEnding ++ ("\n" ++ after) := by
    rw [hafter, hpreamble, page_listFragments]
    simp only [String.append_assoc]
  exact Module.exists_render_eq htext (getLast?_append_of_eq_some (c := ';') (by decide))
    (by decide)

/-- **The list in the module** is read as the collections, whatever texts they are. -/
theorem listed?_render (r : RouteConfig) : listed? r.render = some r.collections := by
  obtain ⟨more, hmore⟩ := exists_render_eq r
  have htext : r.render.toList = (leading ++ listOpening).toList ++
      ((listText r.collections).toList ++ ']' :: (listEnding.toList ++ more.toList)) := by
    rw [hmore]
    simp
  have hending : listEnding.toList.isPrefixOf (listEnding.toList ++ more.toList) = true :=
    List.isPrefixOf_iff_prefix.2 (List.prefix_append ..)
  rw [listed?, htext, behind?_append _ behind?_leading, List.nil_append, Option.bind_some,
    readElements?_listText, Option.bind_some]
  simp only [hending, if_true]

/-! ### Any sequence of client modules -/

/-- What the route configuration lists after some client modules. -/
structure Lists (start : RouteConfig) (modules : List (String × String)) : Prop where
  /-- The collections are the ids that the modules resolve to, later repetitions dropped. -/
  collections : (start.addAll modules).collections = (start.resolved modules).eraseDups
  /-- What a module resolves to does not depend on the modules before it. -/
  resolve : ∀ file text, (start.addAll modules).resolve file text = start.resolve file text
  /-- A module that does not resolve, or to an id that is listed, changes nothing. -/
  unchanged : ∀ file text, (∀ id how, start.resolve file text = some (id, how) →
      id ∈ (start.addAll modules).collections) →
    start.addAll (modules ++ [(file, text)]) = start.addAll modules
  /-- The list in the written module is read as the collections. -/
  listed : listed? (start.addAll modules).render = some (start.addAll modules).collections
  /-- So it is for any other ids. -/
  listed_any : ∀ ids, listed? { start with collections := ids }.render = some ids

/-- **The route configuration lists every resolved collection once**, in the order in which they
were first met, whatever the manifest and the known lexicons are. -/
theorem lists_routeConfig (manifest : Manifest) (known : Known)
    (modules : List (String × String)) :
    Lists { manifest := manifest, known := known } modules where
  collections := collections_addAll rfl modules
  resolve := resolve_addAll _ modules
  unchanged := fun file text h => by
    rw [addAll_concat]
    exact add_eq_self fun id how hid => h id how (resolve_addAll _ modules file text ▸ hid)
  listed := listed?_render _
  listed_any := fun _ => listed?_render _

end RouteConfig

end Lexgen.Routes
