/-
# Settings of texts are read back

A text made of lines that each set a name to a text is read back as these settings, if every name
is written on one line; a name written on several lines makes the whole text unreadable. What
starts with a quote is not skipped as filler (`skipFillerFrom_of_isQuote`), so the reader takes
the lines one by one (`readLines_settings`), and settings of distinct names make a table with
just these entries (`assemble_settings`).

Key definitions: `settingText`, `setting?`.
Key theorems: `readLines_settings`, `assemble_settings`, `strings?_finish`.
-/
import Lexgen.Data.Steps
import Lexgen.Proofs.Toml.Strings
import Lexgen.Toml.Reader

namespace Lexgen.Toml

open Lexgen.Data

/-! ### One setting -/

/-- The line that sets a name to a text. -/
def settingText (e : String × String) : List Char :=
  (writeString e.1).toList ++ " = ".toList ++ (writeString e.2).toList ++ ['\n']

/-- A setting of a name to a text. -/
def settingOf (e : String × String) : Line := .setting ⟨[], e.1⟩ (.string e.2)

/-- What the line that sets a name to a text is read as. -/
def setting? (e : String × String) : Option Line :=
  if OneLine e.1 then some (settingOf e) else none

/-- Whether a text starts with a quote. -/
def StartsWithQuote (cs : List Char) : Prop := ∃ quote rest, IsQuote quote ∧ cs = quote :: rest

theorem startsWithQuote_writeString (s : String) (rest : List Char) :
    StartsWithQuote ((writeString s).toList ++ rest) := by
  rw [writeString, String.toList_ofList]
  cases hform : (StringForm.of (Features.of s.toList)).isBlock with
  | false =>
    obtain ⟨quote, body, hquote, hwrite, -⟩ := write_line hform
    exact ⟨quote, _, hquote, by rw [hwrite, List.cons_append]⟩
  | true =>
    obtain ⟨quote, body, hquote, hwrite, -⟩ := write_block hform
    exact ⟨quote, _, hquote, by rw [hwrite, List.cons_append]⟩

theorem StartsWithQuote.skipGap_eq {cs : List Char} (h : StartsWithQuote cs) : skipGap cs = cs := by
  obtain ⟨quote, rest, rfl | rfl, rfl⟩ := h <;> rfl

theorem StartsWithQuote.skipFillerFrom_eq {cs : List Char} (h : StartsWithQuote cs) :
    ∀ fuel, skipFillerFrom fuel cs = cs
  | 0 => rfl
  | fuel + 1 => by obtain ⟨quote, rest, rfl | rfl, rfl⟩ := h <;> rfl

theorem StartsWithQuote.readName_eq {cs : List Char} (h : StartsWithQuote cs) :
    readName cs = readLineString cs := by
  obtain ⟨quote, rest, rfl | rfl, rfl⟩ := h <;> rfl

theorem StartsWithQuote.readLine_eq {cs : List Char} (h : StartsWithQuote cs) :
    readLine cs = (readSetting skipGap (readValue maxDepth) cs).bind
      fun r => some (.setting r.1.1 r.1.2, r.2) := by
  obtain ⟨quote, rest, rfl | rfl, rfl⟩ := h <;> rfl

theorem StartsWithQuote.readValue_eq {cs : List Char} (h : StartsWithQuote cs) (depth : Nat) :
    readValue depth cs = readSimple cs := by
  obtain ⟨quote, rest, rfl | rfl, rfl⟩ := h <;> cases depth <;> rfl

theorem noQuoteAhead_cons {c : Char} (h : ¬ IsQuote c) (cs : List Char) :
    NoQuoteAhead (c :: cs) := by
  intro quote hquote hc
  simp only [List.head?_cons, Option.some.injEq] at hc
  exact h (hc ▸ hquote)

/-- A written name is read as a key in front of an equals sign. -/
theorem readKey_writeString (s : String) (rest : List Char) :
    readKey ((writeString s).toList ++ ' ' :: '=' :: rest) =
      if OneLine s then some (⟨[], s⟩, '=' :: rest) else none := by
  have hstart := startsWithQuote_writeString s (' ' :: '=' :: rest)
  have hname := readLineString_writeString s
    (noQuoteAhead_cons (show ¬ IsQuote ' ' by simp [IsQuote]) ('=' :: rest))
  rw [readKey, maxDepth, readKeyFrom, hstart.skipGap_eq, hstart.readName_eq, hname]
  split
  · rfl
  · rfl

theorem readLine_settingText (e : String × String) (rest : List Char) :
    readLine (settingText e ++ rest) = (setting? e).map fun line => (line, '\n' :: rest) := by
  have htext : settingText e ++ rest = (writeString e.1).toList ++
      ' ' :: '=' :: ' ' :: ((writeString e.2).toList ++ '\n' :: rest) := by
    simp [settingText]
  have hvalue := startsWithQuote_writeString e.2 ('\n' :: rest)
  have hread := readString_writeString e.2
    (noQuoteAhead_cons (show ¬ IsQuote '\n' by simp [IsQuote]) rest)
  rw [htext, (startsWithQuote_writeString e.1 _).readLine_eq, readSetting, readKey_writeString,
    setting?]
  split
  · have hgap : skipGap (' ' :: ((writeString e.2).toList ++ '\n' :: rest)) =
        (writeString e.2).toList ++ '\n' :: rest := by
      rw [skipGap, List.dropWhile_cons, if_pos (show isGap ' ' = true from rfl)]
      exact hvalue.skipGap_eq
    have heq (cs : List Char) : skipGap ('=' :: cs) = '=' :: cs := rfl
    simp only [Option.bind_eq_bind, Option.bind_some, heq, hgap, hvalue.readValue_eq, readSimple,
      hread, Option.map_some, settingOf]
  · rfl

/-! ### All settings -/

theorem StartsWithQuote.readLines_eq {cs : List Char} (h : StartsWithQuote cs) (fuel : Nat) :
    readLines (fuel + 1) cs = (readLine cs).bind fun r =>
      match skipComment (skipGap r.2) with
      | [] => some [r.1]
      | rest => (lineEnd? rest).bind fun rest => (readLines fuel rest).bind fun lines =>
        some (r.1 :: lines) := by
  obtain ⟨quote, rest, rfl | rfl, rfl⟩ := h <;> rfl

/-- **Settings line by line** are read one by one, or not at all. -/
theorem readLines_settings : ∀ {fuel : Nat} (es : List (String × String)), es.length < fuel →
    readLines fuel (es.flatMap settingText) = es.mapM setting?
  | 0, es, hfuel => absurd hfuel (Nat.not_lt_zero _)
  | fuel + 1, [], _ => rfl
  | fuel + 1, e :: es, hfuel => by
    have hlength : es.length < fuel := by simpa using hfuel
    have hstart : StartsWithQuote (settingText e ++ es.flatMap settingText) := by
      simp only [settingText, List.append_assoc]
      exact startsWithQuote_writeString e.1 _
    have hend (rest : List Char) : skipComment (skipGap ('\n' :: rest)) = '\n' :: rest := rfl
    have hfeed (rest : List Char) : lineEnd? ('\n' :: rest) = some rest := rfl
    rw [List.flatMap_cons, hstart.readLines_eq, readLine_settingText, List.mapM_cons]
    cases setting? e with
    | none => rfl
    | some line =>
      simp only [Option.map_some, Option.bind_some, hend, hfeed, Option.bind_eq_bind,
        readLines_settings es hlength]
      rfl

theorem mapM_setting? : ∀ es : List (String × String),
    es.mapM setting? = if ∀ e ∈ es, OneLine e.1 then some (es.map settingOf) else none
  | [] => by simp
  | e :: es => by
    rw [List.mapM_cons, mapM_setting? es, setting?]
    have hall : (∀ d ∈ e :: es, OneLine d.1) ↔ OneLine e.1 ∧ ∀ d ∈ es, OneLine d.1 :=
      List.forall_mem_cons
    by_cases he : OneLine e.1
    · by_cases hes : ∀ d ∈ es, OneLine d.1
      · rw [if_pos he, if_pos hes, if_pos (hall.2 ⟨he, hes⟩)]
        rfl
      · rw [if_pos he, if_neg hes, if_neg fun h => hes (hall.1 h).2]
        rfl
    · rw [if_neg he, if_neg fun h => he (hall.1 h).1]
      rfl

theorem readLines_congr {fuel : Nat} {cs ds : List Char} (h : skipFiller cs = skipFiller ds) :
    readLines fuel cs = readLines fuel ds := by
  cases fuel with
  | zero => rfl
  | succ fuel => rw [readLines, readLines, h]

/-- A comment in front of settings is skipped. -/
theorem readLines_comment {text : List Char} (htext : ∀ c ∈ text, isVisible c = true)
    {fuel : Nat} {es : List (String × String)} (hfuel : es.length < fuel) :
    readLines fuel ('#' :: (text ++ '\n' :: es.flatMap settingText)) = es.mapM setting? := by
  rw [← readLines_settings es hfuel]
  refine readLines_congr ?_
  have hself (fuel : Nat) :
      skipFillerFrom fuel (es.flatMap settingText) = es.flatMap settingText := by
    cases es with
    | nil => cases fuel <;> rfl
    | cons e es =>
      simp only [List.flatMap_cons, settingText, List.append_assoc]
      exact (startsWithQuote_writeString e.1 _).skipFillerFrom_eq fuel
  have hcomment : skipComment (skipGap ('#' :: (text ++ '\n' :: es.flatMap settingText))) =
      '\n' :: es.flatMap settingText := by
    show (text ++ '\n' :: es.flatMap settingText).dropWhile isVisible = _
    rw [List.dropWhile_append_of_pos htext]
    rfl
  rw [skipFiller, skipFiller, List.length_cons, skipFillerFrom, hcomment, hself]
  exact hself _

/-- The entry that a setting of a text makes. -/
def entryOf (e : String × String) : String × Node := (e.1, .value (.string e.2))

/-- Settings of names that are new make one entry each. -/
theorem assemble_settings : ∀ (es : List (String × String)) (entries : List (String × Node)),
    (entries.map Prod.fst ++ es.map Prod.fst).Nodup →
      assemble [] entries (es.map settingOf) = some (entries ++ es.map entryOf)
  | [], entries, _ => by simp [assemble]
  | e :: es, entries, h => by
    have hnew : entries.lookup e.1 = none := by
      have hfresh : ∀ name ∈ entries.map Prod.fst, name ≠ e.1 := fun name hmem =>
        (List.nodup_append.1 h).2.2 name hmem e.1 (List.mem_cons_self ..)
      rw [List.lookup_eq_none_iff]
      exact fun p hp => by simpa using (hfresh p.1 (List.mem_map_of_mem hp)).symm
    have hrest : ((entries ++ [entryOf e]).map Prod.fst ++ es.map Prod.fst).Nodup := by
      simpa [entryOf] using h
    rw [List.map_cons, settingOf, assemble]
    simp only [within, put, alter, hnew, newValue, Option.map_some, Option.bind_eq_bind,
      Option.bind_some, putEntry_of_lookup_eq_none hnew]
    rw [show (e.1, Node.value (.string e.2)) = entryOf e from rfl,
      assemble_settings es _ hrest, List.append_assoc]
    rfl

theorem finish_entries : ∀ es : List (String × String),
    finish (es.map entryOf) = es.map fun e => (e.1, .string e.2)
  | [] => rfl
  | e :: es => by
    rw [List.map_cons, entryOf, finish, finish_entries es]
    rfl

theorem strings?_texts : ∀ es : List (String × String),
    Table.strings? (es.map fun e => (e.1, .string e.2)) = some es
  | [] => rfl
  | e :: es => by
    have ih := strings?_texts es
    rw [Table.strings?] at ih ⊢
    rw [List.map_cons, List.mapM_cons, ih]
    rfl

theorem length_le_flatMap_settingText : ∀ es : List (String × String),
    es.length ≤ (es.flatMap settingText).length
  | [] => Nat.le_refl _
  | e :: es => by
    have ih := length_le_flatMap_settingText es
    simp only [List.flatMap_cons, List.length_append, List.length_cons, settingText]
    omega

/-- **A comment and settings of distinct names** make the table of these texts, unless a name is
written on several lines. -/
theorem parse_settings {text : List Char} (htext : ∀ c ∈ text, isVisible c = true)
    {es : List (String × String)} (hnodup : (es.map Prod.fst).Nodup) :
    (parse (String.ofList ('#' :: (text ++ '\n' :: es.flatMap settingText)))).bind Table.strings? =
      if ∀ e ∈ es, OneLine e.1 then some es else none := by
  have hfuel : es.length < ('#' :: (text ++ '\n' :: es.flatMap settingText)).length + 1 := by
    have := length_le_flatMap_settingText es
    simp only [List.length_cons, List.length_append]
    omega
  have hmark (cs : List Char) : dropMark ('#' :: cs) = '#' :: cs := rfl
  rw [parse, String.toList_ofList, hmark, readLines_comment htext hfuel, mapM_setting?]
  split
  · have hassemble := assemble_settings es [] (by simpa using hnodup)
    simp only [Option.bind_eq_bind, Option.bind_some, hassemble, List.nil_append, finish_entries,
      strings?_texts]
  · rfl

end Lexgen.Toml
