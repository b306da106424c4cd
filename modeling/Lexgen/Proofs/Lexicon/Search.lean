/-
# Where the search for a key comes to rest

The search for a quoted name with a colon behind it reads no JSON. In any text it comes to rest at
the first place where the quoted name stands with a colon behind, apart from places that overlap one
in front of them (`Stands.rests_or_overlapped`). On a document that was read, and for a name that
needs no escape, it comes to rest at keys only: strings that are values have no colon behind, and
inside a string no quote stands without a backslash in front. So it finds the first key whose
written form ends with the quoted name (`keySpan?_eq`), wherever in the document this key stands.

Key definitions: `Findable`, `Stands`, `Rests`, `endsWith`, `endingSpan`, `firstEnding?`.
Key theorems: `findQuoted_string`, `findQuoted_eq_some_iff`, `Stands.rests_or_overlapped`,
`findQuoted_of_passes`, `keySpan?_eq`.
-/
import Lexgen.Proofs.Json.Layout
import Lexgen.Lexicon.Source

namespace Lexgen.Lexicon

open Lexgen.Json Lexgen.Data Lexgen.Text

/-! ### Finding a quoted name inside of strings -/

/-- A name in quotes, as the search looks for it. -/
def inQuotes (name : String) : List Char := '"' :: (name.toList ++ ['"'])

theorem inQuotes_ne_nil {name : String} : inQuotes name ≠ [] := List.cons_ne_nil _ _

/-- What may stand right behind a string of a document. -/
def standsBehind (c : Char) : Bool := isSpace c || [',', ':', ']', '}'].contains c

/-- A name without quotes and backslashes that does not start with what may stand right behind a
string. -/
def Findable (name : String) : Prop :=
  (∀ c ∈ name.toList, c ≠ '"' ∧ c ≠ '\\') ∧ ∀ c ∈ name.toList.head?, standsBehind c = false

variable {name : String} {rest : List Char}

/-- A name without quotes ends at the first quote: where it stands before a quote, it is all that
stands before the next quote, or a quote follows it. -/
theorem eq_of_nameEnd (hname : ∀ c ∈ name.toList, c ≠ '"') {v : List Char}
    (h : name.toList ++ ['"'] <+: v ++ '"' :: rest) :
    v = name.toList ∨ ∃ more, v = name.toList ++ '"' :: more := by
  obtain ⟨t, ht⟩ := h
  rw [List.append_assoc, List.singleton_append] at ht
  rcases List.append_eq_append_iff.mp ht with ⟨a, hv, ha⟩ | ⟨a, hn, ha⟩
  · cases a with
    | nil => exact .inl (by simpa using hv)
    | cons c a =>
      obtain ⟨rfl, -⟩ := List.cons.inj ha
      exact .inr ⟨a, hv⟩
  · cases a with
    | nil => exact .inl (by simpa using hn.symm)
    | cons c a =>
      obtain ⟨rfl, -⟩ := List.cons.inj ha
      exact absurd rfl (hname '"' (hn ▸ by simp))

/-- **Where a quoted name can stand**: in front of the closing quote of a string, the name is all
that is left of the string. A quote inside has a backslash in front, and the name has none. -/
theorem eq_of_inQuotes (hname : Findable name) {v : List Char} (hv : v ≠ [])
    (hchain : v.IsChain fun x y => y = '"' → x = '\\')
    (h : inQuotes name <+: v ++ '"' :: rest) : v = '"' :: name.toList := by
  cases v with
  | nil => exact absurd rfl hv
  | cons c v =>
    obtain ⟨hc, htail⟩ := List.cons_prefix_cons.mp h
    subst hc
    rcases eq_of_nameEnd (fun c hc => (hname.1 c hc).1) htail with rfl | ⟨more, rfl⟩
    · rfl
    · exfalso
      have hsplit : '"' :: (name.toList ++ '"' :: more) = ('"' :: name.toList) ++ '"' :: more := rfl
      rw [hsplit, List.isChain_append] at hchain
      have hlast := hchain.2.2 _ (List.getLast_mem_getLast? (List.cons_ne_nil '"' name.toList))
        '"' rfl rfl
      rcases List.mem_cons.mp (hlast ▸ List.getLast_mem (List.cons_ne_nil '"' name.toList)) with
        h | h
      · exact absurd h (by decide)
      · exact (hname.1 '\\' h).2 rfl

/-- At the closing quote of a string no quoted name starts. -/
theorem not_inQuotes_of_behind (hname : Findable name) (hrest : ∀ c ∈ rest.head?, standsBehind c) :
    ¬ inQuotes name <+: '"' :: rest := by
  intro h
  obtain ⟨-, t, rfl⟩ := List.cons_prefix_cons.mp h
  cases hchars : name.toList with
  | nil =>
    rw [hchars] at hrest
    exact absurd (hrest '"' rfl) (by decide)
  | cons c chars =>
    have hc := hname.2 c (by rw [hchars]; rfl)
    rw [hchars] at hrest
    exact absurd (hrest c rfl) (by simp [hc])

/-! ### The search -/

/-- Passing over characters moves on by their bytes. -/
theorem findQuoted_append (quoted rest : List Char) :
    ∀ (used : List Char) (offset : Nat),
      findQuoted quoted used.length offset (used ++ rest) =
        findQuoted quoted 0 (offset + byteSize used) rest
  | [], _ => rfl
  | c :: used, offset => by
    rw [List.length_cons, List.cons_append, findQuoted, findQuoted_append quoted rest used,
      byteSize, Nat.add_assoc]

/-- Where the quoted name stands, the search comes to rest or moves on past it. -/
theorem findQuoted_stands {quoted : List Char} (hquoted : quoted ≠ []) (rest : List Char)
    (offset : Nat) :
    findQuoted quoted 0 offset (quoted ++ rest) =
      if beforeColon rest then some offset
      else findQuoted quoted 0 (offset + byteSize quoted) rest := by
  cases quoted with
  | nil => exact absurd rfl hquoted
  | cons c quoted =>
    have hstands : (c :: quoted).isPrefixOf (c :: (quoted ++ rest)) = true :=
      List.isPrefixOf_iff_prefix.mpr ⟨rest, rfl⟩
    have hdrop : (c :: (quoted ++ rest)).drop (c :: quoted).length = rest := by simp
    rw [List.cons_append, findQuoted, if_pos hstands, hdrop, List.length_cons, Nat.add_sub_cancel,
      findQuoted_append, byteSize, Nat.add_assoc]

/-- The search moves on where the quoted name does not stand. -/
theorem findQuoted_cons {quoted : List Char} {c : Char} {cs : List Char}
    (h : ¬ quoted <+: c :: cs) (offset : Nat) :
    findQuoted quoted 0 offset (c :: cs) = findQuoted quoted 0 (offset + c.utf8Size) cs := by
  rw [findQuoted, if_neg (by simpa using h)]

/-- **The search inside of a string**, from some place on: it stops if the string ends with the
quoted name and a colon stands behind. -/
theorem findQuoted_string (hname : Findable name) (hrest : ∀ c ∈ rest.head?, standsBehind c) :
    ∀ (v : List Char) (offset : Nat), (v.IsChain fun x y => y = '"' → x = '\\') →
      findQuoted (inQuotes name) 0 offset (v ++ '"' :: rest) =
        if inQuotes name <:+ v ++ ['"'] ∧ beforeColon rest then
          some (offset + (byteSize (v ++ ['"']) - byteSize (inQuotes name)))
        else findQuoted (inQuotes name) 0 (offset + byteSize (v ++ ['"'])) rest
  | [], offset, _ => by
    have hshort : ¬ inQuotes name <:+ ['"'] := by
      intro h
      have := h.length_le
      simp [inQuotes] at this
    rw [List.nil_append, findQuoted_cons (not_inQuotes_of_behind hname hrest), List.nil_append,
      if_neg (fun h => hshort h.1)]
    rfl
  | c :: v, offset, hchain => by
    have hsize : byteSize (c :: v ++ ['"']) = c.utf8Size + byteSize (v ++ ['"']) := rfl
    by_cases hstands : inQuotes name <+: c :: (v ++ '"' :: rest)
    · -- the name is all that is left of the string
      have hv := eq_of_inQuotes hname (List.cons_ne_nil c v) hchain hstands
      have hall : inQuotes name = c :: v ++ ['"'] := by
        rw [hv, inQuotes, List.cons_append]
      have htext : c :: v ++ '"' :: rest = inQuotes name ++ rest := by
        rw [hall]
        simp
      rw [htext, findQuoted_stands inQuotes_ne_nil, ← hall]
      by_cases hcolon : beforeColon rest
      · rw [if_pos hcolon, if_pos ⟨List.suffix_rfl, hcolon⟩, Nat.sub_self, Nat.add_zero]
      · rw [if_neg hcolon, if_neg (fun h => hcolon h.2)]
    · have hmore : inQuotes name <:+ c :: v ++ ['"'] ↔ inQuotes name <:+ v ++ ['"'] := by
        rw [List.cons_append, List.suffix_cons_iff]
        refine or_iff_right fun heq => hstands ?_
        rw [heq]
        exact ⟨rest, by simp⟩
      rw [List.cons_append, findQuoted_cons hstands, findQuoted_string hname hrest v _ hchain.tail,
        hsize]
      by_cases hends : inQuotes name <:+ v ++ ['"'] ∧ beforeColon rest
      · have hle := byteSize_le_of_suffix hends.1
        rw [if_pos hends, if_pos ⟨hmore.mpr hends.1, hends.2⟩]
        congr 1
        omega
      · rw [if_neg hends, if_neg (fun h => hends ⟨hmore.mp h.1, h.2⟩), Nat.add_assoc]

/-! ### Where the search comes to rest -/

/-- The text in front of the place where the search for a quoted name comes to rest. It moves on by
one character where the quoted name does not stand, and past it where no colon stands behind. -/
inductive Rests (quoted : List Char) : List Char → List Char → Prop where
  | here {rest : List Char} : beforeColon rest = true → Rests quoted (quoted ++ rest) []
  | past {rest front : List Char} : beforeColon rest = false → Rests quoted rest front →
    Rests quoted (quoted ++ rest) (quoted ++ front)
  | next {c : Char} {cs front : List Char} : ¬ quoted <+: c :: cs → Rests quoted cs front →
    Rests quoted (c :: cs) (c :: front)

/-- The quoted name stands behind `front` in a text, with a colon behind it or without. -/
def Stands (quoted cs front : List Char) (colon : Bool) : Prop :=
  ∃ rest, cs = front ++ (quoted ++ rest) ∧ beforeColon rest = colon

/-- The quoted name stands in front of a place and reaches into it, without a colon behind. -/
def Overlapped (quoted cs front : List Char) : Prop :=
  ∃ before, Stands quoted cs before false ∧ before.length < front.length ∧
    front.length < before.length + quoted.length

section Rests

variable {quoted cs front : List Char} {colon : Bool}

theorem Stands.append (used : List Char) (h : Stands quoted cs front colon) :
    Stands quoted (used ++ cs) (used ++ front) colon := by
  obtain ⟨rest, rfl, hcolon⟩ := h
  exact ⟨rest, by rw [List.append_assoc], hcolon⟩

theorem Overlapped.append (used : List Char) (h : Overlapped quoted cs front) :
    Overlapped quoted (used ++ cs) (used ++ front) := by
  obtain ⟨before, hbefore, hlt, hreach⟩ := h
  refine ⟨used ++ before, hbefore.append used, ?_⟩
  simp only [List.length_append]
  omega

theorem Rests.stands (h : Rests quoted cs front) : Stands quoted cs front true := by
  induction h with
  | here hcolon => exact ⟨_, rfl, hcolon⟩
  | past _ _ ih => exact ih.append quoted
  | next _ _ ih => exact ih.append [_]

theorem findQuoted_of_rests (hquoted : quoted ≠ []) (h : Rests quoted cs front) :
    ∀ offset, findQuoted quoted 0 offset cs = some (offset + byteSize front) := by
  induction h with
  | here hcolon =>
    intro offset
    rw [findQuoted_stands hquoted, if_pos hcolon, byteSize_nil, Nat.add_zero]
  | past hcolon _ ih =>
    intro offset
    rw [findQuoted_stands hquoted, if_neg (by simp [hcolon]), ih, byteSize_append, Nat.add_assoc]
  | next hmiss _ ih =>
    intro offset
    rw [findQuoted_cons hmiss, ih, byteSize_cons, Nat.add_assoc]

theorem length_lt_append (hquoted : quoted ≠ []) (rest : List Char) :
    rest.length < (quoted ++ rest).length := by
  have := List.length_pos_of_ne_nil hquoted
  rw [List.length_append]
  omega

theorem exists_rests_of_findQuoted (hquoted : quoted ≠ []) : ∀ {cs : List Char} {offset o : Nat},
    findQuoted quoted 0 offset cs = some o → ∃ front, Rests quoted cs front
  | [], offset, o, h => by
    rw [findQuoted] at h
    cases h
  | c :: cs, offset, o, h => by
    by_cases hstands : quoted <+: c :: cs
    · obtain ⟨rest, hrest⟩ := hstands
      rw [← hrest, findQuoted_stands hquoted] at h
      rw [← hrest]
      split at h
      · next hcolon => exact ⟨[], .here hcolon⟩
      · next hcolon =>
        have hshorter : rest.length < cs.length + 1 := by
          rw [← List.length_cons, ← hrest]
          exact length_lt_append hquoted rest
        obtain ⟨front, hfront⟩ := exists_rests_of_findQuoted hquoted h
        exact ⟨quoted ++ front, .past (by simpa using hcolon) hfront⟩
    · rw [findQuoted_cons hstands] at h
      obtain ⟨front, hfront⟩ := exists_rests_of_findQuoted hquoted h
      exact ⟨c :: front, .next hstands hfront⟩
  termination_by cs => cs.length

/-- The search finds the place where it comes to rest, and nothing if there is none. -/
theorem findQuoted_eq_some_iff (hquoted : quoted ≠ []) {offset o : Nat} :
    findQuoted quoted 0 offset cs = some o ↔
      ∃ front, Rests quoted cs front ∧ o = offset + byteSize front := by
  constructor
  · intro h
    obtain ⟨front, hfront⟩ := exists_rests_of_findQuoted hquoted h
    rw [findQuoted_of_rests hquoted hfront] at h
    exact ⟨front, hfront, (Option.some.inj h).symm⟩
  · rintro ⟨front, hfront, rfl⟩
    exact findQuoted_of_rests hquoted hfront offset

/-- **No place is left out**: where the quoted name stands with a colon behind, the search comes to
rest there or before, unless the place overlaps one in front of it. -/
theorem Stands.rests_or_overlapped (hquoted : quoted ≠ []) : ∀ {cs front : List Char},
    Stands quoted cs front true →
      Overlapped quoted cs front ∨ ∃ first, Rests quoted cs first ∧ first <+: front
  | cs, front, h => by
    by_cases hstands : quoted <+: cs
    · obtain ⟨rest, rfl⟩ := hstands
      cases hcolon : beforeColon rest with
      | true => exact .inr ⟨[], .here hcolon, List.nil_prefix⟩
      | false =>
        obtain ⟨rest', heq, hcolon'⟩ := h
        by_cases hreach : front.length < quoted.length
        · refine .inl ⟨[], ⟨rest, rfl, hcolon⟩, List.length_pos_of_ne_nil ?_, by simpa⟩
          rintro rfl
          rw [List.append_cancel_left heq, hcolon'] at hcolon
          cases hcolon
        · have hbehind : quoted <+: front := List.prefix_of_prefix_length_le
            (List.prefix_append quoted rest) (heq ▸ List.prefix_append front _) (by omega)
          obtain ⟨more, rfl⟩ := hbehind
          rw [List.append_assoc] at heq
          have hshorter := length_lt_append hquoted rest
          rcases Stands.rests_or_overlapped hquoted
            ⟨rest', List.append_cancel_left heq, hcolon'⟩ with hover | ⟨first, hfirst, hle⟩
          · exact .inl (hover.append quoted)
          · exact .inr ⟨quoted ++ first, .past hcolon hfirst,
              (List.prefix_append_right_inj quoted).mpr hle⟩
    · obtain ⟨rest', rfl, hcolon'⟩ := h
      cases front with
      | nil => exact absurd (List.prefix_append quoted rest') hstands
      | cons c front =>
        have hmore : Stands quoted (front ++ (quoted ++ rest')) front true := ⟨rest', rfl, hcolon'⟩
        rcases hmore.rests_or_overlapped hquoted with hover | ⟨first, hfirst, hle⟩
        · exact .inl (hover.append [c])
        · exact .inr ⟨c :: first, .next hstands hfirst, List.cons_prefix_cons.mpr ⟨rfl, hle⟩⟩
  termination_by cs => cs.length

end Rests

/-! ### The search in a document -/

theorem isBlank_of_isSpace {c : Char} (h : isSpace c = true) : isBlank c = true := by
  simp only [isSpace, Bool.or_eq_true, beq_iff_eq] at h
  rcases h with ((rfl | rfl) | rfl) | rfl <;> decide

/-- Blanks of JSON do not hide what stands behind them. -/
theorem dropBlank_skipSpace (cs : List Char) : dropBlank (skipSpace cs) = dropBlank cs := by
  have hsplit : cs = cs.takeWhile isSpace ++ skipSpace cs := List.takeWhile_append_dropWhile.symm
  conv_rhs => rw [hsplit]
  refine (List.dropWhile_append_of_pos fun c hc => ?_).symm
  exact isBlank_of_isSpace (List.mem_takeWhile_imp hc)

/-- A mark that JSON reads is what stands behind the blanks. -/
theorem head_dropBlank {c : Char} (h : nextInk rest = some c) (hc : isBlank c = false) :
    (dropBlank rest).head? = some c := by
  rw [← dropBlank_skipSpace]
  unfold nextInk at h
  cases hskip : skipSpace rest with
  | nil =>
    rw [hskip] at h
    cases h
  | cons d more =>
    rw [hskip] at h
    cases h
    rw [dropBlank, List.dropWhile_cons_of_neg (by simp [hc])]
    rfl

theorem standsBehind_of_nextInk (h : ∀ c ∈ nextInk rest, c ∈ [',', ':', ']', '}']) :
    ∀ c ∈ rest.head?, standsBehind c := by
  intro c hc
  cases rest with
  | nil => cases hc
  | cons d more =>
    cases hc
    by_cases hspace : isSpace c
    · simp [standsBehind, hspace]
    · have hink : nextInk (c :: more) = some c := by
        rw [nextInk, skipSpace, List.dropWhile_cons_of_neg hspace]
        rfl
      have := h c hink
      simp only [standsBehind, List.contains_iff_mem, Bool.or_eq_true]
      exact .inr this

theorem beforeColon_of_closes (h : Closes rest) : beforeColon rest = false := by
  cases hink : nextInk rest with
  | none =>
    have hskip : skipSpace rest = [] := List.head?_eq_none_iff.mp hink
    rw [beforeColon, ← dropBlank_skipSpace, hskip]
    rfl
  | some c =>
    have hc := h c hink
    rw [beforeColon, head_dropBlank hink (by rcases hc with rfl | rfl | rfl <;> decide)]
    rcases hc with rfl | rfl | rfl <;> decide

/-- Whether a key as it is written ends with a quoted name. -/
def endsWith (name : String) (k : Key) : Bool := decide (inQuotes name <:+ k.written)

/-- The place of a quoted name at the end of a key. -/
def endingSpan (name : String) (k : Key) : Span :=
  ⟨k.offset + (k.size - byteSize (inQuotes name)), byteSize (inQuotes name)⟩

/-- The search in a whole string, which is a key or might have been one. -/
theorem findQuoted_written (hname : Findable name) (hrest : ∀ c ∈ rest.head?, standsBehind c)
    (k : Key) (hbody : IsBody k.body) :
    findQuoted (inQuotes name) 0 k.offset ('"' :: (k.body ++ '"' :: rest)) =
      if endsWith name k ∧ beforeColon rest then some (endingSpan name k).offset
      else findQuoted (inQuotes name) 0 (k.offset + k.size) rest := by
  have hfound := findQuoted_string hname hrest ('"' :: k.body) k.offset (hbody.quotes_escaped '"')
  have hwritten : '"' :: k.body ++ ['"'] = k.written := rfl
  rw [hwritten, Key.byteSize_written] at hfound
  rw [← List.cons_append, hfound]
  simp only [endsWith, decide_eq_true_eq]
  rfl

/-- **The search in a document** that was read: it comes to rest at the end of the first key that
ends with the quoted name. -/
theorem findQuoted_of_passes (hname : Findable name) {p q : Spot} {ks : List Key}
    (h : Passes p ks q) :
    findQuoted (inQuotes name) 0 p.offset p.text =
      ((ks.find? (endsWith name)).map fun k => (endingSpan name k).offset).or
        (findQuoted (inQuotes name) 0 q.offset q.text) := by
  induction h with
  | done => rfl
  | @char _ _ c cs _ _ hc _ ih =>
    have hmiss : ¬ inQuotes name <+: c :: cs := fun h => hc (List.cons_prefix_cons.mp h).1.symm
    dsimp only at ih ⊢
    rw [findQuoted_cons hmiss, ih]
  | @string offset frames body rest ks q hbody _ hcloses _ ih =>
    have hbehind : ∀ c ∈ rest.head?, standsBehind c :=
      standsBehind_of_nextInk fun c hc => by rcases hcloses c hc with rfl | rfl | rfl <;> decide
    dsimp only at ih ⊢
    rw [findQuoted_written hname hbehind ⟨frames, body, offset⟩ hbody,
      if_neg (by simp [beforeColon_of_closes hcloses])]
    exact ih
  | @key offset around body rest ks q hbody hcolon _ ih =>
    have hbehind : ∀ c ∈ rest.head?, standsBehind c :=
      standsBehind_of_nextInk fun c hc => by
        rw [hcolon] at hc
        cases hc
        decide
    have hbefore : beforeColon rest = true := by
      rw [beforeColon, head_dropBlank hcolon (by decide)]
      rfl
    dsimp only at ih ⊢
    rw [findQuoted_written hname hbehind ⟨around, body, offset⟩ hbody]
    by_cases hends : endsWith name ⟨around, body, offset⟩
    · rw [if_pos ⟨hends, hbefore⟩, List.find?_cons_of_pos hends]
      rfl
    · rw [if_neg (fun h => hends h.1), List.find?_cons_of_neg hends]
      exact ih

theorem keySpan?_eq_map (text name : String) :
    keySpan? text name = (findQuoted (inQuotes name) 0 0 text.toList).map
      fun offset => ⟨offset, byteSize (inQuotes name)⟩ :=
  rfl

/-- The label is where the search in the text comes to rest. -/
theorem keySpan?_eq_some_iff {text : String} {s : Span} : keySpan? text name = some s ↔
    ∃ front, Rests (inQuotes name) text.toList front ∧
      s = ⟨byteSize front, byteSize (inQuotes name)⟩ := by
  simp only [keySpan?_eq_map, Option.map_eq_some_iff, findQuoted_eq_some_iff inQuotes_ne_nil,
    Nat.zero_add]
  constructor
  · rintro ⟨_, ⟨front, hrests, rfl⟩, rfl⟩
    exact ⟨front, hrests, rfl⟩
  · rintro ⟨front, hrests, rfl⟩
    exact ⟨_, ⟨front, hrests, rfl⟩, rfl⟩

/-- A quoted comma stands between two strings of a list. -/
example : keySpan? "[\"x\",\":\"]" "," = some ⟨3, 3⟩ := by decide

/-- The first key of a document that ends with a quoted name. -/
def firstEnding? (text name : String) : Option Key := (keysOf text).find? (endsWith name)

theorem keySpan?_eq {text : String} {root : Value} (hname : Findable name)
    (h : Json.parse text = .ok root) :
    keySpan? text name = (firstEnding? text name).map (endingSpan name) := by
  obtain ⟨⟨size, hpasses⟩, -⟩ := passes_of_parse h
  have hfound := findQuoted_of_passes hname hpasses
  have hdone : findQuoted (inQuotes name) 0 size [] = none := by
    rw [findQuoted]
  dsimp only at hfound
  rw [hdone, Option.or_none] at hfound
  rw [keySpan?_eq_map, hfound, Option.map_map]
  rfl

end Lexgen.Lexicon
