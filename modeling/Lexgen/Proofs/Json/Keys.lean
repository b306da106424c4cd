/-
# The keys of a document

A scan of a JSON text for the keys of its objects. It follows brackets, braces, commas and quotes
only and reads no values, so it can say where a key is written: at which offset, how, and what
stands around its object. A key that is written twice in an object has its value from the last
place, so this place is the one of the entry (`keyAt?`).

Key definitions: `Frame`, `Key`, `keysFrom`, `keysOf`, `lastKey?`, `keyAt?`, `Passes`.
Key theorems: `keyAt?_append_of_outside`, `Passes.separated`, `Passes.keysFrom_eq`.
-/
import Lexgen.Proofs.Json.Strings
import Mathlib.Data.List.Infix

namespace Lexgen.Json

open Lexgen.Text

/-- What a place in a document stands in. -/
inductive Frame where
  /-- A list. -/
  | list
  /-- An object, in front of a key. -/
  | object
  /-- An object, behind its key at the offset. -/
  | member (offset : Nat)
deriving DecidableEq, Repr

/-- A key as it is written in a text. -/
structure Key where
  /-- What the object of the key stands in, from the inside out. -/
  around : List Frame
  /-- What stands between the quotes. -/
  body : List Char
  /-- The offset of the opening quote. -/
  offset : Nat
deriving DecidableEq, Repr

namespace Key

/-- A key with its quotes. -/
def written (k : Key) : List Char := '"' :: (k.body ++ ['"'])

/-- The number of bytes of a key, its quotes included. -/
def size (k : Key) : Nat := byteSize k.body + 2

@[simp] theorem byteSize_written (k : Key) : byteSize k.written = k.size := by
  have hquote : ('"' : Char).utf8Size = 1 := by decide
  simp only [written, size, byteSize_cons, byteSize_append, byteSize_nil, hquote]
  omega

/-- The name that a key stands for. -/
def name? (k : Key) : Option String :=
  match readString (k.body ++ ['"']) with
  | .ok (name, []) => some name
  | _ => none

theorem name?_eq_some_iff {k : Key} {name : String} :
    k.name? = some name ↔ readString (k.body ++ ['"']) = .ok (name, []) := by
  unfold name?
  split
  · next h => rw [h]; simp
  · next h => exact iff_of_false (by simp) fun heq => h _ heq

/-- A key that looks like its name has nothing in it that has to be escaped. -/
theorem plain_of_name? {k : Key} {name : String} (h : k.name? = some name)
    (hbody : k.body = name.toList) : ∀ c ∈ name.toList, c ≠ '"' ∧ c ≠ '\\' := by
  obtain ⟨body, hsame, -, hstands, -⟩ := exists_body_of_readString (name?_eq_some_iff.mp h)
  obtain rfl : k.body = body := List.append_cancel_right hsame
  rw [← hbody]
  exact hstands.plain hbody.symm

/-- A key stands at its offset in a text that starts at an offset. -/
def StandsIn (k : Key) (text : List Char) (offset : Nat) : Prop :=
  ∃ front rest, text = front ++ (k.written ++ rest) ∧ k.offset = offset + byteSize front

theorem StandsIn.behind {k : Key} {text : List Char} {offset : Nat} (used : List Char)
    (h : k.StandsIn text (offset + byteSize used)) : k.StandsIn (used ++ text) offset := by
  obtain ⟨front, rest, rfl, hoffset⟩ := h
  refine ⟨used ++ front, rest, by rw [List.append_assoc], ?_⟩
  rw [hoffset, byteSize_append, Nat.add_assoc]

end Key

/-! ### The scan -/

/-- What the text behind a character other than a quote stands in. -/
def enter (c : Char) (frames : List Frame) : List Frame :=
  match c, frames with
  | '[', frames => .list :: frames
  | '{', frames => .object :: frames
  | ']', frames => frames.tail
  | '}', frames => frames.tail
  | ',', .member _ :: around => .object :: around
  | _, frames => frames

/-- The keys from a place on, passing over the next `skip` characters. The place has an offset and
stands in some frames. A string that opens where an object awaits a key is one. -/
def keysFrom : Nat → Nat → List Frame → List Char → List Key
  | _, _, _, [] => []
  | skip + 1, offset, frames, c :: cs => keysFrom skip (offset + c.utf8Size) frames cs
  | 0, offset, frames, c :: cs =>
    if c = '"' then
      let past := (bodyOf cs).length + 1
      match frames with
      | .object :: around =>
        ⟨around, bodyOf cs, offset⟩ ::
          keysFrom past (offset + c.utf8Size) (.member offset :: around) cs
      | frames => keysFrom past (offset + c.utf8Size) frames cs
    else keysFrom 0 (offset + c.utf8Size) (enter c frames) cs

/-- The keys of a document, from the first to the last. -/
def keysOf (text : String) : List Key := keysFrom 0 0 [] text.toList

/-- The keys of a text in two pieces, with which string literals of several lines are opened. -/
theorem keysOf_ofList_append (cs ds : List Char) :
    keysOf (String.ofList cs ++ String.ofList ds) = keysFrom 0 0 [] (cs ++ ds) := by
  rw [keysOf, String.toList_append, String.toList_ofList, String.toList_ofList]

/-- The key from which an object has the entry of a name: the last one of this name whose object
stands in the frames. -/
def lastKey? (ks : List Key) (around : List Frame) (name : String) : Option Key :=
  (ks.filter fun k => k.around = around ∧ k.name? = some name).getLast?

/-- The key of the entry that a path of names leads to, from an object that stands in the frames. -/
def keyAt? (ks : List Key) : List Frame → List String → Option Key
  | _, [] => none
  | around, [name] => lastKey? ks around name
  | around, name :: next :: path =>
    (lastKey? ks around name).bind fun k => keyAt? ks (.member k.offset :: around) (next :: path)

/-! ### Where keys are looked for -/

section
variable {ks ls : List Key} {around : List Frame}

theorem of_lastKey?_eq_some {name : String} {k : Key} (h : lastKey? ks around name = some k) :
    k ∈ ks ∧ k.around = around ∧ k.name? = some name := by
  obtain ⟨hk, hp⟩ := List.mem_filter.mp (List.mem_of_getLast? h)
  exact ⟨hk, of_decide_eq_true hp⟩

@[simp] theorem lastKey?_append (name : String) :
    lastKey? (ks ++ ls) around name = (lastKey? ls around name).or (lastKey? ks around name) := by
  unfold lastKey?
  rw [List.filter_append, List.getLast?_append]

/-- Keys of other objects are passed over. -/
theorem lastKey?_eq_none (h : ∀ k ∈ ks, k.around ≠ around) (name : String) :
    lastKey? ks around name = none := by
  cases hk : lastKey? ks around name with
  | none => rfl
  | some k =>
    obtain ⟨hmem, haround, -⟩ := of_lastKey?_eq_some hk
    exact absurd haround (h k hmem)

theorem keyAt?_cons {name : String} {k : Key} (h : lastKey? ks around name = some k)
    (path : List String) :
    keyAt? ks around (name :: path) =
      if path = [] then some k else keyAt? ks (.member k.offset :: around) path := by
  cases path with
  | nil =>
    rw [if_pos rfl]
    exact h
  | cons next path => rw [keyAt?, h, Option.bind_some, if_neg (List.cons_ne_nil _ _)]

theorem keyAt?_cons_eq_none {name : String} (h : lastKey? ks around name = none)
    (path : List String) : keyAt? ks around (name :: path) = none := by
  cases path with
  | nil => exact h
  | cons next path => rw [keyAt?, h, Option.bind_none]

/-- Keys that do not stand inside of the frames are passed over, at every depth. -/
theorem keyAt?_append_of_outside :
    ∀ {around : List Frame}, (∀ k ∈ ls, ¬ around <:+ k.around) → ∀ path : List String,
      keyAt? (ks ++ ls) around path = keyAt? ks around path ∧
        keyAt? (ls ++ ks) around path = keyAt? ks around path
  | _, _, [] => ⟨rfl, rfl⟩
  | around, hout, name :: path => by
    have hnone : lastKey? ls around name = none :=
      lastKey?_eq_none (fun l hl heq => hout l hl (heq ▸ List.suffix_rfl)) name
    have hback : lastKey? (ks ++ ls) around name = lastKey? ks around name := by
      rw [lastKey?_append, hnone, Option.none_or]
    have hfront : lastKey? (ls ++ ks) around name = lastKey? ks around name := by
      rw [lastKey?_append, hnone, Option.or_none]
    cases hk : lastKey? ks around name with
    | none =>
      rw [hk] at hback hfront
      rw [keyAt?_cons_eq_none hback, keyAt?_cons_eq_none hfront, keyAt?_cons_eq_none hk]
      exact ⟨rfl, rfl⟩
    | some k =>
      rw [hk] at hback hfront
      have hdeeper : ∀ l ∈ ls, ¬ (.member k.offset :: around) <:+ l.around :=
        fun l hl hsuffix => hout l hl ((List.suffix_cons _ _).trans hsuffix)
      obtain ⟨ihback, ihfront⟩ := keyAt?_append_of_outside hdeeper path
      rw [keyAt?_cons hback, keyAt?_cons hfront, keyAt?_cons hk, ihback, ihfront]
      exact ⟨rfl, rfl⟩

end

/-! ### Passing over a text -/

/-- The first character behind blanks. -/
def nextInk (cs : List Char) : Option Char := (skipSpace cs).head?

/-- What may stand behind a value. -/
def Closes (cs : List Char) : Prop := ∀ c ∈ nextInk cs, c = ',' ∨ c = ']' ∨ c = '}'

/-- A place in a scan, with the text from there on. -/
structure Spot where
  offset : Nat
  frames : List Frame
  text : List Char

/-- A scan that leads from one place to another passes whole strings and finds the keys in between:
strings with a colon behind where an object awaits a key, and no colon behind all others. -/
inductive Passes : Spot → List Key → Spot → Prop where
  | done {p : Spot} : Passes p [] p
  | char {offset : Nat} {frames : List Frame} {c : Char} {cs : List Char} {ks : List Key}
      {q : Spot} : c ≠ '"' → Passes ⟨offset + c.utf8Size, enter c frames, cs⟩ ks q →
      Passes ⟨offset, frames, c :: cs⟩ ks q
  | string {offset : Nat} {frames : List Frame} {body rest : List Char} {ks : List Key}
      {q : Spot} : IsBody body → frames.head? ≠ some .object → Closes rest →
      Passes ⟨offset + (byteSize body + 2), frames, rest⟩ ks q →
      Passes ⟨offset, frames, '"' :: (body ++ '"' :: rest)⟩ ks q
  | key {offset : Nat} {around : List Frame} {body rest : List Char} {ks : List Key}
      {q : Spot} : IsBody body → nextInk rest = some ':' →
      Passes ⟨offset + (byteSize body + 2), .member offset :: around, rest⟩ ks q →
      Passes ⟨offset, .object :: around, '"' :: (body ++ '"' :: rest)⟩
        (⟨around, body, offset⟩ :: ks) q

namespace Passes

variable {p q r : Spot} {ks ls : List Key}

theorem trans (h : Passes p ks q) (h' : Passes q ls r) : Passes p (ks ++ ls) r := by
  induction h with
  | done => exact h'
  | char hc _ ih => exact .char hc (ih h')
  | string hbody hframes hcloses _ ih => exact .string hbody hframes hcloses (ih h')
  | key hbody hcolon _ ih => exact .key hbody hcolon (ih h')

/-- The keys found on the way stand between the two places, one behind the other. -/
theorem separated (h : Passes p ks q) :
    p.offset ≤ q.offset ∧
      (∀ k ∈ ks, p.offset ≤ k.offset ∧ k.offset + k.size ≤ q.offset) ∧
      ks.Pairwise fun k l => k.offset + k.size ≤ l.offset := by
  induction h with
  | done => exact ⟨Nat.le_refl _, by simp, .nil⟩
  | char _ _ ih =>
    obtain ⟨hle, hks, hpairs⟩ := ih
    dsimp only at hle hks ⊢
    exact ⟨by omega, fun k hk => by have := hks k hk; omega, hpairs⟩
  | string _ _ _ _ ih =>
    obtain ⟨hle, hks, hpairs⟩ := ih
    dsimp only at hle hks ⊢
    exact ⟨by omega, fun k hk => by have := hks k hk; omega, hpairs⟩
  | key _ _ _ ih =>
    obtain ⟨hle, hks, hpairs⟩ := ih
    dsimp only at hle hks ⊢
    refine ⟨by omega, fun k hk => ?_, List.pairwise_cons.mpr ⟨fun k hk => (hks k hk).1, hpairs⟩⟩
    rcases List.mem_cons.mp hk with rfl | hk
    · exact ⟨Nat.le_refl _, hle⟩
    · have := hks k hk
      omega

/-- Each key that is found on the way stands in the text at its offset. -/
theorem standsIn (h : Passes p ks q) : ∀ k ∈ ks, k.StandsIn p.text p.offset := by
  have hsize (body : List Char) : byteSize body + 2 = byteSize ('"' :: (body ++ ['"'])) :=
    (Key.byteSize_written ⟨[], body, 0⟩).symm
  induction h with
  | done => simp
  | @char _ _ c _ _ _ _ _ ih => exact fun k hk => (ih k hk).behind [c]
  | @string offset frames body rest _ _ _ _ _ _ ih =>
    intro k hk
    have hstands := ih k hk
    dsimp only at hstands ⊢
    rw [hsize] at hstands
    simpa using hstands.behind
  | @key offset around body rest _ _ _ _ _ ih =>
    intro k hk
    rcases List.mem_cons.mp hk with rfl | hk
    · exact ⟨[], rest, by simp [Key.written], rfl⟩
    · have hstands := ih k hk
      dsimp only at hstands ⊢
      rw [hsize] at hstands
      simpa using hstands.behind

end Passes

/-! ### The scan finds what is passed -/

/-- Passing over characters moves on by their bytes. -/
theorem keysFrom_append (frames : List Frame) (rest : List Char) :
    ∀ (used : List Char) (offset : Nat),
      keysFrom used.length offset frames (used ++ rest) =
        keysFrom 0 (offset + byteSize used) frames rest
  | [], offset => rfl
  | c :: used, offset => by
    rw [List.length_cons, List.cons_append, keysFrom, keysFrom_append frames rest used, byteSize,
      Nat.add_assoc]

/-- A string is passed over as a whole, whatever its body. -/
theorem keysFrom_body {body : List Char} (hbody : IsBody body) (frames : List Frame)
    (rest : List Char) (offset : Nat) :
    keysFrom ((bodyOf (body ++ '"' :: rest)).length + 1) (offset + ('"' : Char).utf8Size) frames
        (body ++ '"' :: rest) =
      keysFrom 0 (offset + (byteSize body + 2)) frames rest := by
  have hused := keysFrom_append frames rest (body ++ ['"']) (offset + ('"' : Char).utf8Size)
  rw [List.length_append, List.append_assoc, byteSize_append] at hused
  have hquote : ('"' : Char).utf8Size = 1 := by decide
  simp only [List.length_singleton, List.singleton_append, byteSize, hquote] at hused
  rw [bodyOf_append hbody, hquote, hused]
  congr 1
  omega

theorem Passes.keysFrom_eq {p q : Spot} {ks : List Key} (h : Passes p ks q) :
    keysFrom 0 p.offset p.frames p.text = ks ++ keysFrom 0 q.offset q.frames q.text := by
  induction h with
  | done => rfl
  | char hc _ ih =>
    dsimp only at ih ⊢
    rw [keysFrom, if_neg hc, ih]
  | string hbody hframes _ _ ih =>
    dsimp only at ih ⊢
    rw [keysFrom, if_pos rfl]
    dsimp only
    split
    · exact absurd rfl hframes
    · rw [keysFrom_body hbody, ih]
  | key hbody _ _ ih =>
    dsimp only at ih ⊢
    rw [keysFrom, if_pos rfl]
    dsimp only
    rw [keysFrom_body hbody, ih, bodyOf_append hbody, List.cons_append]

end Lexgen.Json
