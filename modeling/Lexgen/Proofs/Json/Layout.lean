/-
# The keys of a document are those of its value

Reading a value passes over its text, and the keys that a scan finds on the way lead to exactly the
entries of the value, at every depth (`passes_of_parse`). An object is read key by key; `Tells` is
what holds in between: names without an entry have no key so far, and the last key of every other
name leads to what its value has.

Key definitions: `Value.at?`, `Shows`, `Tells`.
Key theorems: `Tells.putEntry`, `readsValues_readValue`, `passes_of_parse`.
-/
import Lexgen.Proofs.Json.Keys
import Lexgen.Proofs.Json.Numbers

namespace Lexgen.Json

open Lexgen.Data Lexgen.Text

/-- The value that a path of names leads to. -/
def Value.at? (v : Value) : List String → Option Value
  | [] => some v
  | name :: path => (v.member? name).bind (·.at? path)

/-- Keys that stand inside of the frames and lead to the entries of a value. -/
structure Shows (v : Value) (around : List Frame) (ks : List Key) : Prop where
  inside : ∀ k ∈ ks, around <:+ k.around
  entries : ∀ path ≠ [], (keyAt? ks around path).isSome = (v.at? path).isSome

/-- A key deeper inside is none of the object itself. -/
theorem around_ne_of_deeper {around : List Frame} {frame : Frame} {k : Key}
    (h : frame :: around <:+ k.around) : k.around ≠ around := by
  intro heq
  have := h.length_le
  rw [heq, List.length_cons] at this
  omega

/-- A key stands behind one key of an object only. -/
theorem member_eq_of_suffix {around : List Frame} {o o' : Nat} {k : Key}
    (h : .member o :: around <:+ k.around) (h' : .member o' :: around <:+ k.around) : o = o' := by
  have hsuffix := List.suffix_of_suffix_length_le h h' (Nat.le_refl _)
  injection (List.cons.inj (hsuffix.eq_of_length rfl)).1

/-- A value without members is shown by keys deeper inside, as those of the objects in a list. -/
theorem Shows.of_no_members {v : Value} {around : List Frame} {ks : List Key} (frame : Frame)
    (hv : ∀ name, v.member? name = none) (hks : ∀ k ∈ ks, frame :: around <:+ k.around) :
    Shows v around ks where
  inside k hk := (List.suffix_cons _ _).trans (hks k hk)
  entries := by
    rintro (_ | ⟨name, path⟩) hpath
    · exact absurd rfl hpath
    have hnone : lastKey? ks around name = none :=
      lastKey?_eq_none (fun k hk => around_ne_of_deeper (hks k hk)) name
    rw [keyAt?_cons_eq_none hnone, Value.at?, hv]
    rfl

/-! ### The members of an object -/

/-- The members read so far and the keys found so far, at the offset. -/
structure Tells (members : List (String × Value)) (around : List Frame) (ks : List Key)
    (offset : Nat) : Prop where
  inside : ∀ k ∈ ks, around <:+ k.around
  before : ∀ k ∈ ks, k.offset < offset
  behind : ∀ k ∈ ks, ∀ o, .member o :: around <:+ k.around → o < offset
  absent : ∀ name, members.lookup name = none → lastKey? ks around name = none
  present : ∀ name v, members.lookup name = some v → ∃ k, lastKey? ks around name = some k ∧
    ∀ path ≠ [], (keyAt? ks (.member k.offset :: around) path).isSome = (v.at? path).isSome

theorem Tells.nil (around : List Frame) (offset : Nat) : Tells [] around [] offset where
  inside := by simp
  before := by simp
  behind := by simp
  absent _ _ := rfl
  present _ _ h := by cases h

variable {members : List (String × Value)} {around : List Frame} {ks ls : List Key}
  {offset offset' : Nat}

/-- Moving on without reading a member. -/
theorem Tells.mono (h : Tells members around ks offset) (hle : offset ≤ offset') :
    Tells members around ks offset' where
  inside := h.inside
  before k hk := Nat.lt_of_lt_of_le (h.before k hk) hle
  behind k hk o ho := Nat.lt_of_lt_of_le (h.behind k hk o ho) hle
  absent := h.absent
  present := h.present

/-- An object is shown by the keys found until its end. -/
theorem Tells.shows (h : Tells members around ks offset) : Shows (.object members) around ks where
  inside := h.inside
  entries := by
    rintro (_ | ⟨name, path⟩) hpath
    · exact absurd rfl hpath
    rw [Value.at?, Value.member?]
    cases hv : members.lookup name with
    | none =>
      rw [keyAt?_cons_eq_none (h.absent name hv)]
      rfl
    | some v =>
      obtain ⟨k, hk, hdeeper⟩ := h.present name v hv
      rw [keyAt?_cons hk, Option.bind_some]
      by_cases hempty : path = []
      · subst hempty
        rfl
      · rw [if_neg hempty]
        exact hdeeper path hempty

/-- Reading one more member: its key, and behind it a value with the keys that show it. -/
theorem Tells.putEntry {k : Key} {name : String} {v : Value}
    (h : Tells members around ks offset) (haround : k.around = around)
    (hoffset : offset ≤ k.offset) (hname : k.name? = some name)
    (hshows : Shows v (.member k.offset :: around) ls) (hbefore : k.offset < offset')
    (hls : ∀ l ∈ ls, l.offset < offset') :
    Tells (putEntry name v members) around (ks ++ k :: ls) offset' := by
  have hown : ∀ l ∈ ls, l.around ≠ around := fun l hl =>
    around_ne_of_deeper (hshows.inside l hl)
  -- the last key of the name is the new one, and that of another name is still the old one
  have hlast : lastKey? (k :: ls) around name = some k := by
    have hk : lastKey? [k] around name = some k := by simp [lastKey?, haround, hname]
    rw [← List.singleton_append, lastKey?_append, lastKey?_eq_none hown, hk, Option.none_or]
  have hother : ∀ x ≠ name, lastKey? (ks ++ k :: ls) around x = lastKey? ks around x := by
    intro x hx
    have hk : lastKey? [k] around x = none := by simp [lastKey?, hname, hx.symm]
    rw [← List.singleton_append, lastKey?_append, lastKey?_append, lastKey?_eq_none hown, hk,
      Option.none_or, Option.none_or]
  refine ⟨fun l hl => ?_, fun l hl => ?_, fun l hl o ho => ?_, fun x hx => ?_, fun x w hx => ?_⟩
  · rcases List.mem_append.mp hl with hl | hl
    · exact h.inside l hl
    rcases List.mem_cons.mp hl with rfl | hl
    · exact haround ▸ List.suffix_rfl
    · exact (List.suffix_cons _ _).trans (hshows.inside l hl)
  · rcases List.mem_append.mp hl with hl | hl
    · have := h.before l hl
      omega
    rcases List.mem_cons.mp hl with rfl | hl
    · exact hbefore
    · exact hls l hl
  · rcases List.mem_append.mp hl with hl | hl
    · have := h.behind l hl o ho
      omega
    rcases List.mem_cons.mp hl with rfl | hl
    · exact absurd haround (around_ne_of_deeper ho)
    · rw [member_eq_of_suffix ho (hshows.inside l hl)]
      exact hbefore
  · rw [lookup_putEntry] at hx
    split at hx
    · cases hx
    · next hne => rw [hother x hne, h.absent x hx]
  · rw [lookup_putEntry] at hx
    split at hx
    · next heq =>
      cases hx
      subst heq
      refine ⟨k, by rw [lastKey?_append, hlast, Option.some_or], fun path hpath => ?_⟩
      -- neither the keys before nor the key itself stand behind the key
      have hout : ∀ l ∈ ks ++ [k], ¬ .member k.offset :: around <:+ l.around := by
        intro l hl hsuffix
        rcases List.mem_append.mp hl with hl | hl
        · have := h.behind l hl _ hsuffix
          omega
        · rw [List.mem_singleton.mp hl] at hsuffix
          exact around_ne_of_deeper hsuffix haround
      rw [← List.singleton_append, ← List.append_assoc,
        (keyAt?_append_of_outside hout path).2, hshows.entries path hpath]
    · next hne =>
      obtain ⟨d, hd, hdeeper⟩ := h.present x w hx
      refine ⟨d, by rw [hother x hne, hd], fun path hpath => ?_⟩
      have hd' : d.offset < offset := h.before d (of_lastKey?_eq_some hd).1
      have hout : ∀ l ∈ k :: ls, ¬ .member d.offset :: around <:+ l.around := by
        intro l hl hsuffix
        rcases List.mem_cons.mp hl with rfl | hl
        · exact around_ne_of_deeper hsuffix haround
        · have := member_eq_of_suffix hsuffix (hshows.inside l hl)
          omega
      rw [(keyAt?_append_of_outside hout path).1, hdeeper path hpath]

/-! ### Passing over blanks, numbers and marks -/

theorem enter_of_isBare {c : Char} (h : isBare c) (frames : List Frame) :
    enter c frames = frames := by
  unfold enter
  split <;> first | rfl | exact absurd h (by decide)

variable {frames : List Frame} {cs rest : List Char}

/-- Bare characters leave everything as it is. -/
theorem Passes.of_skips (h : Skips cs rest) (offset : Nat) (frames : List Frame) :
    ∃ offset', Passes ⟨offset, frames, cs⟩ [] ⟨offset', frames, rest⟩ := by
  obtain ⟨used, rfl, hused⟩ := h
  induction used generalizing offset with
  | nil => exact ⟨offset, .done⟩
  | cons c used ih =>
    have hc : isBare c := hused c (by simp)
    obtain ⟨offset', hpasses⟩ :=
      ih (offset + c.utf8Size) fun d hd => hused d (List.mem_cons_of_mem c hd)
    refine ⟨offset', .char (fun hquote => absurd hc (hquote ▸ by decide)) ?_⟩
    rwa [enter_of_isBare hc]

/-- A mark behind blanks. -/
theorem Passes.of_mark {c : Char} (h : skipSpace cs = c :: rest) (hc : c ≠ '"') (offset : Nat)
    (frames : List Frame) :
    ∃ offset', Passes ⟨offset, frames, cs⟩ [] ⟨offset', enter c frames, rest⟩ := by
  obtain ⟨middle, hblank⟩ := of_skips (h ▸ skips_skipSpace cs) offset frames
  exact ⟨_, hblank.trans (.char hc .done)⟩

theorem closes_of_mark {c : Char} (h : skipSpace cs = c :: rest)
    (hc : c = ',' ∨ c = ']' ∨ c = '}') : Closes cs := by
  intro d hd
  rw [nextInk, h] at hd
  cases hd
  exact hc

/-! ### What the readers pass -/

/-- A reader passes over the text of a value and finds the keys that show it. -/
def ReadsValues (item : List Char → Except Fault (Value × List Char)) : Prop :=
  ∀ ⦃cs v rest⦄, item cs = .ok (v, rest) → Closes rest →
    ∀ offset frames, frames.head? ≠ some .object → ∃ offset' ks,
      Passes ⟨offset, frames, cs⟩ ks ⟨offset', frames, rest⟩ ∧ Shows v frames ks

theorem readsValues_readScalar : ReadsValues readScalar := by
  intro cs v rest h hcloses offset frames hframes
  have hnone : ∀ {v : Value}, (∀ name, v.member? name = none) → Shows v frames [] := fun hv =>
    .of_no_members .list hv (by simp)
  have hword : ∀ {w : Value} {c : Char} {word cs : List Char}, (∀ name, w.member? name = none) →
      word.all isBare = true → isBare c → readWord w word cs = .ok (v, rest) → ∃ offset' ks,
      Passes ⟨offset, frames, c :: cs⟩ ks ⟨offset', frames, rest⟩ ∧ Shows v frames ks := by
    intro w c word cs hw hbare hc hread
    obtain ⟨rfl, hskips⟩ := gives_skips_readWord cs hbare _ hread
    obtain ⟨offset', hpasses⟩ := Passes.of_skips (hskips.cons hc) offset frames
    exact ⟨offset', [], hpasses, hnone hw⟩
  unfold readScalar at h
  split at h
  · cases h
  · exact hword (fun _ => rfl) rfl rfl h
  · exact hword (fun _ => rfl) rfl rfl h
  · exact hword (fun _ => rfl) rfl rfl h
  · obtain ⟨⟨s, rest'⟩, hs, heq⟩ := bind_eq_ok_iff.mp h
    cases heq
    obtain ⟨body, rfl, hbody, -⟩ := exists_body_of_readString hs
    exact ⟨_, [], .string hbody hframes hcloses .done, hnone fun _ => rfl⟩
  · split at h
    · obtain ⟨⟨n, rest'⟩, hn, heq⟩ := bind_eq_ok_iff.mp h
      cases heq
      obtain ⟨offset', hpasses⟩ :=
        Passes.of_skips (gives_skips_readNumber _ _ hn) offset frames
      exact ⟨offset', [], hpasses, hnone fun _ => rfl⟩
    · cases h

variable {item : List Char → Except Fault (Value × List Char)}

/-- The items of a list stand inside of it. -/
theorem passes_of_readItems (hitem : ReadsValues item) :
    ∀ {fuel : Nat} {cs : List Char} {vs : List Value} {rest : List Char},
      readItems item fuel cs = .ok (vs, rest) → ∀ offset frames, ∃ offset' ks,
        Passes ⟨offset, .list :: frames, cs⟩ ks ⟨offset', frames, rest⟩ ∧
          ∀ k ∈ ks, .list :: frames <:+ k.around
  | fuel + 1, cs, vs, rest, h, offset, frames => by
    unfold readItems at h
    obtain ⟨⟨v, middle⟩, hv, hmore⟩ := bind_eq_ok_iff.mp h
    have hframes : (Frame.list :: frames).head? ≠ some .object := by simp
    dsimp only at hmore
    split at hmore
    · cases hmore
    · next behind hend =>
      cases hmore
      obtain ⟨offset', ks, hpasses, hshows⟩ :=
        hitem hv (closes_of_mark hend (by decide)) offset _ hframes
      obtain ⟨offset'', hmark⟩ := Passes.of_mark hend (by decide) offset' (.list :: frames)
      exact ⟨offset'', _, hpasses.trans hmark, by simpa using hshows.inside⟩
    · next behind hcomma =>
      obtain ⟨offset', ks, hpasses, hshows⟩ :=
        hitem hv (closes_of_mark hcomma (by decide)) offset _ hframes
      obtain ⟨offset'', hmark⟩ := Passes.of_mark hcomma (by decide) offset' (.list :: frames)
      split at hmore
      · cases hmore
      · cases hmore
      · obtain ⟨⟨vs', rest'⟩, hvs, heq⟩ := bind_eq_ok_iff.mp hmore
        cases heq
        obtain ⟨offset₃, hblank⟩ :=
          Passes.of_skips (skips_skipSpace behind) offset'' (.list :: frames)
        obtain ⟨offset₄, ls, hrest, hls⟩ := passes_of_readItems hitem hvs offset₃ frames
        refine ⟨offset₄, _, ((hpasses.trans hmark).trans hblank).trans hrest, ?_⟩
        simp only [List.append_nil]
        exact List.forall_mem_append.mpr ⟨hshows.inside, hls⟩
    · cases hmore

theorem passes_of_readList (hitem : ReadsValues item) {v : Value}
    (h : readList item cs = .ok (v, rest)) (offset : Nat) (frames : List Frame) : ∃ offset' ks,
      Passes ⟨offset, .list :: frames, cs⟩ ks ⟨offset', frames, rest⟩ ∧ Shows v frames ks := by
  unfold readList at h
  split at h
  · cases h
  · next behind hend =>
    cases h
    obtain ⟨offset', hmark⟩ := Passes.of_mark hend (by decide) offset (.list :: frames)
    exact ⟨offset', [], hmark, .of_no_members .list (fun _ => rfl) (by simp)⟩
  · obtain ⟨⟨vs, rest'⟩, hvs, heq⟩ := bind_eq_ok_iff.mp h
    cases heq
    obtain ⟨offset', hblank⟩ := Passes.of_skips (skips_skipSpace cs) offset (.list :: frames)
    obtain ⟨offset'', ks, hpasses, hks⟩ := passes_of_readItems hitem hvs offset' frames
    exact ⟨offset'', _, hblank.trans hpasses, .of_no_members .list (fun _ => rfl) hks⟩

/-- A colon behind a key, and the value behind it. -/
theorem passes_of_readColon (h : readColon cs = .ok ((), rest)) (offset : Nat)
    (frames : List Frame) : nextInk cs = some ':' ∧
      ∃ offset', Passes ⟨offset, frames, cs⟩ [] ⟨offset', frames, rest⟩ := by
  unfold readColon at h
  split at h
  · cases h
  · next behind hcolon =>
    cases h
    exact ⟨by rw [nextInk, hcolon, List.head?_cons],
      Passes.of_mark hcolon (by decide) offset frames⟩
  · cases h

/-- One member of an object, from the opening quote of its key to the end of its value. -/
theorem passes_of_member (hitem : ReadsValues item) {name : String} {v : Value}
    {text behind inner : List Char} (hname : readString text = .ok (name, behind))
    (hcolon : readColon behind = .ok ((), inner)) (hv : item inner = .ok (v, rest))
    (hcloses : Closes rest) (htells : Tells members around ks offset) : ∃ offset' ls,
      Passes ⟨offset, .object :: around, '"' :: text⟩ ls
        ⟨offset', .member offset :: around, rest⟩ ∧
        Tells (putEntry name v members) around (ks ++ ls) offset' := by
  obtain ⟨body, rfl, hbody, -, hreads⟩ := exists_body_of_readString hname
  obtain ⟨hink, offset₁, hmark⟩ := passes_of_readColon hcolon (offset + (byteSize body + 2))
    (.member offset :: around)
  obtain ⟨offset₂, ls, hvalue, hshows⟩ :=
    hitem hv hcloses offset₁ (.member offset :: around) (by simp)
  have hpasses := Passes.key hbody hink (hmark.trans hvalue)
  obtain ⟨-, hoffsets, -⟩ := hpasses.separated
  have hbefore : ∀ l ∈ (⟨around, body, offset⟩ : Key) :: ls, l.offset < offset₂ := by
    intro l hl
    have hl' : l.offset + (byteSize l.body + 2) ≤ offset₂ := (hoffsets l hl).2
    omega
  refine ⟨offset₂, _, hpasses, htells.putEntry rfl (Nat.le_refl _) ?_ hshows ?_ ?_⟩
  · rw [Key.name?, hreads]
  · exact hbefore _ (List.mem_cons_self ..)
  · exact fun l hl => hbefore l (List.mem_cons_of_mem _ hl)

/-- The members of an object, whose keys tell which members were read. -/
theorem passes_of_readMembers (hitem : ReadsValues item) :
    ∀ {fuel : Nat} {members members' : List (String × Value)} {cs rest : List Char},
      readMembers item fuel members cs = .ok (members', rest) →
      ∀ {offset : Nat} {around : List Frame} {ks : List Key}, Tells members around ks offset →
        ∃ offset' ls, Passes ⟨offset, .object :: around, cs⟩ ls ⟨offset', around, rest⟩ ∧
          Tells members' around (ks ++ ls) offset'
  | fuel + 1, members, members', cs, rest, h, offset, around, ks, htells => by
    unfold readMembers at h
    split at h
    · next text =>
      obtain ⟨⟨name, behind⟩, hname, h₁⟩ := bind_eq_ok_iff.mp h
      obtain ⟨⟨_, inner⟩, hcolon, h₂⟩ := bind_eq_ok_iff.mp h₁
      obtain ⟨⟨v, middle⟩, hv, h₃⟩ := bind_eq_ok_iff.mp h₂
      clear h h₁ h₂
      dsimp only at h₃
      split at h₃
      · cases h₃
      · next behind' hend =>
        cases h₃
        obtain ⟨offset', ls, hpasses, htells'⟩ :=
          passes_of_member hitem hname hcolon hv (closes_of_mark hend (by decide)) htells
        obtain ⟨offset'', hmark⟩ :=
          Passes.of_mark hend (by decide) offset' (.member offset :: around)
        exact ⟨offset'', ls, List.append_nil ls ▸ hpasses.trans hmark,
          htells'.mono hmark.separated.1⟩
      · next behind' hcomma =>
        obtain ⟨offset', ls, hpasses, htells'⟩ :=
          passes_of_member hitem hname hcolon hv (closes_of_mark hcomma (by decide)) htells
        obtain ⟨offset'', hmark⟩ :=
          Passes.of_mark hcomma (by decide) offset' (.member offset :: around)
        split at h₃
        · cases h₃
        · cases h₃
        · obtain ⟨offset₃, hblank⟩ :=
            Passes.of_skips (skips_skipSpace behind') offset'' (.object :: around)
          have hmoved := hmark.trans hblank
          obtain ⟨offset₄, ls', hrest, htells''⟩ :=
            passes_of_readMembers hitem h₃ (htells'.mono hmoved.separated.1)
          exact ⟨offset₄, ls ++ ls', by simpa using (hpasses.trans hmoved).trans hrest,
            by simpa using htells''⟩
      · cases h₃
    · cases h

theorem passes_of_readObject (hitem : ReadsValues item) {v : Value}
    (h : readObject item cs = .ok (v, rest)) (offset : Nat) (around : List Frame) : ∃ offset' ks,
      Passes ⟨offset, .object :: around, cs⟩ ks ⟨offset', around, rest⟩ ∧ Shows v around ks := by
  unfold readObject at h
  split at h
  · cases h
  · next behind hend =>
    cases h
    obtain ⟨offset', hmark⟩ := Passes.of_mark hend (by decide) offset (.object :: around)
    exact ⟨offset', [], hmark, (Tells.nil around offset).shows⟩
  · obtain ⟨⟨members, rest'⟩, hmembers, heq⟩ := bind_eq_ok_iff.mp h
    cases heq
    obtain ⟨offset', hblank⟩ := Passes.of_skips (skips_skipSpace cs) offset (.object :: around)
    obtain ⟨offset'', ks, hpasses, htells⟩ :=
      passes_of_readMembers hitem hmembers (Tells.nil around offset')
    exact ⟨offset'', ks, hblank.trans hpasses, htells.shows⟩

/-- **Reading a value** passes over its text and finds the keys that show it, however deep lists and
objects nest. -/
theorem readsValues_readValue : ∀ depth : Nat, ReadsValues (readValue depth)
  | 0 => by
    intro cs v rest h hcloses offset frames hframes
    obtain ⟨offset', hblank⟩ := Passes.of_skips (skips_skipSpace cs) offset frames
    unfold readValue at h
    split at h
    · cases h
    · cases h
    · obtain ⟨offset'', ks, hpasses, hshows⟩ :=
        readsValues_readScalar h hcloses offset' frames hframes
      exact ⟨offset'', ks, hblank.trans hpasses, hshows⟩
  | depth + 1 => by
    intro cs v rest h hcloses offset frames hframes
    unfold readValue at h
    split at h
    · next behind hopen =>
      obtain ⟨offset', hmark⟩ := Passes.of_mark hopen (by decide) offset frames
      obtain ⟨offset'', ks, hpasses, hshows⟩ :=
        passes_of_readList (readsValues_readValue depth) h offset' frames
      exact ⟨offset'', ks, hmark.trans hpasses, hshows⟩
    · next behind hopen =>
      obtain ⟨offset', hmark⟩ := Passes.of_mark hopen (by decide) offset frames
      obtain ⟨offset'', ks, hpasses, hshows⟩ :=
        passes_of_readObject (readsValues_readValue depth) h offset' frames
      exact ⟨offset'', ks, hmark.trans hpasses, hshows⟩
    · obtain ⟨offset', hblank⟩ := Passes.of_skips (skips_skipSpace cs) offset frames
      obtain ⟨offset'', ks, hpasses, hshows⟩ :=
        readsValues_readScalar h hcloses offset' frames hframes
      exact ⟨offset'', ks, hblank.trans hpasses, hshows⟩

/-- **The keys of a document are those of its value**: the scan passes over the whole text, and a
path of names leads to a key exactly if it leads to a value. -/
theorem passes_of_parse {text : String} {root : Value} (h : parse text = .ok root) :
    (∃ size, Passes ⟨0, [], text.toList⟩ (keysOf text) ⟨size, [], []⟩) ∧
      ∀ path ≠ [], (keyAt? (keysOf text) [] path).isSome = (root.at? path).isSome := by
  obtain ⟨⟨v, rest⟩, hv, hrest⟩ := bind_eq_ok_iff.mp h
  dsimp only at hrest
  split at hrest
  · next hend =>
    cases hrest
    have hcloses : Closes rest := by
      intro c hc
      rw [nextInk, hend] at hc
      cases hc
    obtain ⟨offset, ks, hpasses, hshows⟩ :=
      readsValues_readValue maxDepth hv hcloses 0 [] (by simp)
    obtain ⟨size, hblank⟩ := Passes.of_skips (hend ▸ skips_skipSpace rest) offset []
    have hwhole := hpasses.trans hblank
    have hkeys : keysOf text = ks := by
      unfold keysOf
      simpa [keysFrom] using hwhole.keysFrom_eq
    rw [hkeys]
    exact ⟨⟨size, by simpa using hwhole⟩, hshows.entries⟩
  · cases hrest

end Lexgen.Json
