/-
# Where paths lead

What a path leads to depends on the items on its way and on nothing else, and a way that is there
stays as long as directories do (`walk_mono`). For a name in a directory every operation comes down
to two locations, that of the directory and that of the name below it.

Key definitions: `Tree.start`, `Tree.Leads`, `Tree.Proper`.
Key theorems: `walk_append`, `Leads.mono`, `lookup_join_eq_ok_iff`, `exists_list_eq_ok`,
`makeDirectory_eq`, `replace_eq_ok_iff`.
-/
import Lexgen.Data.Steps
import Lexgen.Proofs.Files.Path

namespace Lexgen.Files.Tree

open Lexgen.Data

variable {t t' : Tree}

/-! ### Following paths -/

/-- The location that a path starts from. -/
def start (t : Tree) (path : String) : Location := if isRooted path then [] else t.here

theorem follow_eq_ok_iff {path : String} {ps : List String} {place : Location} :
    t.follow path ps = .ok place ↔ Usable path ∧ t.walk (t.start path) ps = .ok place := by
  rw [follow, start]
  constructor
  · intro h
    split at h
    · cases h
    · next hnul =>
      split at h
      · cases h
      · next hempty =>
        split at h
        · cases h
        · next hlong =>
          exact ⟨⟨by simpa using hnul, by simpa using hempty, Nat.lt_of_not_le hlong⟩, h⟩
  · rintro ⟨⟨hnul, hempty, hshort⟩, h⟩
    rw [if_neg (by simp [hnul]), if_neg (by simpa using hempty), if_neg (Nat.not_le.2 hshort)]
    exact h

/-- To walk pieces one after the other. -/
theorem walk_append (ps qs : List String) (place : Location) :
    t.walk place (ps ++ qs) = t.walk place ps >>= fun next => t.walk next qs := by
  induction ps generalizing place with
  | nil => rfl
  | cons p ps ih =>
    rw [List.cons_append, walk, walk]
    split
    · rfl
    · rfl
    · split
      · exact ih place
      · split
        · exact ih place.dropLast
        · split
          · rfl
          · exact ih (place ++ [p])

/-- The first piece is taken on a directory. -/
theorem walk_cons_of_directory {place : Location} (h : t.item? place = some .directory)
    (p : String) (ps : List String) :
    t.walk place (p :: ps) =
      if p = "" ∨ p = "." then t.walk place ps
      else if p = ".." then t.walk place.dropLast ps
      else if maxName < p.utf8ByteSize then .error .nameTooLong
      else t.walk (place ++ [p]) ps := by
  rw [walk, h]

theorem item?_of_walk_cons {place next : Location} {p : String} {ps : List String}
    (h : t.walk place (p :: ps) = .ok next) : t.item? place = some .directory := by
  rw [walk] at h
  split at h
  · cases h
  · cases h
  · assumption

/-- A way on directories stays as long as the directories do. -/
theorem walk_mono (h : ∀ x, t.item? x = some .directory → t'.item? x = some .directory)
    {next : Location} : ∀ {ps : List String} {place : Location},
      t.walk place ps = .ok next → t'.walk place ps = .ok next
  | [], place, hwalk => hwalk
  | p :: ps, place, hwalk => by
    have hdirectory := item?_of_walk_cons hwalk
    rw [walk_cons_of_directory hdirectory] at hwalk
    rw [walk_cons_of_directory (h place hdirectory)]
    split at hwalk
    · next hidle => rw [if_pos hidle]; exact walk_mono h hwalk
    · next hidle =>
      rw [if_neg hidle]
      split at hwalk
      · next hup => rw [if_pos hup]; exact walk_mono h hwalk
      · next hup =>
        rw [if_neg hup]
        split at hwalk
        · cases hwalk
        · next hlong => rw [if_neg hlong]; exact walk_mono h hwalk

/-- A step to a name goes from a directory to the location below it. -/
theorem walk_cons_eq_ok_iff {name : String} (hname : IsName name) {ps : List String}
    {place next : Location} : t.walk place (name :: ps) = .ok next ↔
      t.item? place = some .directory ∧ name.utf8ByteSize ≤ maxName ∧
        t.walk (place ++ [name]) ps = .ok next := by
  have hidle : ¬ (name = "" ∨ name = ".") := not_or.2 ⟨hname.ne_empty, hname.ne_here⟩
  constructor
  · intro h
    have hplace := item?_of_walk_cons h
    rw [walk_cons_of_directory hplace, if_neg hidle, if_neg hname.ne_up] at h
    split at h
    · cases h
    · next hshort => exact ⟨hplace, Nat.le_of_not_lt hshort, h⟩
  · rintro ⟨hplace, hshort, h⟩
    rwa [walk_cons_of_directory hplace, if_neg hidle, if_neg hname.ne_up,
      if_neg (Nat.not_lt.2 hshort)]

/-- Where the pieces of a directory lead to; nothing needs to be there yet. -/
def Leads (t : Tree) (directory : String) (place : Location) : Prop :=
  t.walk (t.start directory) (basePieces directory) = .ok place

theorem Leads.eq {directory : String} {place place' : Location} (h : t.Leads directory place)
    (h' : t.Leads directory place') : place = place' := Except.ok.inj (h.symm.trans h')

theorem Leads.mono (h : ∀ x, t.item? x = some .directory → t'.item? x = some .directory)
    (hhere : t'.here = t.here) {directory : String} {place : Location}
    (hleads : t.Leads directory place) : t'.Leads directory place := by
  rw [Leads, start, hhere]
  exact walk_mono h hleads

/-- A path below a base leads on from where the base does. -/
theorem follow_join_eq_ok_iff {base path : String} (h : isRooted path = false)
    {place : Location} :
    t.follow (join base path) (pieces (join base path)) = .ok place ↔
      Usable (join base path) ∧
        ∃ middle, t.Leads base middle ∧ t.walk middle (pieces path) = .ok place := by
  have hstart : t.start (join base path) = t.start base := by rw [start, isRooted_join h, start]
  rw [follow_eq_ok_iff, hstart, pieces_join h, walk_append, bind_eq_ok_iff]
  rfl

/-- The directory below a base leads on from where the base does. -/
theorem leads_join_iff {base path : String} (hrooted : isRooted path = false)
    (hpath : EndsInName path) {place : Location} :
    t.Leads (join base path) place ↔
      ∃ middle, t.Leads base middle ∧ t.walk middle (pieces path) = .ok place := by
  have hstart : t.start (join base path) = t.start base := by
    rw [start, isRooted_join hrooted, start]
  rw [Leads, (hpath.join hrooted base).basePieces_eq, hstart, pieces_join hrooted, walk_append,
    bind_eq_ok_iff]
  rfl

theorem lookup_eq_ok_iff {path : String} {item : Item} : t.lookup path = .ok item ↔
    ∃ place, t.follow path (pieces path) = .ok place ∧ t.item? place = some item := by
  rw [lookup, bind_eq_ok_iff]
  refine exists_congr fun place => and_congr_right fun _ => ?_
  cases t.item? place <;> simp

theorem kind_eq_ok_iff {path : String} {k : Kind} :
    t.kind path = .ok k ↔ ∃ item, t.lookup path = .ok item ∧ item.kind = k := by
  rw [kind]
  cases t.lookup path <;> simp [Except.map]

theorem read_eq_ok_iff {path : String} {content : ByteArray} :
    t.read path = .ok content ↔ t.lookup path = .ok (.file content) := by
  rw [read, bind_eq_ok_iff]
  constructor
  · rintro ⟨item, hitem, h⟩
    cases item with
    | file => cases h; exact hitem
    | directory => cases h
  · exact fun h => ⟨_, h, rfl⟩

/-- A tree as a system has them: what stands somewhere has a name and stands in a directory. -/
structure Proper (t : Tree) : Prop where
  isName : ∀ place name, (t.item? (place ++ [name])).isSome → IsName name
  parent : ∀ place name, (t.item? (place ++ [name])).isSome → t.item? place = some .directory

/-- It is enough to look at the items. -/
theorem proper_iff : t.Proper ↔ ∀ e ∈ t.items, ∀ name ∈ e.1.getLast?,
    IsName name ∧ (t.item? e.1.dropLast).map Item.kind = some .directory := by
  have hkind (place : Location) :
      (t.item? place).map Item.kind = some .directory ↔ t.item? place = some .directory := by
    cases t.item? place with
    | none => simp
    | some item => cases item <;> simp [Item.kind]
  simp only [hkind]
  constructor
  · intro h e he name hname
    obtain ⟨place, hplace⟩ := List.getLast?_eq_some_iff.1 hname
    have hitem : (t.item? (place ++ [name])).isSome := by
      rw [item?, if_neg (List.concat_ne_nil name place), List.lookup_isSome_iff]
      exact ⟨e, he, beq_iff_eq.2 hplace.symm⟩
    rw [hplace, List.dropLast_concat]
    exact ⟨h.isName place name hitem, h.parent place name hitem⟩
  · intro h
    have hall (place : Location) (name : String) (hitem : (t.item? (place ++ [name])).isSome) :
        IsName name ∧ t.item? place = some .directory := by
      rw [item?, if_neg (List.concat_ne_nil name place), List.lookup_isSome_iff] at hitem
      obtain ⟨e, he, heq⟩ := hitem
      have hplace := beq_iff_eq.1 heq
      have hname := h e he name (by rw [← hplace, List.getLast?_concat]; rfl)
      rwa [← hplace, List.dropLast_concat] at hname
    exact ⟨fun place name hitem => (hall place name hitem).1,
      fun place name hitem => (hall place name hitem).2⟩

instance : DecidablePred Proper := fun _ => decidable_of_iff' _ proper_iff

/-! ### A name in a directory -/

section
variable {directory name : String} {place : Location}

theorem follow_join_name_eq_ok_iff (hplace : t.Leads directory place) (hname : IsName name)
    {below : Location} :
    t.follow (join directory name) (pieces (join directory name)) = .ok below ↔
      Usable (join directory name) ∧ t.item? place = some .directory ∧
        name.utf8ByteSize ≤ maxName ∧ below = place ++ [name] := by
  rw [follow_join_eq_ok_iff hname.isRooted_eq, hname.pieces_eq]
  refine and_congr_right fun _ => ?_
  constructor
  · rintro ⟨middle, hmiddle, hwalk⟩
    cases hmiddle.eq hplace
    obtain ⟨hdirectory, hshort, hself⟩ := (walk_cons_eq_ok_iff hname).1 hwalk
    exact ⟨hdirectory, hshort, (Except.ok.inj hself).symm⟩
  · rintro ⟨hdirectory, hshort, rfl⟩
    exact ⟨place, hplace, (walk_cons_eq_ok_iff hname).2 ⟨hdirectory, hshort, rfl⟩⟩

/-- Where a name in a directory is found, the directory is. -/
theorem exists_of_follow_join_name (hname : IsName name) {below : Location}
    (h : t.follow (join directory name) (pieces (join directory name)) = .ok below) :
    ∃ place, t.Leads directory place ∧ t.item? place = some .directory ∧
      below = place ++ [name] := by
  obtain ⟨-, place, hplace, hwalk⟩ := (follow_join_eq_ok_iff hname.isRooted_eq).1 h
  rw [hname.pieces_eq] at hwalk
  obtain ⟨hdirectory, -, hself⟩ := (walk_cons_eq_ok_iff hname).1 hwalk
  exact ⟨place, hplace, hdirectory, (Except.ok.inj hself).symm⟩

/-- **What a name in a directory leads to.** -/
theorem lookup_join_eq_ok_iff (hplace : t.Leads directory place) (hname : IsName name)
    {item : Item} :
    t.lookup (join directory name) = .ok item ↔
      Usable (join directory name) ∧ t.item? place = some .directory ∧
        name.utf8ByteSize ≤ maxName ∧ t.item? (place ++ [name]) = some item := by
  rw [lookup_eq_ok_iff]
  constructor
  · rintro ⟨below, hbelow, hitem⟩
    obtain ⟨husable, hdirectory, hshort, rfl⟩ := (follow_join_name_eq_ok_iff hplace hname).1 hbelow
    exact ⟨husable, hdirectory, hshort, hitem⟩
  · rintro ⟨husable, hdirectory, hshort, hitem⟩
    exact ⟨_, (follow_join_name_eq_ok_iff hplace hname).2 ⟨husable, hdirectory, hshort, rfl⟩, hitem⟩

/-- Trees that agree on a directory and on a name in it agree on the path to that name. -/
theorem lookup_join_congr (hplace : t.Leads directory place) (hplace' : t'.Leads directory place)
    (hname : IsName name) (hdirectory : t'.item? place = t.item? place)
    (hitem : t'.item? (place ++ [name]) = t.item? (place ++ [name])) {item : Item} :
    t'.lookup (join directory name) = .ok item ↔ t.lookup (join directory name) = .ok item := by
  rw [lookup_join_eq_ok_iff hplace' hname, lookup_join_eq_ok_iff hplace hname, hdirectory, hitem]

/-! ### A directory -/

theorem Leads.follow_eq (hplace : t.Leads directory place) (hdirectory : EndsInName directory)
    (husable : Usable directory) : t.follow directory (pieces directory) = .ok place :=
  follow_eq_ok_iff.2 ⟨husable, by rw [← hdirectory.basePieces_eq]; exact hplace⟩

theorem Leads.lookup_eq_ok_iff (hplace : t.Leads directory place)
    (hdirectory : EndsInName directory) (husable : Usable directory) {item : Item} :
    t.lookup directory = .ok item ↔ t.item? place = some item := by
  rw [Tree.lookup_eq_ok_iff, hplace.follow_eq hdirectory husable]
  simp

/-- To a directory leads its path, with a slash at the end or without. -/
theorem follow_directory_iff (husable : Usable directory)
    (hitem : t.item? place = some .directory) :
    t.follow directory (pieces directory) = .ok place ↔ t.Leads directory place := by
  obtain ⟨first, rest, idle, hbase, hpieces, hidle⟩ := exists_basePieces husable.ne_empty
  rw [follow_eq_ok_iff, hpieces, ← hbase, walk_append, bind_eq_ok_iff]
  constructor
  · rintro ⟨-, middle, hmiddle, hstays⟩
    rcases hidle with rfl | rfl
    · exact Except.ok.inj hstays ▸ hmiddle
    · have hdirectory := item?_of_walk_cons hstays
      rw [walk_cons_of_directory hdirectory, if_pos (.inl rfl)] at hstays
      exact Except.ok.inj hstays ▸ hmiddle
  · intro hplace
    refine ⟨husable, place, hplace, ?_⟩
    rcases hidle with rfl | rfl
    · rfl
    · rw [walk_cons_of_directory hitem, if_pos (.inl rfl)]
      rfl

/-- A directory that is there is led to. -/
theorem kind_eq_directory_iff : t.kind directory = .ok .directory ↔
    Usable directory ∧ ∃ place, t.Leads directory place ∧ t.item? place = some .directory := by
  constructor
  · intro h
    obtain ⟨item, hlookup, hitem⟩ := kind_eq_ok_iff.1 h
    obtain ⟨place, hfollow, hplace⟩ := lookup_eq_ok_iff.1 hlookup
    have husable := (follow_eq_ok_iff.1 hfollow).1
    cases item with
    | file => cases hitem
    | directory => exact ⟨husable, place, (follow_directory_iff husable hplace).1 hfollow, hplace⟩
  · rintro ⟨husable, place, hplace, hitem⟩
    exact kind_eq_ok_iff.2 ⟨_, lookup_eq_ok_iff.2
      ⟨place, (follow_directory_iff husable hitem).2 hplace, hitem⟩, rfl⟩

/-- What stands in a directory makes it one. -/
theorem kind_of_lookup_join (hdirectory : directory ≠ "") (hname : IsName name) {item : Item}
    (h : t.lookup (join directory name) = .ok item) : t.kind directory = .ok .directory := by
  obtain ⟨below, hbelow, -⟩ := lookup_eq_ok_iff.1 h
  have husable := (follow_eq_ok_iff.1 hbelow).1
  obtain ⟨place, hplace, hitem, -⟩ := exists_of_follow_join_name hname hbelow
  exact kind_eq_directory_iff.2 ⟨husable.of_join hdirectory hname, place, hplace, hitem⟩

theorem nameBelow?_eq_some_iff {below : Location} :
    nameBelow? place below = some name ↔ below = place ++ [name] := by
  rw [nameBelow?]
  constructor
  · intro h
    split at h
    · next hprefix =>
      cases h
      exact (List.isPrefixOf?_eq_some_iff_append_eq.1 hprefix).symm
    · cases h
  · rintro rfl
    rw [List.isPrefixOf?_eq_some_iff_append_eq.2 rfl]

/-- A directory that is there is listed. -/
theorem exists_list_eq_ok (hplace : t.Leads directory place) (husable : Usable directory)
    (hitem : t.item? place = some .directory) :
    ∃ found, t.list directory = .ok found ∧
      ∀ n, n ∈ found ↔ (t.item? (place ++ [n])).isSome := by
  have hfollow := (follow_directory_iff husable hitem).2 hplace
  refine ⟨t.items.filterMap fun e => nameBelow? place e.1, ?_, fun n => ?_⟩
  · simp [list, hfollow, hitem, bind, Except.bind]
  · rw [item?, if_neg (List.concat_ne_nil n place), List.mem_filterMap, List.lookup_isSome_iff]
    simp [nameBelow?_eq_some_iff]

/-! ### Changes -/

theorem targetPieces_concat {path : String} {before : List String}
    (hpieces : pieces path = before ++ [name]) (hname : IsName name) :
    targetPieces path = pieces path := by
  simp [targetPieces, hpieces, hname.ne_empty]

theorem namesEntry_concat (before : List String) (hname : IsName name) :
    namesEntry (before ++ [name]) = true := by
  simp [namesEntry, hname.ne_here, hname.ne_up]

/-- A directory is made where nothing is yet. -/
theorem makeDirectory_eq (hplace : t.Leads directory place) (hdirectory : EndsInName directory)
    (husable : Usable directory) :
    t.makeDirectory directory =
      if (t.item? place).isSome then .error .exists else .ok (t.put place .directory) := by
  have hfollow := hplace.follow_eq hdirectory husable
  obtain ⟨before, last, hpieces, hlast⟩ := hdirectory
  have hentry : namesEntry (pieces directory) = true := hpieces ▸ namesEntry_concat before hlast
  simp [makeDirectory, targetPieces_concat hpieces hlast, hfollow, hentry, bind, Except.bind]

theorem usable_of_replace {path : String} {content : ByteArray}
    (h : t.replace path content = .ok t') : Usable path := by
  rw [replace] at h
  split at h
  · cases h
  · obtain ⟨below, hfollow, -⟩ := bind_eq_ok_iff.1 h
    exact (follow_eq_ok_iff.1 hfollow).1

/-- **When a file is put in its place**, and what the tree is then. -/
theorem replace_eq_ok_iff (hplace : t.Leads directory place) (hname : IsName name)
    {content : ByteArray} : t.replace (join directory name) content = .ok t' ↔
      (Usable (join directory name) ∧ t.item? place = some .directory ∧
        name.utf8ByteSize ≤ maxName) ∧ t.item? (place ++ [name]) ≠ some .directory ∧
      t.put (place ++ [name]) (.file content) = t' := by
  have hpieces := @pieces_join_name directory name hname
  have hentry : namesEntry (pieces (join directory name)) = true :=
    hpieces ▸ namesEntry_concat _ hname
  have hlast : (pieces (join directory name)).getLast? ≠ some "" := by
    simp [hpieces, hname.ne_empty]
  have hfollow {below : Location} := @follow_join_name_eq_ok_iff t _ _ _ hplace hname below
  have hok : t.replace (join directory name) content = .ok t' ↔
      ∃ below, t.follow (join directory name) (pieces (join directory name)) = .ok below ∧
        t.item? below ≠ some .directory ∧ t.put below (.file content) = t' := by
    cases hnul : holdsNul (join directory name) with
    | true => simp [replace, follow, hnul, bind, Except.bind]
    | false =>
      rw [replace]
      simp only [targetPieces_concat hpieces hname, hnul, hentry, Bool.false_eq_true, if_false,
        Bool.not_true, hlast, bind_eq_ok_iff]
      refine exists_congr fun below => and_congr_right fun _ => ?_
      split <;> simp_all
  rw [hok]
  constructor
  · rintro ⟨below, hbelow, h⟩
    obtain ⟨husable, hdirectory, hshort, rfl⟩ := hfollow.1 hbelow
    exact ⟨⟨husable, hdirectory, hshort⟩, h⟩
  · rintro ⟨⟨husable, hdirectory, hshort⟩, h⟩
    exact ⟨_, hfollow.2 ⟨husable, hdirectory, hshort, rfl⟩, h⟩

end

end Lexgen.Files.Tree
