/-
# Where a path leads

A path leads somewhere by its text alone, whatever the files are: a dot stays, two dots take back
the name before them and are kept if there is none, and a name goes one further down. A
`Destination` is what is left of the steps. Going up several times is one `climb`
(`walk_replicate_up`), going down through names appends them (`walk_names`), and the difference
between the names and the steps up is all that the number of steps tells about where a walk ends
(`level_walk`). If no step goes up behind a name, nothing is taken back (`walk_of_forward`).

Key definitions: `Destination`, `Destination.walk`, `Destination.follow`, `locate`, `Forward`.
Key theorems: `walk_replicate_up`, `walk_names`, `level_walk`, `walk_of_forward`,
`steps_intercalate`, `isName_of_mem_steps`, `stem_cases`.
-/
import Lexgen.Proofs.Files.Path
import Mathlib.Data.List.Infix
import Mathlib.Data.List.TakeWhile

namespace Lexgen.Files

/-- Where a path leads: some steps up, and then down through some names. -/
structure Destination where
  /-- Whether it is seen from the root. -/
  rooted : Bool := false
  ups : Nat := 0
  names : List String := []
deriving DecidableEq, Repr

namespace Destination

/-- One step further. A step up takes the last name back, and is kept if there is none. -/
def step (d : Destination) : Step → Destination
  | .root => { rooted := true }
  | .here => d
  | .up =>
    if d.names = [] then { d with ups := d.ups + 1 } else { d with names := d.names.dropLast }
  | .name n => { d with names := d.names ++ [n] }

/-- Several steps further. -/
def walk (d : Destination) (ss : List Step) : Destination := ss.foldl step d

/-- Where a path leads from a destination. -/
def follow (d : Destination) (path : String) : Destination := d.walk (steps path)

/-- So many steps up. -/
def climb (d : Destination) (n : Nat) : Destination :=
  { d with ups := d.ups + (n - d.names.length), names := d.names.take (d.names.length - n) }

/-- Down through names. -/
def below (d : Destination) (names : List String) : Destination :=
  { d with names := d.names ++ names }

@[simp] theorem walk_nil (d : Destination) : d.walk [] = d := rfl

@[simp] theorem walk_cons (d : Destination) (s : Step) (ss : List Step) :
    d.walk (s :: ss) = (d.step s).walk ss := rfl

@[simp] theorem walk_append (d : Destination) (ss ts : List Step) :
    d.walk (ss ++ ts) = (d.walk ss).walk ts :=
  List.foldl_append ..

/-! ### Up and down -/

@[simp] theorem climb_zero (d : Destination) : d.climb 0 = d := by simp [climb]

@[simp] theorem climb_succ (d : Destination) (n : Nat) :
    d.climb (n + 1) = (d.step .up).climb n := by
  obtain ⟨rooted, ups, names⟩ := d
  by_cases h : names = []
  · subst h
    simp only [climb, step, if_true, List.length_nil, Nat.sub_zero, List.take_nil]
    congr 1
    omega
  · have hpos : 0 < names.length := List.length_pos_iff.2 h
    have hups : ups + (n + 1 - names.length) = ups + (n - (names.length - 1)) := by omega
    have hnames : min (names.length - 1 - n) (names.length - 1) = names.length - (n + 1) := by
      omega
    simp only [climb, step, h, if_false, List.length_dropLast, hups]
    rw [List.dropLast_eq_take, List.take_take, hnames]

@[simp] theorem walk_replicate_up : ∀ (n : Nat) (d : Destination),
    d.walk (List.replicate n .up) = d.climb n
  | 0, d => d.climb_zero.symm
  | n + 1, d => by
    rw [List.replicate_succ, climb_succ, walk_cons, walk_replicate_up n]

@[simp] theorem walk_names : ∀ (ns : List String) (d : Destination),
    d.walk (ns.map .name) = d.below ns
  | [], d => by simp [below]
  | n :: ns, d => by
    rw [List.map_cons, walk_cons, walk_names ns]
    simp [below, step]

/-- Without steps up all names stay. -/
theorem walk_of_up_not_mem {ss : List Step} (hroot : .root ∉ ss) (hup : .up ∉ ss)
    (d : Destination) : d.walk ss = d.below (ss.filterMap Step.name?) := by
  induction ss generalizing d with
  | nil => simp [below]
  | cons s ss ih =>
    rw [List.mem_cons, not_or] at hroot hup
    rw [walk_cons, ih hroot.2 hup.2]
    cases s with
    | root => exact absurd rfl hroot.1
    | here => rfl
    | up => exact absurd rfl hup.1
    | name n => simp [below, step, Step.name?]

/-- How far below a start a walk ends, counted in names and in steps up. -/
theorem level_walk {ss : List Step} (h : .root ∉ ss) (d : Destination) :
    (d.walk ss).names.length + d.ups + ss.count .up =
      d.names.length + (d.walk ss).ups + (ss.filterMap Step.name?).length := by
  induction ss generalizing d with
  | nil => simp only [walk_nil, List.count_nil, List.filterMap_nil, List.length_nil]
  | cons s ss ih =>
    rw [List.mem_cons, not_or] at h
    have hrest := ih h.2 (d.step s)
    rw [walk_cons]
    cases s with
    | root => exact absurd rfl h.1
    | here => simpa [List.filterMap_cons, Step.name?, step] using hrest
    | up =>
      by_cases hnames : d.names = []
      · simp only [step, hnames, if_true, Step.name?, List.count_cons_self, List.length_nil,
          List.filterMap_cons] at hrest ⊢
        omega
      · have hpos : 0 < d.names.length := List.length_pos_iff.2 hnames
        simp only [step, hnames, if_false, Step.name?, List.count_cons_self, List.length_dropLast,
          List.filterMap_cons] at hrest ⊢
        omega
    | name n =>
      have hcount : (Step.name n :: ss).count .up = ss.count .up := by simp
      simp only [step, Step.name?, List.length_append, List.filterMap_cons, List.length_cons,
        List.length_nil] at hrest ⊢
      omega

/-- The same for climbing and going down. -/
theorem level_below_climb (d : Destination) (n : Nat) (ns : List String) :
    ((d.climb n).below ns).names.length + d.ups + n =
      d.names.length + ((d.climb n).below ns).ups + ns.length := by
  simp only [below, climb, List.length_append, List.length_take]
  omega

end Destination

/-- Where a path leads from where it starts. -/
def locate (path : String) : Destination := Destination.follow {} path

/-! ### Steps up in front -/

/-- No step goes up behind a name. -/
def Forward (ss : List Step) : Prop := ss.Pairwise fun s t => t = .up → s.name? = none

instance (ss : List Step) : Decidable (Forward ss) :=
  inferInstanceAs (Decidable (ss.Pairwise fun s t => t = .up → s.name? = none))

/-- Walking forward takes nothing back. -/
theorem walk_of_forward {ss : List Step} (hroot : .root ∉ ss) (h : Forward ss) (k : Nat) :
    Destination.walk { ups := k } ss =
      { ups := k + ss.count .up, names := ss.filterMap Step.name? } := by
  induction ss generalizing k with
  | nil => rfl
  | cons s ss ih =>
    obtain ⟨hbehind, hrest⟩ := List.pairwise_cons.1 h
    rw [List.mem_cons, not_or] at hroot
    rw [Destination.walk_cons]
    cases s with
    | root => exact absurd rfl hroot.1
    | here => simpa [Destination.step, List.filterMap_cons, Step.name?] using ih hroot.2 hrest k
    | up =>
      have hwalk := ih hroot.2 hrest (k + 1)
      simpa [Destination.step, List.filterMap_cons, Step.name?, Nat.add_assoc, Nat.add_comm 1]
        using hwalk
    | name n =>
      -- Behind a name nothing goes up any more.
      have hup : .up ∉ ss := fun hmem => Option.some_ne_none n (hbehind .up hmem rfl)
      rw [Destination.walk_of_up_not_mem hroot.2 hup]
      simp [Destination.step, Destination.below, Step.name?, List.count_eq_zero_of_not_mem hup]

/-! ### The steps of a text -/

/-- The steps of pieces with slashes between them. -/
theorem steps_intercalate {first : String} {rest : List String} (hne : first ≠ "")
    (hslash : ∀ p ∈ first :: rest, '/' ∉ p.toList) :
    steps ("/".intercalate (first :: rest)) =
      (firstStep first).toList ++ rest.filterMap stepOf := by
  have hrooted : isRooted ("/".intercalate (first :: rest)) = false := by
    obtain ⟨c, cs, hcs⟩ := List.exists_cons_of_ne_nil (mt String.toList_eq_nil_iff.1 hne)
    have hc : c ≠ '/' := by
      rintro rfl
      exact hslash first (List.mem_cons_self ..) (hcs ▸ List.mem_cons_self ..)
    cases rest with
    | nil => simpa [isRooted, hcs] using hc
    | cons next rest => simpa [isRooted, String.intercalate_cons_cons, hcs] using hc
  rw [steps, pieces_intercalate hslash (List.cons_ne_nil _ _)]
  simp [hrooted]

theorem filterMap_stepOf {ns : List String} (h : ∀ n ∈ ns, IsName n) :
    ns.filterMap stepOf = ns.map .name := by
  rw [← List.filterMap_eq_map]
  exact List.filterMap_congr fun n hn => (h n hn).stepOf_eq

theorem stepOf_ne_root (piece : String) : stepOf piece ≠ some .root := by
  rw [stepOf]
  split
  · exact fun he => by cases he
  · split <;> exact fun he => by cases he

theorem root_not_mem_steps {path : String} (h : isRooted path = false) : .root ∉ steps path := by
  rw [steps]
  split
  · exact List.not_mem_nil
  · next first rest _ =>
    simp only [h, Bool.false_eq_true, if_false, List.mem_append, Option.mem_toList,
      List.mem_filterMap, not_or, not_exists, not_and]
    refine ⟨fun he => ?_, fun p _ => stepOf_ne_root p⟩
    rw [firstStep] at he
    split at he
    · cases he
    · exact stepOf_ne_root first he

/-! ### The names of a text -/

theorem isName_of_stepOf {piece n : String} (hslash : '/' ∉ piece.toList)
    (h : stepOf piece = some (.name n)) : IsName n := by
  rw [stepOf] at h
  split at h
  · cases h
  · next hstays =>
    split at h
    · cases h
    · next hup =>
      cases h
      exact ⟨fun he => hstays (.inl he), fun he => hstays (.inr he), hup, hslash⟩

theorem isName_of_mem_steps {path n : String} (h : .name n ∈ steps path) : IsName n := by
  have hslash := @slash_not_mem_of_mem_pieces path
  rw [steps] at h
  split at h
  · cases h
  · next first rest hpieces =>
    rw [hpieces] at hslash
    rcases List.mem_append.1 h with hfirst | hrest
    · split at hfirst
      · cases List.mem_singleton.1 hfirst
      · rw [Option.mem_toList, firstStep] at hfirst
        split at hfirst
        · cases hfirst
        · exact isName_of_stepOf (hslash (List.mem_cons_self ..)) hfirst
    · obtain ⟨p, hp, hn⟩ := List.mem_filterMap.1 hrest
      exact isName_of_stepOf (hslash (List.mem_cons_of_mem _ hp)) hn

@[simp] theorem mem_filterMap_name? {n : String} {ss : List Step} :
    n ∈ ss.filterMap Step.name? ↔ .name n ∈ ss := by
  rw [List.mem_filterMap]
  constructor
  · rintro ⟨s, hs, hn⟩
    cases s with
    | name m => rwa [← Option.some.inj hn]
    | _ => cases hn
  · exact fun h => ⟨.name n, h, rfl⟩

/-! ### File extensions -/

/-- A name is its stem, or its stem and then the last dot with what is behind it. -/
theorem stem_cases (n : String) : stem n = n ∧ '.' ∉ n.toList.tail ∨
    ∃ c before rest, stem n = String.ofList (c :: before) ∧
      n.toList = c :: before ++ '.' :: rest := by
  by_cases hdot : '.' ∈ n.toList.reverse
  · -- The last dot is the first one from behind.
    obtain ⟨behind, before, hself, hbehind⟩ := List.eq_append_cons_of_mem hdot
    have hdrop : n.toList.reverse.dropWhile (· != '.') = '.' :: before := by
      rw [hself, List.dropWhile_append_of_pos]
      · simp
      · exact fun x hx => by simpa using fun he : x = '.' => hbehind (he ▸ hx)
    have hchars : n.toList = before.reverse ++ '.' :: behind.reverse := by
      rw [← List.reverse_reverse n.toList, hself]
      simp
    rw [stem, hdrop, List.drop_one, List.tail_cons]
    cases before with
    | nil => exact .inl ⟨rfl, by simpa [hchars] using hbehind⟩
    | cons last before =>
      obtain ⟨c, cs, hcs⟩ := List.exists_cons_of_ne_nil
        (mt List.reverse_eq_nil_iff.1 (List.cons_ne_nil last before))
      exact .inr ⟨c, cs, behind.reverse, congrArg String.ofList hcs, hcs ▸ hchars⟩
  · have hdrop : n.toList.reverse.dropWhile (· != '.') = [] := by
      rw [List.dropWhile_eq_nil_iff]
      exact fun x hx => by simpa using fun he : x = '.' => hdot (he ▸ hx)
    rw [stem, hdrop]
    exact .inl ⟨rfl, fun hmem => hdot (List.mem_reverse.2 (List.mem_of_mem_tail hmem))⟩

/-- A name has no file extension if there is no dot behind its first character. -/
theorem stem_eq_self_iff (n : String) : stem n = n ↔ '.' ∉ n.toList.tail := by
  rcases stem_cases n with ⟨hself, hdot⟩ | ⟨c, before, rest, hstem, hchars⟩
  · exact iff_of_true hself hdot
  · refine iff_of_false (fun hself => ?_) (fun hdot => hdot ?_)
    · have hlength := congrArg List.length hchars
      rw [← hself, hstem, String.toList_ofList, List.length_append] at hlength
      simp at hlength
    · rw [hchars]
      exact List.mem_append_right before (List.mem_cons_self ..)

theorem names_dropExtension_eq_iff {ns : List String} (h : ∀ n ∈ ns, IsName n) :
    (dropExtension (ns.map .name)).filterMap Step.name? = ns ↔
      ∀ n, ns.getLast? = some n → stem n = n := by
  have hnames (ns : List String) : (ns.map Step.name).filterMap Step.name? = ns := by
    rw [List.filterMap_map]
    exact List.filterMap_some
  rcases List.eq_nil_or_concat' ns with rfl | ⟨before, n, rfl⟩
  · simp [dropExtension]
  have hdrop : dropExtension ((before ++ [n]).map .name) =
      before.map .name ++ (stepOf (stem n)).toList := by
    simp [dropExtension]
  rw [hdrop, List.filterMap_append, hnames, List.append_cancel_left_eq]
  have hname := h n (List.mem_append_right before (List.mem_singleton_self n))
  constructor
  · intro hlast m hm
    obtain rfl : n = m := Option.some.inj (List.getLast?_concat.symm.trans hm)
    rw [stepOf] at hlast
    split at hlast
    · simp at hlast
    · split at hlast
      · simp [List.filterMap_cons, Step.name?] at hlast
      · simpa [Step.name?] using hlast
  · intro hstem
    have hself := hstem n List.getLast?_concat
    rw [hself, hname.stepOf_eq]
    rfl

/-- The names that are left without the file extension are names. -/
theorem isName_of_mem_dropExtension {path n : String}
    (h : .name n ∈ dropExtension (steps path)) : IsName n := by
  rw [dropExtension] at h
  split at h
  · next last hlast =>
    rcases List.mem_append.1 h with hbefore | hstem
    · exact isName_of_mem_steps (List.mem_of_mem_dropLast hbefore)
    · have hslash := (isName_of_mem_steps (List.mem_of_getLast? hlast)).no_slash
      rw [Option.mem_toList] at hstem
      refine isName_of_stepOf (fun hmem => hslash ?_) hstem
      rcases stem_cases last with ⟨hself, -⟩ | ⟨c, before, rest, hstem, hself⟩
      · rwa [hself] at hmem
      · rw [hstem, String.toList_ofList] at hmem
        rw [hself]
        exact List.mem_append_left _ hmem
  · exact isName_of_mem_steps h

theorem root_not_mem_dropExtension {ss : List Step} (h : .root ∉ ss) :
    .root ∉ dropExtension ss := by
  rw [dropExtension]
  split
  · next n _ =>
    rw [List.mem_append, not_or, Option.mem_toList]
    exact ⟨fun hmem => h (List.mem_of_mem_dropLast hmem), stepOf_ne_root _⟩
  · exact h

end Lexgen.Files
