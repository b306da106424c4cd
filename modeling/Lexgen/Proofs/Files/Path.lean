/-
# Joined paths

A path that is joined to a base has the pieces of the base and then its own (`pieces_join`). So a
name that is joined to a directory is the last step of the path, and what stands before it is the
directory again.

Key definitions: `basePieces`, `IsName`, `EndsInName`, `Usable`.
Key theorems: `pieces_join`, `directoryOf_join`, `fileName?_join`.
-/
import Lexgen.Files.Access
import Lexgen.Proofs.Text.Pieces
import Mathlib.Data.List.Basic

namespace Lexgen.Files

/-! ### The pieces of a path -/

@[simp] theorem pieces_empty : pieces "" = [""] := rfl

@[simp] theorem pieces_append_slash (base path : String) :
    pieces (base ++ "/" ++ path) = pieces base ++ pieces path := by
  have hchars : (base ++ "/" ++ path).toList = base.toList ++ '/' :: path.toList := by simp
  rw [pieces, hchars, List.splitOn_append_cons_self, List.map_append]
  rfl

/-- A path is its pieces with slashes between them. -/
@[simp] theorem intercalate_pieces (path : String) : "/".intercalate (pieces path) = path := by
  apply String.toList_injective
  rw [String.toList_intercalate, pieces, List.map_map]
  have hself : String.toList ∘ String.ofList = id := funext fun _ => String.toList_ofList
  rw [hself, List.map_id]
  exact List.intercalate_splitOn '/'

@[simp] theorem pieces_ne_nil (path : String) : pieces path ≠ [] := by
  rw [pieces, ne_eq, List.map_eq_nil_iff]
  exact List.splitOn_ne_nil _ _

theorem pieces_intercalate {ps : List String} (hslash : ∀ p ∈ ps, '/' ∉ p.toList) (hne : ps ≠ []) :
    pieces ("/".intercalate ps) = ps := by
  have hsplit : List.splitOn '/' (['/'].intercalate (ps.map String.toList)) =
      ps.map String.toList := by
    refine List.splitOn_intercalate '/' (fun cs hcs => ?_) (by simpa using hne)
    obtain ⟨p, hp, rfl⟩ := List.mem_map.1 hcs
    exact hslash p hp
  rw [pieces, String.toList_intercalate]
  refine (congrArg (List.map String.ofList) hsplit).trans ?_
  simp

/-- No piece has a slash. -/
theorem slash_not_mem_of_mem_pieces {path piece : String} (h : piece ∈ pieces path) :
    '/' ∉ piece.toList := by
  obtain ⟨cs, hcs, rfl⟩ := List.mem_map.1 h
  rw [List.splitOn_eq_splitOnP] at hcs
  rw [String.toList_ofList]
  intro hmem
  have hself := (Text.mem_of_mem_splitOnP hcs hmem).2
  simp at hself

/-- The pieces that a base puts in front of a path that is joined to it. -/
def basePieces (base : String) : List String :=
  if base.isEmpty ∨ base.toList.getLast? = some '/' then (pieces base).dropLast else pieces base

/-- **A joined path** has the pieces of the base and then its own. -/
theorem pieces_join {base path : String} (h : isRooted path = false) :
    pieces (join base path) = basePieces base ++ pieces path := by
  have hrooted : ¬ isRooted path = true := by simp [h]
  rw [join, if_neg hrooted, basePieces]
  by_cases hempty : base = ""
  · subst hempty
    simp [pieces_empty]
  by_cases hslash : base.toList.getLast? = some '/'
  · obtain ⟨front, hfront⟩ := List.getLast?_eq_some_iff.1 hslash
    obtain ⟨front, rfl⟩ : ∃ s : String, base = s ++ "/" ++ "" :=
      ⟨String.ofList front, String.toList_injective (by simp [hfront])⟩
    rw [if_pos (.inr hslash), if_pos (.inr hslash), pieces_append_slash, pieces_empty,
      List.dropLast_concat, String.append_empty, pieces_append_slash]
  · have hneither : ¬ (base.isEmpty ∨ base.toList.getLast? = some '/') := by
      simp [hempty, hslash]
    rw [if_neg hneither, if_neg hneither, pieces_append_slash]

/-- Next to the pieces that it puts in front, a base has an empty one if it ends in a slash. -/
theorem exists_basePieces {base : String} (h : base ≠ "") : ∃ first rest idle,
    basePieces base = first :: rest ∧ pieces base = first :: rest ++ idle ∧
      (idle = [] ∨ idle = [""]) := by
  have hempty : ¬ base.isEmpty = true := by simpa using h
  by_cases hslash : base.toList.getLast? = some '/'
  · obtain ⟨front, hfront⟩ := List.getLast?_eq_some_iff.1 hslash
    have hself : base = String.ofList front ++ "/" ++ "" :=
      String.toList_injective (by simp [hfront])
    have hpieces : pieces base = pieces (String.ofList front) ++ [""] := by
      rw [hself, pieces_append_slash, pieces_empty]
    obtain ⟨first, rest, hfirst⟩ :=
      List.exists_cons_of_ne_nil (pieces_ne_nil (String.ofList front))
    refine ⟨first, rest, [""], ?_, hfirst ▸ hpieces, .inr rfl⟩
    rw [basePieces, if_pos (.inr hslash), hpieces, List.dropLast_concat, hfirst]
  · obtain ⟨first, rest, hfirst⟩ := List.exists_cons_of_ne_nil (pieces_ne_nil base)
    refine ⟨first, rest, [], ?_, by rw [hfirst, List.append_nil], .inl rfl⟩
    rw [basePieces, if_neg (not_or.2 ⟨hempty, hslash⟩), hfirst]

@[simp] theorem getLast?_pieces_join (base path : String) :
    (pieces (join base path)).getLast? = (pieces path).getLast? := by
  cases hrooted : isRooted path with
  | true => rw [join, if_pos hrooted]
  | false => rw [pieces_join hrooted, List.getLast?_append_of_ne_nil _ (pieces_ne_nil path)]

theorem isRooted_join {base path : String} (h : isRooted path = false) :
    isRooted (join base path) = isRooted base := by
  have hrooted : ¬ isRooted path = true := by simp [h]
  rw [join, if_neg hrooted]
  by_cases hempty : base = ""
  · subst hempty
    simpa [isRooted] using h
  · obtain ⟨c, cs, hcs⟩ := List.exists_cons_of_ne_nil (mt String.toList_eq_nil_iff.1 hempty)
    split <;> simp [isRooted, hcs]

/-! ### Names -/

/-- What an entry of a directory may be called. -/
structure IsName (name : String) : Prop where
  ne_empty : name ≠ ""
  ne_here : name ≠ "."
  ne_up : name ≠ ".."
  no_slash : '/' ∉ name.toList

instance (name : String) : Decidable (IsName name) :=
  decidable_of_iff (name ≠ "" ∧ name ≠ "." ∧ name ≠ ".." ∧ '/' ∉ name.toList)
    ⟨fun ⟨h₁, h₂, h₃, h₄⟩ => ⟨h₁, h₂, h₃, h₄⟩, fun ⟨h₁, h₂, h₃, h₄⟩ => ⟨h₁, h₂, h₃, h₄⟩⟩

@[simp] theorem IsName.pieces_eq {name : String} (h : IsName name) : pieces name = [name] := by
  rw [pieces, List.splitOn_eq_splitOnP, List.splitOnP_eq_singleton]
  · simp
  · intro c hc
    simpa using fun he : c = '/' => h.no_slash (he ▸ hc)

@[simp] theorem IsName.isRooted_eq {name : String} (h : IsName name) : isRooted name = false := by
  have hhead : name.toList.head? ≠ some '/' := fun he => h.no_slash (List.mem_of_head? he)
  simpa [isRooted] using hhead

@[simp] theorem IsName.stepOf_eq {name : String} (h : IsName name) :
    stepOf name = some (.name name) := by
  simp [stepOf, h.ne_empty, h.ne_here, h.ne_up]

@[simp] theorem IsName.dropIdleEnd_eq {name : String} (h : IsName name) (ps : List String) :
    dropIdleEnd (ps ++ [name]) = ps ++ [name] := by
  simp [dropIdleEnd, h.ne_empty, h.ne_here]

/-- Whether the last piece of a path is a name. -/
def EndsInName (path : String) : Prop := ∃ before name, pieces path = before ++ [name] ∧ IsName name

theorem EndsInName.ne_empty {path : String} (h : EndsInName path) : path ≠ "" := by
  rintro rfl
  obtain ⟨before, name, hpieces, hname⟩ := h
  rw [pieces_empty] at hpieces
  have hlast := congrArg List.getLast? hpieces
  rw [List.getLast?_concat] at hlast
  exact hname.ne_empty (Option.some.inj hlast).symm

theorem EndsInName.getLast?_ne {path : String} (h : EndsInName path) :
    path.toList.getLast? ≠ some '/' := by
  intro hslash
  obtain ⟨front, hfront⟩ := List.getLast?_eq_some_iff.1 hslash
  obtain ⟨before, name, hpieces, hname⟩ := h
  have hself : path = String.ofList front ++ "/" ++ "" :=
    String.toList_injective (by simp [hfront])
  rw [hself, pieces_append_slash, pieces_empty] at hpieces
  have hlast := congrArg List.getLast? hpieces
  rw [List.getLast?_concat, List.getLast?_concat] at hlast
  exact hname.ne_empty (Option.some.inj hlast).symm

@[simp] theorem EndsInName.basePieces_eq {path : String} (h : EndsInName path) :
    basePieces path = pieces path := by
  rw [basePieces, if_neg]
  simpa using ⟨h.ne_empty, h.getLast?_ne⟩

/-- A path that ends in a name does so behind every base. -/
theorem EndsInName.join {path : String} (h : EndsInName path) (hrooted : isRooted path = false)
    (base : String) : EndsInName (join base path) := by
  obtain ⟨before, name, hpieces, hname⟩ := h
  exact ⟨basePieces base ++ before, name, by rw [pieces_join hrooted, hpieces, List.append_assoc],
    hname⟩

/-! ### A name in a directory -/

section
variable {directory name : String}

theorem pieces_join_name (hname : IsName name) :
    pieces (join directory name) = basePieces directory ++ [name] := by
  rw [pieces_join hname.isRooted_eq, hname.pieces_eq]

/-- **A name that is joined to a directory** is one more step. -/
theorem steps_join_name (hname : IsName name) :
    steps (join directory name) = steps directory ++ [.name name] := by
  have hpieces := @pieces_join_name directory name hname
  have hrooted : isRooted (join directory name) = isRooted directory :=
    isRooted_join hname.isRooted_eq
  by_cases hempty : directory = ""
  · subst hempty
    have hfirst : firstStep name = some (.name name) := by
      rw [firstStep, if_neg hname.ne_here, hname.stepOf_eq]
    have hnone : basePieces "" = [] := rfl
    have hbase : steps "" = [] := rfl
    have hrelative : isRooted "" = false := rfl
    rw [hnone, List.nil_append] at hpieces
    rw [steps, hpieces, hrooted, hbase, hrelative]
    simp [hfirst]
  · obtain ⟨first, rest, idle, hbase, hall, hidle⟩ := exists_basePieces hempty
    have hstays : idle.filterMap stepOf = [] := by
      rcases hidle with rfl | rfl <;> rfl
    rw [hbase] at hpieces
    rw [steps, hpieces, hrooted, steps, hall]
    simp [hstays, hname.stepOf_eq]

/-- The directory of a name that is joined to one. -/
theorem directoryOf_join (hdirectory : EndsInName directory) (hname : IsName name) :
    directoryOf (join directory name) = directory := by
  have hne := hdirectory.ne_empty
  have hparent : parent? (join directory name) = some directory := by
    obtain ⟨before, last, hpieces, hlast⟩ := hdirectory
    have hjoin := @pieces_join_name directory name hname
    rw [EndsInName.basePieces_eq ⟨before, last, hpieces, hlast⟩, hpieces] at hjoin
    have hself := intercalate_pieces directory
    rw [hpieces] at hself
    cases before with
    | nil =>
      have hlastself : last = directory := by simpa using hself
      have hbody : dropIdleEnd [name] = [name] := hname.dropIdleEnd_eq []
      have hnone : dropIdleEnd [] = [] := rfl
      rw [parent?, hjoin]
      simp [hbody, hnone, hlastself, hne]
    | cons first middle =>
      have hbody : dropIdleEnd (middle ++ [last] ++ [name]) = middle ++ [last] ++ [name] :=
        hname.dropIdleEnd_eq _
      obtain ⟨next, rest, hrest⟩ := List.exists_cons_of_ne_nil
        (List.append_ne_nil_of_right_ne_nil middle (List.cons_ne_nil last []))
      have hbefore : dropIdleEnd (next :: rest ++ [name]).dropLast = next :: rest := by
        rw [List.dropLast_concat, ← hrest, hlast.dropIdleEnd_eq]
      rw [List.cons_append, hrest] at hjoin hself
      rw [hrest] at hbody
      rw [parent?, hjoin, ← hself]
      simp only [List.cons_append] at hbody hbefore ⊢
      simp only [hbody, hbefore]
  rw [directoryOf, hparent]
  simp [hne]

theorem fileName?_join (hdirectory : EndsInName directory) (hname : IsName name) :
    fileName? (join directory name) = some name := by
  obtain ⟨before, last, hpieces, hlast⟩ := hdirectory
  have hjoin := @pieces_join_name directory name hname
  rw [EndsInName.basePieces_eq ⟨before, last, hpieces, hlast⟩, hpieces] at hjoin
  obtain ⟨first, rest, hfirst⟩ := List.exists_cons_of_ne_nil
    (List.append_ne_nil_of_right_ne_nil before (List.cons_ne_nil last []))
  rw [hfirst, List.cons_append] at hjoin
  simp [fileName?, steps, hjoin, hname.stepOf_eq, Step.name?]

end

/-! ### What the system takes -/

/-- Whether a path can be given to the system. -/
structure Usable (path : String) : Prop where
  no_nul : holdsNul path = false
  ne_empty : path ≠ ""
  short : path.utf8ByteSize < longPath

instance (path : String) : Decidable (Usable path) :=
  decidable_of_iff (holdsNul path = false ∧ path ≠ "" ∧ path.utf8ByteSize < longPath)
    ⟨fun ⟨h₁, h₂, h₃⟩ => ⟨h₁, h₂, h₃⟩, fun ⟨h₁, h₂, h₃⟩ => ⟨h₁, h₂, h₃⟩⟩

/-- The directory of a path that can be given to the system is one too. -/
theorem Usable.of_join {directory name : String} (hdirectory : directory ≠ "")
    (hname : IsName name) (h : Usable (join directory name)) : Usable directory := by
  obtain ⟨rest, hrest⟩ : ∃ rest, join directory name = directory ++ rest := by
    rw [join, if_neg (by simp [hname.isRooted_eq])]
    split
    · exact ⟨name, rfl⟩
    · exact ⟨"/" ++ name, String.append_assoc ..⟩
  obtain ⟨hnul, -, hshort⟩ := h
  rw [hrest] at hnul hshort
  simp only [String.utf8ByteSize_append] at hshort
  refine ⟨?_, hdirectory, by omega⟩
  simp only [holdsNul, String.toList_append, List.contains_eq_mem, List.mem_append,
    decide_eq_false_iff_not, not_or] at hnul ⊢
  exact hnul.1

end Lexgen.Files
