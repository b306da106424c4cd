/-
# Case mappings applied twice

No run of a case table is mapped into another one (`CaseRange.misses`), so a second pass over the
table changes nothing (`mapCode_mapCode`). The first character of a full upper case is its own upper
case, also where one character becomes several (`exists_upperChar_eq`), and each character of a
lower case is its own lower case (`lowerChar_of_mem`). The rule for a final sigma does not come in
again, as no capital sigma is left. So lowering a text twice is lowering it once (`lower_lower`).

Key definitions: `CaseRange.misses`, `CaseRange.single`, `CaseRange.Proper`.
Key theorems: `mapCode_mapCode`, `exists_upperChar_eq`, `not_mem_upperChar`, `lowerChar_of_mem`,
`lower_lower`.
-/
import Lexgen.Text.Casing

namespace Lexgen.Text

/-! ### Runs of code points -/

namespace CaseRange

/-- Whether the images of a run stay out of another run: in front of it or behind it, or in between
its code points. The comparisons are those of numbers in binary. -/
def misses (r s : CaseRange) : Bool :=
  Nat.blt (r.target + (r.last - r.first)) s.first || Nat.blt s.last r.target ||
    ((Nat.beq r.step 2 || Nat.beq r.first r.last) && Nat.beq s.step 2 &&
      Nat.beq ((r.target + s.first) % 2) 1)

/-- The run of one code point. -/
def single (n : Nat) : CaseRange := ⟨n, n, 2, n⟩

/-- All images of a run are characters. -/
def Proper (r : CaseRange) : Prop :=
  r.target + (r.last - r.first) < 0xD800 ∨
    0xDFFF < r.target ∧ r.target + (r.last - r.first) < 0x110000

instance (r : CaseRange) : Decidable r.Proper := inferInstanceAs (Decidable (_ ∨ _))

theorem holds_iff {r : CaseRange} {n : Nat} :
    r.holds n = true ↔ r.first ≤ n ∧ n ≤ r.last ∧ (n - r.first) % r.step = 0 := by
  simp [holds, and_assoc]

theorem holds_single (n : Nat) : (single n).holds n = true := by
  simp [holds_iff, single]

/-- No image is in a run that is missed. -/
theorem not_holds_image {r s : CaseRange} (h : r.misses s = true) {n : Nat}
    (hn : r.holds n = true) : s.holds (r.image n) ≠ true := by
  obtain ⟨hfirst, hlast, hstep⟩ := holds_iff.mp hn
  intro himage
  obtain ⟨hfirst', hlast', hstep'⟩ := holds_iff.mp himage
  unfold image at hfirst' hlast' hstep'
  simp only [misses, Bool.or_eq_true, Bool.and_eq_true, Nat.blt_eq, Nat.beq_eq] at h
  rcases h with (hfront | hbehind) | ⟨⟨hsingle | hsingle, hs⟩, hodd⟩
  · omega
  · omega
  · rw [hsingle] at hstep
    rw [hs] at hstep'
    omega
  · rw [hs] at hstep'
    omega

end CaseRange

/-! ### Tables -/

section Tables

variable {table : List CaseRange}

theorem mapCode_cases (table : List CaseRange) (n : Nat) :
    mapCode table n = n ∨ ∃ r ∈ table, r.holds n = true ∧ mapCode table n = r.image n := by
  unfold mapCode
  split
  · next r hr =>
    have hheld : r.holds n = true := by simpa using List.find?_some hr
    exact .inr ⟨r, List.mem_of_find?_eq_some hr, hheld, rfl⟩
  · exact .inl rfl

/-- **A second pass changes nothing** if all runs miss each other. -/
theorem mapCode_mapCode (h : table.all (fun r => table.all r.misses) = true) (n : Nat) :
    mapCode table (mapCode table n) = mapCode table n := by
  rcases mapCode_cases table n with hself | ⟨r, hr, hn, himage⟩
  · rw [hself, hself]
  · rw [himage]
    rcases mapCode_cases table (r.image n) with hself | ⟨s, hs, hheld, -⟩
    · exact hself
    · have hmisses := List.all_eq_true.mp (List.all_eq_true.mp h r hr) s hs
      exact absurd hheld (CaseRange.not_holds_image hmisses hn)

/-- Nothing else is mapped to a code point that all runs miss. -/
theorem eq_of_mapCode_eq {m : Nat} (h : table.all (·.misses (.single m)) = true) {n : Nat}
    (hn : mapCode table n = m) : n = m := by
  rcases mapCode_cases table n with hself | ⟨r, hr, hheld, himage⟩
  · exact hself.symm.trans hn
  · have hmissed := CaseRange.not_holds_image (List.all_eq_true.mp h r hr) hheld
    rw [← himage, hn] at hmissed
    exact absurd (CaseRange.holds_single m) hmissed

/-- The code point of an image. -/
theorem toNat_ofNat_mapCode (h : ∀ r ∈ table, r.Proper) (c : Char) :
    (Char.ofNat (mapCode table c.toNat)).toNat = mapCode table c.toNat := by
  rcases mapCode_cases table c.toNat with hself | ⟨r, hr, hheld, himage⟩
  · rw [hself, Char.ofNat_toNat]
  · obtain ⟨hfirst, hlast, -⟩ := CaseRange.holds_iff.mp hheld
    have hproper := h r hr
    have hvalid : (r.image c.toNat).isValidChar := by
      unfold CaseRange.Proper at hproper
      unfold Nat.isValidChar CaseRange.image
      omega
    rw [himage, Char.ofNat, dif_pos hvalid]
    rfl

end Tables

/-! ### Upper case -/

/-- What holds of the tables for upper case, checked in one go: the runs miss each other, all images
are characters, no code point is mapped to one whose upper case has several characters, and the
first of these has no other upper case. -/
theorem upperTables :
    upperRanges.all (fun r => upperRanges.all r.misses) = true ∧
    upperRanges.all (fun r => r.Proper) = true ∧
    upperRanges.all (fun r => upperExpansions.all fun e => r.misses (.single e.1)) = true ∧
    upperExpansions.all (fun e => e.2.head?.any fun n => n < 0xD800 ∧
      mapCode upperRanges n = n ∧ upperExpansions.lookup n = none) = true := by
  decide +kernel

theorem misses_upperRanges : upperRanges.all (fun r => upperRanges.all r.misses) = true :=
  upperTables.1

theorem proper_upperRanges : ∀ r ∈ upperRanges, r.Proper := fun r hr =>
  of_decide_eq_true (List.all_eq_true.mp upperTables.2.1 r hr)

theorem misses_upperExpansions :
    upperRanges.all (fun r => upperExpansions.all fun e => r.misses (.single e.1)) = true :=
  upperTables.2.2.1

theorem head_upperExpansions : ∀ e ∈ upperExpansions, ∃ n ∈ e.2.head?,
    n < 0xD800 ∧ mapCode upperRanges n = n ∧ upperExpansions.lookup n = none := by
  intro e he
  have hhead := List.all_eq_true.mp upperTables.2.2.2 e he
  rw [Option.any_eq_true] at hhead
  obtain ⟨n, hn, hchecked⟩ := hhead
  exact ⟨n, hn, of_decide_eq_true hchecked⟩

theorem toNat_ofNat {n : Nat} (h : n < 0xD800) : (Char.ofNat n).toNat = n := by
  rw [Char.ofNat, dif_pos (.inl h)]
  rfl

theorem upperChar_of_mapCode_eq {c : Char} (hlookup : upperExpansions.lookup c.toNat = none)
    (hself : mapCode upperRanges c.toNat = c.toNat) : upperChar c = [c] := by
  rw [upperChar, hlookup, hself, Char.ofNat_toNat]

/-- **The upper case of a character starts with a character that is its own upper case.** -/
theorem exists_upperChar_eq (c : Char) : ∃ d ds, upperChar c = d :: ds ∧ upperChar d = [d] := by
  cases hlookup : upperExpansions.lookup c.toNat with
  | some codes =>
    obtain ⟨before, after, hentries, -⟩ := List.lookup_eq_some_iff.mp hlookup
    have hmem : (c.toNat, codes) ∈ upperExpansions := by simp [hentries]
    obtain ⟨n, hn, hsmall, hself, hnone⟩ := head_upperExpansions _ hmem
    obtain ⟨rest, rfl⟩ := List.head?_eq_some_iff.mp hn
    refine ⟨Char.ofNat n, rest.map Char.ofNat, by rw [upperChar, hlookup]; rfl, ?_⟩
    rw [← toNat_ofNat hsmall] at hself hnone
    exact upperChar_of_mapCode_eq hnone hself
  | none =>
    refine ⟨Char.ofNat (mapCode upperRanges c.toNat), [], by rw [upperChar, hlookup], ?_⟩
    have hcode := toNat_ofNat_mapCode proper_upperRanges c
    refine upperChar_of_mapCode_eq ?_ (by rw [hcode, mapCode_mapCode misses_upperRanges])
    rw [hcode]
    rcases mapCode_cases upperRanges c.toNat with hself | ⟨r, hr, hheld, himage⟩
    · rw [hself, hlookup]
    · rw [himage, List.lookup_eq_none_iff]
      intro e he
      have hmisses := List.all_eq_true.mp (List.all_eq_true.mp misses_upperExpansions r hr) e he
      have hmissed := CaseRange.not_holds_image hmisses hheld
      rw [bne_iff_ne]
      exact fun heq => hmissed (heq ▸ CaseRange.holds_single e.1)

/-- No other character has an upper case with a character that the table leaves out. -/
theorem not_mem_upperChar {d : Char}
    (hruns : upperRanges.all (·.misses (.single d.toNat)) = true)
    (hexpansions : ∀ e ∈ upperExpansions, ∀ n ∈ e.2, Char.ofNat n ≠ d) {c : Char} (hne : c ≠ d) :
    d ∉ upperChar c := by
  unfold upperChar
  split
  · next codes hcodes =>
    intro hd
    obtain ⟨n, hn, hd⟩ := List.mem_map.mp hd
    obtain ⟨before, after, hentries, -⟩ := List.lookup_eq_some_iff.mp hcodes
    exact hexpansions (c.toNat, codes) (by simp [hentries]) n hn hd
  · intro hd
    rw [List.mem_singleton] at hd
    have hcode := toNat_ofNat_mapCode proper_upperRanges c
    rw [← hd] at hcode
    exact hne (Char.toNat_inj.mp (eq_of_mapCode_eq hruns hcode.symm))

/-! ### Lower case -/

/-- What holds of the table for lower case, checked in one go: the runs miss each other and the
dotted capital I, and all images are characters; what is lowered apart from the table stays. -/
theorem lowerTables :
    lowerRanges.all (fun r => lowerRanges.all r.misses) = true ∧
    lowerRanges.all (fun r => r.Proper) = true ∧
    lowerRanges.all (·.misses (.single 'İ'.toNat)) = true ∧
    ['i', '\u0307', 'ς', 'σ'].all (fun c => lowerChar c == [c]) = true ∧
    lowerChar 'Σ' ≠ ['Σ'] := by
  decide +kernel

theorem misses_lowerRanges : lowerRanges.all (fun r => lowerRanges.all r.misses) = true :=
  lowerTables.1

theorem proper_lowerRanges : ∀ r ∈ lowerRanges, r.Proper := fun r hr =>
  of_decide_eq_true (List.all_eq_true.mp lowerTables.2.1 r hr)

/-- No character is lowered to the dotted capital I. -/
theorem misses_dottedI : lowerRanges.all (·.misses (.single 'İ'.toNat)) = true :=
  lowerTables.2.2.1

theorem lowerChar_of_mem_apart {c : Char} (h : c ∈ ['i', '\u0307', 'ς', 'σ']) :
    lowerChar c = [c] :=
  eq_of_beq (List.all_eq_true.mp lowerTables.2.2.2.1 c h)

/-- **Each character of a lower case is its own lower case.** -/
theorem lowerChar_of_mem {c d : Char} (h : d ∈ lowerChar c) : lowerChar d = [d] := by
  by_cases hc : c = 'İ'
  · subst hc
    rw [lowerChar, if_pos rfl] at h
    refine lowerChar_of_mem_apart ?_
    simp only [List.mem_cons, List.not_mem_nil, or_false] at h ⊢
    exact h.elim .inl (fun h => .inr (.inl h))
  · rw [lowerChar, if_neg hc, List.mem_singleton] at h
    have hcode := toNat_ofNat_mapCode proper_lowerRanges c
    rw [← h] at hcode
    have hd : d ≠ 'İ' := by
      rintro rfl
      exact hc (Char.toNat_inj.mp (eq_of_mapCode_eq misses_dottedI hcode.symm))
    rw [lowerChar, if_neg hd, hcode, mapCode_mapCode misses_lowerRanges, ← hcode,
      Char.ofNat_toNat]

/-- A capital sigma is not its own lower case. -/
theorem ne_sigma_of_lowerChar {c : Char} (h : lowerChar c = [c]) : c ≠ 'Σ' := by
  rintro rfl
  exact lowerTables.2.2.2.2 h

theorem lowerChar_of_mem_lowerFrom {d : Char} : ∀ {before cs : List Char},
    d ∈ lowerFrom before cs → lowerChar d = [d]
  | before, c :: cs, h => by
    rw [lowerFrom, List.mem_append] at h
    rcases h with h | h
    · split at h
      · rw [List.mem_singleton.mp h]
        refine lowerChar_of_mem_apart ?_
        split <;> simp
      · exact lowerChar_of_mem h
    · exact lowerChar_of_mem_lowerFrom h

/-- A text of characters that are their own lower case stays. -/
theorem lowerFrom_eq_self : ∀ {before cs : List Char}, (∀ c ∈ cs, lowerChar c = [c]) →
    lowerFrom before cs = cs
  | _, [], _ => rfl
  | before, c :: cs, h => by
    obtain ⟨hc, hcs⟩ := List.forall_mem_cons.mp h
    rw [lowerFrom, if_neg (ne_sigma_of_lowerChar hc), hc, lowerFrom_eq_self hcs]
    rfl

/-- **Lowering a text twice is lowering it once.** -/
theorem lower_lower (s : String) : lower (lower s) = lower s := by
  rw [lower, lower, String.toList_ofList]
  exact congrArg String.ofList (lowerFrom_eq_self fun _ => lowerChar_of_mem_lowerFrom)

end Lexgen.Text
