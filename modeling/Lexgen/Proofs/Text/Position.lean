/-
# From a number of bytes to a place and back

The place after some bytes of a text is known from these bytes alone: its line counts their line
feeds, its column the bytes behind the last of them (`placeAfter_eq`). A line feed is a byte of its
own and is no byte of another character, so it does not matter that the place is computed character
by character. On the way back, the lines in front of the place hold all bytes up to the last line
feed, so that the column is what is missing (`startOf_advance`), and `offsetOf` ends in front of the
last byte, or behind it if that is a line feed (`leadsBack_placeAfter`).

Key definitions: `lineFeed`, `lineAfter`, `columnAfter`, `LeadsBack`.
Key theorems: `advance_eq_foldl`, `placeAfter_eq`, `startOf_advance`, `leadsBack_placeAfter`.
-/
import Mathlib.Data.List.Induction
import Lexgen.Proofs.Text.ByteOrder
import Lexgen.Text.Position

namespace Lexgen.Text

/-! ### Bytes of characters -/

/-- The byte of a line feed. -/
def lineFeed : UInt8 := 10

theorem ofNat_ne_lineFeed {n : Nat} (h : n % 256 ≠ 10) : UInt8.ofNat n ≠ lineFeed := by
  intro heq
  have hvalue := congrArg UInt8.toNat heq
  rw [UInt8.toNat_ofNat'] at hvalue
  exact h hvalue

/-- The digits behind the first byte of a character are no line feeds. -/
theorem ne_lineFeed_of_mem_sixBits {n : Nat} {b : UInt8} : ∀ {k : Nat}, b ∈ sixBits k n →
    b ≠ lineFeed
  | k + 1, hb => by
    rcases List.mem_cons.mp hb with rfl | hb
    · exact ofNat_ne_lineFeed (by omega)
    · exact ne_lineFeed_of_mem_sixBits hb

/-- Only the line feed has a byte of a line feed. -/
theorem ne_lineFeed_of_mem_utf8EncodeChar {c : Char} (hc : c ≠ '\n') {b : UInt8}
    (hb : b ∈ String.utf8EncodeChar c) : b ≠ lineFeed := by
  obtain ⟨k, first, hbytes, hfirst⟩ := exists_utf8EncodeChar c
  rw [hbytes, List.mem_cons] at hb
  rcases hb with rfl | hb
  · have hcode : c.toNat ≠ 10 := fun hcode => hc (Char.toNat_inj.mp hcode)
    refine ofNat_ne_lineFeed ?_
    rcases hfirst with ⟨rfl, hfirst, hlt⟩ | ⟨rfl, hfirst⟩ | ⟨rfl, hfirst⟩ | ⟨rfl, hfirst⟩
    · rw [pow_zero, Nat.div_one] at hfirst
      omega
    all_goals omega
  · exact ne_lineFeed_of_mem_sixBits hb

theorem byteSize_eq_length : ∀ cs : List Char,
    byteSize cs = (cs.flatMap String.utf8EncodeChar).length
  | [] => rfl
  | c :: cs => by
    rw [byteSize, List.flatMap_cons, List.length_append, String.length_utf8EncodeChar,
      byteSize_eq_length cs]

theorem byteSize_toList (text : String) : byteSize text.toList = (bytes text).length := by
  rw [bytes_eq, byteSize_eq_length]

/-! ### The place after some bytes -/

/-- The line behind some bytes, counted from one. -/
def lineAfter (bs : List UInt8) : Nat := 1 + bs.count lineFeed

/-- The number of bytes behind the last line feed. -/
def columnAfter (bs : List UInt8) : Nat := (bs.reverse.takeWhile (· != lineFeed)).length

/-- The place one byte further. -/
def Place.next (p : Place) (b : UInt8) : Place :=
  if b = lineFeed then ⟨p.line + 1, 0⟩ else ⟨p.line, p.column + 1⟩

theorem foldl_next_of_forall_ne : ∀ {bs : List UInt8} (p : Place), (∀ b ∈ bs, b ≠ lineFeed) →
    bs.foldl Place.next p = ⟨p.line, p.column + bs.length⟩
  | [], _, _ => rfl
  | b :: bs, p, h => by
    have hnext : p.next b = ⟨p.line, p.column + 1⟩ := if_neg (h b (List.mem_cons_self ..))
    have hrest : ∀ d ∈ bs, d ≠ lineFeed := fun d hd => h d (List.mem_cons_of_mem b hd)
    rw [List.foldl_cons, hnext, foldl_next_of_forall_ne _ hrest, List.length_cons, Nat.add_assoc,
      Nat.add_comm 1]

/-- Going on character by character is going on byte by byte. -/
theorem advance_eq_foldl (p : Place) (n : Nat) (cs : List Char) :
    advance p n cs = ((cs.flatMap String.utf8EncodeChar).take n).foldl Place.next p := by
  fun_induction advance p n cs with
  | case1 => rfl
  | case2 => rfl
  | case3 p n cs ih =>
    rw [ih, List.flatMap_cons]
    rfl
  | case4 p n c cs hc ih =>
    have hchar : ∀ b ∈ (String.utf8EncodeChar c).take (n + 1), b ≠ lineFeed :=
      fun b hb => ne_lineFeed_of_mem_utf8EncodeChar hc (List.mem_of_mem_take hb)
    rw [ih, List.flatMap_cons, List.take_append, List.foldl_append,
      foldl_next_of_forall_ne _ hchar, List.length_take, String.length_utf8EncodeChar,
      Nat.min_comm]

/-- From the start of a text, the place is told by the line feeds passed and the bytes since. -/
theorem foldl_next_start (bs : List UInt8) :
    bs.foldl Place.next ⟨1, 0⟩ = ⟨lineAfter bs, columnAfter bs⟩ := by
  induction bs using List.reverseRecOn with
  | nil => rfl
  | append_singleton bs b ih =>
    rw [List.foldl_append, ih]
    by_cases hb : b = lineFeed
    · simp [Place.next, hb, lineAfter, columnAfter, Nat.add_assoc]
    · simp [Place.next, hb, lineAfter, columnAfter]

/-- **The place after some bytes** is told by these bytes. -/
theorem placeAfter_eq (text : String) (i : Nat) :
    placeAfter text i = ⟨lineAfter ((bytes text).take i), columnAfter ((bytes text).take i)⟩ := by
  rw [placeAfter, advance_eq_foldl, ← bytes_eq, foldl_next_start]

/-! ### The lines in front of a place -/

/-- The number of bytes in some first lines, with their line feeds. -/
def startOf (cs : List Char) (count : Nat) : Nat := byteSize ((fullLines cs).take count).flatten

theorem startOf_lineFeed (cs : List Char) (count : Nat) :
    startOf ('\n' :: cs) (count + 1) = 1 + startOf cs count := rfl

/-- A character that ends no line goes to the first line. -/
theorem startOf_cons {c : Char} (hc : c ≠ '\n') (cs : List Char) (count : Nat) :
    startOf (c :: cs) (count + 1) = c.utf8Size + startOf cs (count + 1) := by
  rw [startOf, startOf, fullLines, if_neg hc]
  cases fullLines cs with
  | nil => simp [byteSize]
  | cons line rest =>
    rw [List.take_succ_cons, List.take_succ_cons, List.flatten_cons, List.flatten_cons,
      List.cons_append, byteSize]

theorem line_le_advance (p : Place) (n : Nat) (cs : List Char) :
    p.line ≤ (advance p n cs).line := by
  fun_induction advance p n cs with
  | case1 => exact Nat.le_refl _
  | case2 => exact Nat.le_refl _
  | case3 p n cs ih => exact Nat.le_of_succ_le ih
  | case4 p n c cs hc ih => exact ih

/-- The lines passed and the column hold all bytes that were passed, and the column also those that
stood on the first line before. -/
theorem startOf_advance (p : Place) (n : Nat) (cs : List Char) (hn : n ≤ byteSize cs) :
    startOf cs ((advance p n cs).line - p.line) + (advance p n cs).column =
      n + if (advance p n cs).line = p.line then p.column else 0 := by
  fun_induction advance p n cs with
  | case1 p cs => simp [startOf]
  | case2 p n => exact absurd hn (Nat.not_succ_le_zero n)
  | case3 p n cs ih =>
    have hsize : n ≤ byteSize cs := by
      have hfeed : byteSize ('\n' :: cs) = 1 + byteSize cs := rfl
      omega
    have hline := line_le_advance ⟨p.line + 1, 0⟩ n cs
    have hrest := ih hsize
    obtain ⟨count, hcount⟩ := Nat.exists_eq_add_of_le hline
    dsimp only at hcount hrest
    rw [hcount, Nat.add_sub_cancel_left, ite_self] at hrest
    rw [hcount, Nat.add_assoc, Nat.add_sub_cancel_left, Nat.add_comm 1 count, startOf_lineFeed,
      if_neg (by omega)]
    omega
  | case4 p n c cs hc ih =>
    have hsize : n + 1 - c.utf8Size ≤ byteSize cs := by
      have hchar : byteSize (c :: cs) = c.utf8Size + byteSize cs := rfl
      omega
    have hrest := ih hsize
    have hline := line_le_advance ⟨p.line, p.column + min c.utf8Size (n + 1)⟩
      (n + 1 - c.utf8Size) cs
    dsimp only at hrest hline
    by_cases hsame : (advance ⟨p.line, p.column + min c.utf8Size (n + 1)⟩
        (n + 1 - c.utf8Size) cs).line = p.line
    · rw [hsame, Nat.sub_self, if_pos rfl] at hrest ⊢
      have hnone : ∀ ds : List Char, startOf ds 0 = 0 := fun _ => rfl
      rw [hnone] at hrest ⊢
      omega
    · -- A new line is only reached behind the whole of the character.
      have hwhole : c.utf8Size ≤ n + 1 := by
        by_contra hpart
        refine hsame ?_
        rw [Nat.sub_eq_zero_of_le (by omega), advance]
      obtain ⟨count, hcount⟩ := Nat.exists_eq_add_of_lt (Nat.lt_of_le_of_ne hline (Ne.symm hsame))
      rw [if_neg hsame, hcount, Nat.add_assoc, Nat.add_sub_cancel_left] at hrest
      rw [if_neg hsame, hcount, Nat.add_assoc, Nat.add_sub_cancel_left, startOf_cons hc]
      omega

/-! ### Back to the bytes -/

/-- The place after the first `i` bytes of a text leads back to these bytes. -/
structure LeadsBack (text : String) (i : Nat) : Prop where
  /-- The place counts the line feeds among the bytes, and the bytes behind the last of them. -/
  place : placeAfter text i =
    ⟨lineAfter ((bytes text).take i), columnAfter ((bytes text).take i)⟩
  /-- The offset is that of the last of the bytes, or of the next one at the start of a line. -/
  offset : offsetOf text (placeAfter text i) =
    if columnAfter ((bytes text).take i) = 0 then i else i - 1
  /-- It does not lie beyond the text. -/
  inside : offsetOf text (placeAfter text i) ≤ (bytes text).length
  /-- It lies on the line of the place. -/
  sameLine : lineAfter ((bytes text).take (offsetOf text (placeAfter text i))) =
    (placeAfter text i).line

/-- A byte that is no line feed stands on the line that is reached behind it. -/
theorem lineAfter_take_pred {bs : List UInt8} {i : Nat} (hi : i ≤ bs.length)
    (h : columnAfter (bs.take i) ≠ 0) : lineAfter (bs.take (i - 1)) = lineAfter (bs.take i) := by
  cases i with
  | zero => rfl
  | succ k =>
    have hlast : bs.take (k + 1) = bs.take k ++ [bs[k]] := List.take_succ_eq_append_getElem hi
    rw [hlast, columnAfter, List.reverse_append, List.reverse_singleton, List.singleton_append] at h
    have hfeed : bs[k] ≠ lineFeed := by
      intro hfeed
      simp [hfeed] at h
    rw [hlast, lineAfter, lineAfter, List.count_append, List.count_singleton,
      if_neg (by simpa using hfeed)]
    rfl

theorem leadsBack_placeAfter {text : String} {i : Nat} (hi : i ≤ (bytes text).length) :
    LeadsBack text i := by
  have hplace := placeAfter_eq text i
  have hsum : startOf text.toList ((placeAfter text i).line - 1) + (placeAfter text i).column =
      i := by
    have hpassed := startOf_advance ⟨1, 0⟩ i text.toList (by rw [byteSize_toList]; exact hi)
    rwa [ite_self, Nat.add_zero] at hpassed
  have hoffset : offsetOf text (placeAfter text i) =
      if columnAfter ((bytes text).take i) = 0 then i else i - 1 := by
    rw [hplace] at hsum
    rw [offsetOf, hplace, byteSize_toList]
    rw [startOf] at hsum
    dsimp only at hsum ⊢
    split
    · omega
    · omega
  refine ⟨hplace, hoffset, ?_, ?_⟩
  · rw [hoffset]
    split
    · exact hi
    · omega
  · rw [hoffset, hplace]
    split
    · rfl
    · next hcolumn => exact lineAfter_take_pred hi hcolumn

end Lexgen.Text
