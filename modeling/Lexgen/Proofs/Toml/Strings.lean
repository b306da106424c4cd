/-
# TOML strings are read back

Written between quotes, a character stands for itself or is an escape, which the reader turns back
into the character; `Encodes` ties a text to what stands between the quotes. On one line the reader
stops at the first quote (`lineString_of_encodes`), between three quotes at the first three in a row
(`blockString_of_encodes`): there are never three in what is written, but up to two may stand right
in front of the three that close. Whatever the form, the text is read back as it was
(`readString_writeString`); as a key, only if the form has one quote on each side
(`readLineString_writeString`).

Key definitions: `Encodes`, `StringForm.isBlock`, `NoQuoteAhead`, `OneLine`.
Key theorems: `lineString_of_encodes`, `blockString_of_encodes`, `readString_writeString`,
`oneLine_iff`, `readLineString_writeString`.
-/
import Lexgen.Toml.StringReader
import Lexgen.Toml.Writer

namespace Lexgen.Toml

open Lexgen.Text

/-! ### What stands between the quotes -/

/-- A text and what is written for it between quotes: each character for itself, if it may stand
there `raw` behind a run of so many quotes, or as an escape, which ends a run. -/
inductive Encodes (quote : Char) (raw : Nat → Char → Prop) :
    Nat → List Char → List Char → Prop where
  | nil {run : Nat} : Encodes quote raw run [] []
  | raw {run : Nat} {c : Char} {cs body : List Char} : raw run c →
    ¬ (c = '\\' ∧ escapes quote = true) →
    Encodes quote raw (if c = quote then run + 1 else 0) cs body →
    Encodes quote raw run (c :: cs) (c :: body)
  | escape {run : Nat} {c : Char} {cs piece body : List Char} : escapes quote = true →
    (∀ rest, readEscape (piece ++ rest) = some (c, rest)) →
    (∀ rest, continuation? (piece ++ rest) = none) →
    Encodes quote raw 0 cs body → Encodes quote raw run (c :: cs) ('\\' :: piece ++ body)

/-- What is written is not shorter than the text. -/
theorem Encodes.length_le {quote : Char} {raw : Nat → Char → Prop} {run : Nat}
    {cs body : List Char} (h : Encodes quote raw run cs body) : cs.length ≤ body.length := by
  induction h with
  | nil => exact Nat.le_refl _
  | raw _ _ _ ih => simpa using ih
  | escape _ _ _ _ ih =>
    simp only [List.length_cons, List.length_append]
    omega

/-! ### One line -/

/-- The characters that stand for themselves between two quotes. -/
def LineChar (quote : Char) (_run : Nat) (c : Char) : Prop := c ≠ quote ∧ isVisible c = true

/-- **A string on one line** is read up to its closing quote. -/
theorem lineString_of_encodes {quote : Char} (hquote : quote ≠ '\\') (rest : List Char) :
    ∀ {fuel run : Nat} {cs body : List Char}, Encodes quote (LineChar quote) run cs body →
      cs.length < fuel → lineString quote fuel (body ++ quote :: rest) = some (cs, rest)
  | 0, _, _, _, _, hfuel => absurd hfuel (Nat.not_lt_zero _)
  | fuel + 1, _, _, _, .nil, _ => by simp [lineString]
  | fuel + 1, _, _, _, @Encodes.raw _ _ _ c cs body hraw hback hrest, hfuel => by
    have hlength : cs.length < fuel := by simpa using hfuel
    have hback' : (decide (c = '\\') && escapes quote) = false := by
      simpa using hback
    rw [List.cons_append, lineString, if_neg hraw.1, hback', if_neg (by simp), if_pos hraw.2,
      lineString_of_encodes hquote rest hrest hlength]
    rfl
  | fuel + 1, _, _, _, @Encodes.escape _ _ _ c cs piece body hescapes hread _ hrest, hfuel => by
    have hlength : cs.length < fuel := by simpa using hfuel
    rw [List.cons_append, List.cons_append, List.append_assoc, lineString, if_neg hquote.symm,
      hescapes, if_pos (by simp), hread]
    simp only [Option.bind_eq_bind, Option.bind_some,
      lineString_of_encodes hquote rest hrest hlength]

/-! ### Several lines -/

/-- The characters that stand for themselves between three quotes: up to two quotes in a row, and
line feeds. -/
def BlockChar (quote : Char) (run : Nat) (c : Char) : Prop :=
  if c = quote then run < 2 else isVisible c = true ∨ c = '\n'

/-- The number of quotes in front of a text. -/
def leadingQuotes (quote : Char) (cs : List Char) : Nat := (cs.takeWhile (· == quote)).length

theorem leadingQuotes_cons (quote c : Char) (cs : List Char) :
    leadingQuotes quote (c :: cs) = if c = quote then leadingQuotes quote cs + 1 else 0 := by
  by_cases h : c = quote <;> simp [leadingQuotes, h]

theorem leadingQuotes_replicate {quote : Char} {rest : List Char}
    (hrest : rest.head? ≠ some quote) : ∀ k : Nat,
      leadingQuotes quote (List.replicate k quote ++ rest) = k
  | 0 => by
    cases rest with
    | nil => rfl
    | cons c cs =>
      have hc : c ≠ quote := by simpa using hrest
      simp [leadingQuotes_cons, hc]
  | k + 1 => by
    rw [List.replicate_succ, List.cons_append, leadingQuotes_cons, if_pos rfl,
      leadingQuotes_replicate hrest k]

/-- What is written between three quotes has no three quotes in front, whatever follows, unless it
is made of quotes alone. -/
theorem Encodes.leadingQuotes_le {quote : Char} {run : Nat} {cs body : List Char}
    (hquote : quote ≠ '\\') (h : Encodes quote (BlockChar quote) run cs body) (hrun : run ≤ 2) :
    (∃ k, cs = List.replicate k quote ∧ body = List.replicate k quote ∧ run + k ≤ 2) ∨
      ∀ tail, run + leadingQuotes quote (body ++ tail) ≤ 2 := by
  induction h with
  | nil => exact Or.inl ⟨0, rfl, rfl, hrun⟩
  | @raw run c cs body hraw _ _ ih =>
    by_cases hc : c = quote
    · subst hc
      have hlt : run < 2 := by simpa [BlockChar] using hraw
      rw [if_pos rfl] at ih
      rcases ih hlt with ⟨k, rfl, rfl, hk⟩ | hlead
      · exact Or.inl ⟨k + 1, rfl, rfl, by omega⟩
      · refine Or.inr fun tail => ?_
        have := hlead tail
        rw [List.cons_append, leadingQuotes_cons, if_pos rfl]
        omega
    · refine Or.inr fun tail => ?_
      rw [List.cons_append, leadingQuotes_cons, if_neg hc]
      exact hrun
  | escape _ _ _ _ _ =>
    refine Or.inr fun tail => ?_
    rw [List.cons_append, List.cons_append, leadingQuotes_cons, if_neg hquote.symm]
    exact hrun

theorem blockEnd?_eq_none {quote : Char} {cs : List Char} (h : leadingQuotes quote cs ≤ 2) :
    blockEnd? quote cs = none := by
  have hlt : (cs.takeWhile (· == quote)).length < 3 := Nat.lt_succ_of_le h
  rw [blockEnd?]
  simp only [hlt, if_true]

/-- Up to two quotes in front of the three that close a string belong to it. -/
theorem blockEnd?_replicate {quote : Char} {rest : List Char} (hrest : rest.head? ≠ some quote)
    {k : Nat} (hk : k ≤ 2) :
    blockEnd? quote (List.replicate k quote ++ quote :: quote :: quote :: rest) =
      some (List.replicate k quote, rest) := by
  have hthree : List.replicate k quote ++ quote :: quote :: quote :: rest =
      List.replicate (k + 3) quote ++ rest := by
    rw [← List.replicate_append_replicate, List.append_assoc]
    rfl
  have hrun : ((List.replicate (k + 3) quote ++ rest).takeWhile (· == quote)).length = k + 3 :=
    leadingQuotes_replicate hrest (k + 3)
  have hown : min (k + 3 - 3) 2 = k := by omega
  rw [hthree, blockEnd?]
  simp only [hrun, hown, if_neg (show ¬ k + 3 < 3 by omega)]
  rw [Nat.add_comm 3 k, List.drop_left' List.length_replicate]

/-- **A string between three quotes** is read up to those that close it. -/
theorem blockString_of_encodes {quote : Char} (hquote : quote ≠ '\\')
    (hvisible : isVisible quote = true) {rest : List Char} (hrest : rest.head? ≠ some quote) :
    ∀ {fuel run : Nat} {cs body : List Char}, Encodes quote (BlockChar quote) run cs body →
      run ≤ 2 → cs.length < fuel →
      blockString quote fuel (body ++ quote :: quote :: quote :: rest) = some (cs, rest) := by
  intro fuel
  induction fuel with
  | zero => exact fun _ _ hfuel => absurd hfuel (Nat.not_lt_zero _)
  | succ fuel ih =>
    intro run cs body h hrun hfuel
    rcases h.leadingQuotes_le hquote hrun with ⟨k, rfl, rfl, hk⟩ | hlead
    · have hend := blockEnd?_replicate hrest (show k ≤ 2 by omega)
      cases k with
      | zero =>
        rw [List.replicate_zero, List.nil_append] at hend ⊢
        rw [blockString, hend]
      | succ k =>
        rw [List.replicate_succ, List.cons_append] at hend ⊢
        rw [blockString, hend]
    · have hend := blockEnd?_eq_none (Nat.le_trans (Nat.le_add_left _ run)
        (hlead (quote :: quote :: quote :: rest)))
      cases h with
      | nil =>
        have := blockEnd?_replicate hrest (Nat.zero_le 2)
        rw [List.replicate_zero, List.nil_append] at this
        rw [List.nil_append, this] at hend
        exact absurd hend (Option.some_ne_none _)
      | @raw _ c cs body hraw hback hnext =>
        have hlength : cs.length < fuel := by simpa using hfuel
        have hback' : (decide (c = '\\') && escapes quote) = false := by simpa using hback
        have hrun' : (if c = quote then run + 1 else 0) ≤ 2 := by
          unfold BlockChar at hraw
          split at hraw
          · next hc =>
            rw [if_pos hc]
            omega
          · next hc =>
            rw [if_neg hc]
            exact Nat.zero_le 2
        have hfits : (isVisible c || (lineEnd? (c :: (body ++
            quote :: quote :: quote :: rest))).isSome) = true := by
          unfold BlockChar at hraw
          split at hraw
          · next hc => simp [hc, hvisible]
          · rcases hraw with hc | rfl
            · simp [hc]
            · rfl
        rw [List.cons_append] at hend ⊢
        rw [blockString, hend, hback', if_neg (by simp), if_pos hfits, ih hnext hrun' hlength]
        rfl
      | @escape _ c cs piece body hescapes hread hcontinue hnext =>
        have hlength : cs.length < fuel := by simpa using hfuel
        rw [List.cons_append, List.cons_append, List.append_assoc] at hend ⊢
        rw [blockString, hend, hescapes, if_pos (by simp), hcontinue, hread]
        simp only [Option.bind_eq_bind, Option.bind_some, ih hnext (Nat.zero_le 2) hlength]

/-! ### What the forms write -/

/-- Whether a character is one of the two kinds of quotes. -/
def IsQuote (quote : Char) : Prop := quote = '"' ∨ quote = '\''

theorem IsQuote.eq_or {quote : Char} (h : IsQuote quote) : quote = '"' ∨ quote = '\'' := h

theorem IsQuote.ne_backslash {quote : Char} (h : IsQuote quote) : quote ≠ '\\' := by
  rcases h with rfl | rfl <;> decide

theorem IsQuote.isVisible {quote : Char} (h : IsQuote quote) : isVisible quote = true := by
  rcases h with rfl | rfl <;> decide

theorem continuation?_cons {c : Char} (hgap : isGap c = false) (hfeed : c ≠ '\n')
    (hreturn : c ≠ '\r') (cs : List Char) : continuation? (c :: cs) = none := by
  rw [continuation?, List.dropWhile_cons, hgap, if_neg (by simp)]
  unfold lineEnd?
  split <;> simp_all

theorem hexNumber?_hexFour : ∀ n < 128, hexNumber? (hexFour n) = some n := by decide

/-- The escape of a control character by its number is read back. -/
theorem readEscape_hexFour {c : Char} (hc : c.toNat < 128) (rest : List Char) :
    readEscape ('u' :: hexFour c.toNat ++ rest) = some (c, rest) := by
  have hlength : (hexFour c.toNat).length = 4 := by simp [hexFour]
  show readCode 4 (hexFour c.toNat ++ rest) = _
  rw [readCode, if_pos (by simp [hlength]), List.take_left' hlength, List.drop_left' hlength,
    hexNumber?_hexFour c.toNat hc]
  have hvalid : c.toNat.isValidChar := c.valid
  simp [hvalid, Char.ofNat_toNat]

theorem isVisible_of_isControl {c : Char} (hcontrol : isControl c = false) (hc : c ≠ '\n') :
    isVisible c = true := by
  simp only [isControl, isVisible, Bool.or_eq_false_iff, Bool.and_eq_false_iff, Bool.or_eq_true,
    Bool.and_eq_true, bne_iff_ne, beq_iff_eq, decide_eq_true_eq, decide_eq_false_iff_not,
    bne_eq_false_iff_eq, beq_eq_false_iff_ne] at hcontrol ⊢
  rcases hcontrol with ⟨(hsmall | ht) | hn, hdel⟩
  · exact .inr ⟨by omega, hdel⟩
  · exact .inl ht
  · exact absurd hn hc

/-- An escape of one letter. -/
theorem Encodes.cons_letter {raw : Nat → Char → Prop} {run : Nat} {c letter : Char}
    {cs body : List Char} (hread : ∀ rest, readEscape (letter :: rest) = some (c, rest))
    (hgap : isGap letter = false) (hfeed : letter ≠ '\n') (hreturn : letter ≠ '\r')
    (h : Encodes '"' raw 0 cs body) : Encodes '"' raw run (c :: cs) ('\\' :: letter :: body) :=
  @Encodes.escape _ _ _ _ _ [letter] _ rfl hread (continuation?_cons hgap hfeed hreturn) h

/-- A character other than the double quote, written between double quotes. -/
theorem Encodes.cons_escapeChar {raw : Nat → Char → Prop} {run : Nat} {keepNewline : Bool}
    {c : Char} {cs body : List Char} (hc : c ≠ '"')
    (hraw : isVisible c = true ∨ (keepNewline = true ∧ c = '\n') → raw run c)
    (h : Encodes '"' raw 0 cs body) :
    Encodes '"' raw run (c :: cs) (escapeChar keepNewline c ++ body) := by
  have hself (hback : c ≠ '\\') (hfits : raw run c) : Encodes '"' raw run (c :: cs) (c :: body) :=
    .raw hfits (fun h => hback h.1) (by rwa [if_neg hc])
  unfold escapeChar
  split
  · next hb => exact .cons_letter (fun _ => by rw [hb]; rfl) rfl (by decide) (by decide) h
  split
  · next ht => exact .cons_letter (fun _ => by rw [ht]; rfl) rfl (by decide) (by decide) h
  split
  · next hn =>
    split
    · next hkeep =>
      have := hself (by simp [hn]) (hraw (.inr ⟨hkeep, hn⟩))
      rwa [hn] at this ⊢
    · exact .cons_letter (fun _ => by rw [hn]; rfl) rfl (by decide) (by decide) h
  split
  · next hf => exact .cons_letter (fun _ => by rw [hf]; rfl) rfl (by decide) (by decide) h
  split
  · next hr => exact .cons_letter (fun _ => by rw [hr]; rfl) rfl (by decide) (by decide) h
  split
  · next hb => exact .cons_letter (fun _ => by rw [hb]; rfl) rfl (by decide) (by decide) h
  split
  · next hcontrol =>
    have hsmall : c.toNat < 128 := by
      simp only [isControl, Bool.or_eq_true, Bool.and_eq_true, decide_eq_true_eq,
        beq_iff_eq] at hcontrol
      omega
    exact .escape rfl (readEscape_hexFour hsmall)
      (fun _ => continuation?_cons rfl (by decide) (by decide) _) h
  · next hn _ _ hb hcontrol =>
    exact hself hb (hraw (.inl (isVisible_of_isControl (by simpa using hcontrol) hn)))

theorem encodes_escapeLine : ∀ {run : Nat} (cs : List Char),
    Encodes '"' (LineChar '"') run cs (escapeLine cs)
  | _, [] => .nil
  | run, c :: cs => by
    rw [escapeLine, List.flatMap_cons]
    split
    · next hc =>
      subst hc
      exact .cons_letter (fun _ => rfl) rfl (by decide) (by decide) (encodes_escapeLine cs)
    · next hc =>
      exact Encodes.cons_escapeChar hc (fun h => ⟨hc, by simpa using h⟩) (encodes_escapeLine cs)

theorem encodes_escapeLines : ∀ {run : Nat} (cs : List Char), run ≤ 2 →
    Encodes '"' (BlockChar '"') run cs (escapeLines run cs)
  | _, [], _ => .nil
  | run, c :: cs, hrun => by
    rw [escapeLines]
    split
    · next hc =>
      subst hc
      split
      · exact .cons_letter (fun _ => rfl) rfl (by decide) (by decide)
          (encodes_escapeLines cs (Nat.zero_le 2))
      · next htwo =>
        have hlt : run < 2 := by omega
        exact .raw (by simpa [BlockChar] using hlt) (by simp) (by
          rw [if_pos rfl]
          exact encodes_escapeLines cs hlt)
    · next hc =>
      exact Encodes.cons_escapeChar hc (fun h => by simpa [BlockChar, hc] using h)
        (encodes_escapeLines cs (Nat.zero_le 2))

/-- A text of characters that stand for themselves on one line. -/
theorem encodes_self_line {quote : Char} : ∀ {run : Nat} {cs : List Char},
    (∀ c ∈ cs, LineChar quote 0 c ∧ ¬ (c = '\\' ∧ escapes quote = true)) →
      Encodes quote (LineChar quote) run cs cs
  | _, [], _ => .nil
  | _, c :: cs, h => by
    have hc := h c (List.mem_cons_self ..)
    refine .raw hc.1 hc.2 ?_
    exact encodes_self_line fun d hd => h d (List.mem_cons_of_mem _ hd)

theorem le_longestRun (x : Char) : ∀ (current : Nat) (cs : List Char),
    current ≤ longestRun x current cs
  | current, [] => by simp [longestRun]
  | current, c :: cs => by
    have := le_longestRun x (current + 1) cs
    unfold longestRun
    split <;> omega

theorem longestRun_eq_zero_iff {x : Char} : ∀ {cs : List Char},
    longestRun x 0 cs = 0 ↔ x ∉ cs
  | [] => by simp [longestRun]
  | c :: cs => by
    have hle := le_longestRun x 1 cs
    unfold longestRun
    split
    · next hc => simp [hc]; omega
    · next hc =>
      have ih := @longestRun_eq_zero_iff x cs
      simp only [Nat.zero_max, ih, List.mem_cons, not_or]
      exact ⟨fun h => ⟨Ne.symm hc, h⟩, And.right⟩

/-- A text between three single quotes, if it has no three of them in a row. -/
theorem encodes_self_block : ∀ {run : Nat} {cs : List Char}, longestRun '\'' run cs < 3 →
    (∀ c ∈ cs, isVisible c = true ∨ c = '\n') → Encodes '\'' (BlockChar '\'') run cs cs
  | _, [], _, _ => .nil
  | run, c :: cs, hrun, h => by
    have htail : ∀ d ∈ cs, isVisible d = true ∨ d = '\n' :=
      fun d hd => h d (List.mem_cons_of_mem _ hd)
    unfold longestRun at hrun
    split at hrun
    · next hc =>
      have hlt := Nat.lt_of_le_of_lt (le_longestRun '\'' (run + 1) cs) hrun
      refine .raw (by simp [BlockChar, hc]; omega) (by simp [escapes]) ?_
      rw [if_pos hc]
      exact encodes_self_block hrun htail
    · next hc =>
      refine .raw (by simpa [BlockChar, hc] using h c (List.mem_cons_self ..))
        (by simp [escapes]) ?_
      rw [if_neg hc]
      exact encodes_self_block (by omega) htail

/-! ### Reading what is written -/

/-- Whether a form has three quotes on each side. -/
def StringForm.isBlock : StringForm → Bool
  | multiline | multilineLiteral => true
  | _ => false

/-- Whether no quote follows. -/
def NoQuoteAhead (rest : List Char) : Prop := ∀ quote, IsQuote quote → rest.head? ≠ some quote

/-- What a form without escapes asks of a text. -/
def StringForm.Fits (f : Features) : StringForm → Prop
  | bare => f.plain = true
  | literal => f.control = false ∧ f.singleQuotes = 0 ∧ f.newline = false
  | multilineLiteral => f.control = false ∧ f.singleQuotes < 3
  | _ => True

theorem StringForm.fits_of (f : Features) : (StringForm.of f).Fits f := by
  unfold StringForm.of
  split
  · next hplain => exact hplain
  split
  · trivial
  split
  · next hliteral => simpa [Fits, and_assoc] using hliteral
  split
  · trivial
  split
  · next hliteral => simpa [Fits] using hliteral
  split <;> trivial

theorem Features.isVisible_of_mem {cs : List Char} (hcontrol : (Features.of cs).control = false)
    {c : Char} (hc : c ∈ cs) : isVisible c = true ∨ c = '\n' := by
  have hany : cs.any isControl = false := hcontrol
  by_cases hfeed : c = '\n'
  · exact .inr hfeed
  · exact .inl (isVisible_of_isControl (by simpa using List.any_eq_false.1 hany c hc) hfeed)

theorem Features.newline_eq_false_iff {cs : List Char} :
    (Features.of cs).newline = false ↔ '\n' ∉ cs := by
  simp [Features.of]

theorem isVisible_of_isPlain {c : Char} (h : isPlain c = true) : isVisible c = true := by
  have hsmall : ∀ n < 128, isPlain (Char.ofNat n) = true → isVisible (Char.ofNat n) = true := by
    decide
  by_cases hc : c.toNat < 128
  · have := hsmall c.toNat hc
    rw [Char.ofNat_toNat] at this
    exact this h
  · simp only [isVisible, Bool.or_eq_true, Bool.and_eq_true, decide_eq_true_eq, bne_iff_ne]
    omega

theorem not_mem_of_plain {cs : List Char} (h : (Features.of cs).plain = true) {c : Char}
    (hc : isPlain c = false) : c ∉ cs := fun hmem => by
  have := List.all_eq_true.1 h c hmem
  rw [hc] at this
  exact Bool.false_ne_true this

theorem encodes_bare {cs : List Char} (h : (Features.of cs).plain = true) :
    Encodes '"' (LineChar '"') 0 cs cs := by
  refine encodes_self_line fun c hc => ⟨⟨?_, ?_⟩, fun hback => ?_⟩
  · exact ne_of_mem_of_not_mem hc (not_mem_of_plain h rfl)
  · exact isVisible_of_isPlain (List.all_eq_true.1 h c hc)
  · exact not_mem_of_plain h rfl (hback.1 ▸ hc)

theorem encodes_literal {cs : List Char} (hcontrol : (Features.of cs).control = false)
    (hquotes : (Features.of cs).singleQuotes = 0) (hfeed : (Features.of cs).newline = false) :
    Encodes '\'' (LineChar '\'') 0 cs cs := by
  have hquote : '\'' ∉ cs := longestRun_eq_zero_iff.1 hquotes
  refine encodes_self_line fun c hc => ⟨⟨ne_of_mem_of_not_mem hc hquote, ?_⟩, by simp [escapes]⟩
  rcases Features.isVisible_of_mem hcontrol hc with hvisible | rfl
  · exact hvisible
  · exact absurd hc (Features.newline_eq_false_iff.1 hfeed)

/-- On one line, a text is written between two quotes of a kind. -/
theorem write_line {cs : List Char} (h : (StringForm.of (Features.of cs)).isBlock = false) :
    ∃ quote body, IsQuote quote ∧
      (StringForm.of (Features.of cs)).write cs = quote :: (body ++ [quote]) ∧
      Encodes quote (LineChar quote) 0 cs body := by
  have hfits := StringForm.fits_of (Features.of cs)
  cases hform : StringForm.of (Features.of cs) with
  | bare => exact ⟨'"', cs, .inl rfl, rfl, encodes_bare (by rwa [hform] at hfits)⟩
  | tabbed => exact ⟨'"', escapeLine cs, .inl rfl, rfl, encodes_escapeLine cs⟩
  | literal =>
    rw [hform] at hfits
    exact ⟨'\'', cs, .inr rfl, rfl, encodes_literal hfits.1 hfits.2.1 hfits.2.2⟩
  | multiline => simp [hform, StringForm.isBlock] at h
  | multilineLiteral => simp [hform, StringForm.isBlock] at h
  | escaped => exact ⟨'"', escapeLine cs, .inl rfl, rfl, encodes_escapeLine cs⟩

/-- On several lines, a text is written between three quotes of a kind on each side. -/
theorem write_block {cs : List Char} (h : (StringForm.of (Features.of cs)).isBlock = true) :
    ∃ quote body, IsQuote quote ∧
      (StringForm.of (Features.of cs)).write cs =
        quote :: quote :: quote :: (lead (Features.of cs) ++ (body ++ [quote, quote, quote])) ∧
      Encodes quote (BlockChar quote) 0 cs body := by
  have hfits := StringForm.fits_of (Features.of cs)
  cases hform : StringForm.of (Features.of cs) with
  | multiline =>
    exact ⟨'"', escapeLines 0 cs, .inl rfl, by simp [StringForm.write],
      encodes_escapeLines cs (Nat.zero_le 2)⟩
  | multilineLiteral =>
    rw [hform] at hfits
    exact ⟨'\'', cs, .inr rfl, by simp [StringForm.write],
      encodes_self_block hfits.2 fun _ => Features.isVisible_of_mem hfits.1⟩
  | _ => simp [hform, StringForm.isBlock] at h

theorem Encodes.head?_ne {quote : Char} (hquote : quote ≠ '\\') {run : Nat} {cs body : List Char}
    (h : Encodes quote (LineChar quote) run cs body) : body.head? ≠ some quote := by
  cases h with
  | nil => simp
  | raw hraw _ _ => simpa using hraw.1
  | escape _ _ _ _ => simpa using hquote.symm

theorem Encodes.lineEnd?_eq_none {quote : Char} (hquote : IsQuote quote) {run : Nat}
    {cs body : List Char} (h : Encodes quote (BlockChar quote) run cs body) (hfeed : '\n' ∉ cs)
    (rest : List Char) : lineEnd? (body ++ quote :: rest) = none := by
  have hne (c : Char) (hvisible : isVisible c = true) (rest : List Char) :
      lineEnd? (c :: rest) = none := by
    unfold lineEnd?
    split <;> simp_all [isVisible]
  cases h with
  | nil => exact hne quote hquote.isVisible rest
  | @raw _ c cs body hraw _ _ =>
    rw [BlockChar] at hraw
    split at hraw
    · next hc => exact hne c (hc ▸ hquote.isVisible) _
    · rcases hraw with hvisible | hc
      · exact hne c hvisible _
      · simp [hc] at hfeed
  | escape _ _ _ _ => exact hne '\\' (by decide) _

theorem readQuoted_line {single : Bool} {quote : Char} (hquote : IsQuote quote)
    {cs body rest : List Char} (h : Encodes quote (LineChar quote) 0 cs body)
    (hrest : NoQuoteAhead rest) :
    readQuoted single (quote :: (body ++ quote :: rest)) = some (String.ofList cs, rest) := by
  have hone : ¬ [quote, quote].isPrefixOf (body ++ quote :: rest) = true := by
    have hhead := h.head?_ne hquote.ne_backslash
    have hnext := hrest quote hquote
    cases body with
    | nil => cases rest <;> simp_all [List.isPrefixOf, Ne.symm]
    | cons c body =>
      have hc : quote ≠ c := by simpa [eq_comm] using hhead
      simp [List.isPrefixOf, hc]
  have hfuel : cs.length < (body ++ quote :: rest).length + 1 := by
    have := h.length_le
    simp only [List.length_append]
    omega
  rw [readQuoted, if_pos hquote.eq_or, if_neg hone,
    lineString_of_encodes hquote.ne_backslash rest h hfuel]
  rfl

theorem readQuoted_block {quote : Char} (hquote : IsQuote quote) {cs body rest : List Char}
    (h : Encodes quote (BlockChar quote) 0 cs body) (hrest : NoQuoteAhead rest) :
    readQuoted false (quote :: quote :: quote :: (lead (Features.of cs) ++
      (body ++ quote :: quote :: quote :: rest))) = some (String.ofList cs, rest) := by
  have hthree (more : List Char) : [quote, quote].isPrefixOf (quote :: quote :: more) = true := by
    simp [List.isPrefixOf]
  have hlead : (lineEnd? (lead (Features.of cs) ++ (body ++ quote :: quote :: quote :: rest))).getD
      (lead (Features.of cs) ++ (body ++ quote :: quote :: quote :: rest)) =
        body ++ quote :: quote :: quote :: rest := by
    unfold lead
    split
    · rfl
    · next hfeed =>
      rw [List.nil_append, h.lineEnd?_eq_none hquote
        (Features.newline_eq_false_iff.1 (by simpa using hfeed))]
      rfl
  have hfuel : cs.length < (body ++ quote :: quote :: quote :: rest).length + 1 := by
    have := h.length_le
    simp only [List.length_append]
    omega
  rw [readQuoted, if_pos hquote.eq_or, if_pos (hthree _)]
  simp only [List.drop_succ_cons, List.drop_zero, hlead, Bool.false_eq_true, if_false,
    blockString_of_encodes hquote.ne_backslash hquote.isVisible (hrest quote hquote) h
      (Nat.zero_le 2) hfuel, Option.map_some]

/-- **A written text is read back**, whatever its form. -/
theorem readString_writeString (s : String) {rest : List Char} (hrest : NoQuoteAhead rest) :
    readString ((writeString s).toList ++ rest) = some (s, rest) := by
  rw [writeString, String.toList_ofList]
  cases hform : (StringForm.of (Features.of s.toList)).isBlock with
  | false =>
    obtain ⟨quote, body, hquote, hwrite, hbody⟩ := write_line hform
    rw [hwrite, List.cons_append, List.append_assoc]
    simpa [readString] using @readQuoted_line false _ hquote _ _ _ hbody hrest
  | true =>
    obtain ⟨quote, body, hquote, hwrite, hbody⟩ := write_block hform
    rw [hwrite]
    simpa [readString] using readQuoted_block hquote hbody hrest

/-! ### Texts on one line -/

/-- Whether a text is written with one quote on each side. -/
def OneLine (s : String) : Prop := (StringForm.of (Features.of s.toList)).isBlock = false

instance (s : String) : Decidable (OneLine s) := inferInstanceAs (Decidable (_ = false))

theorem StringForm.isBlock_of_eq_false_iff (f : Features) : (StringForm.of f).isBlock = false ↔
    f.plain = true ∨ (f.newline = false ∧ (f.control = true ∨ f.singleQuotes = 0 ∨
      (f.doubleQuotes = 0 ∧ f.backslash = false) ∨
      (3 ≤ f.singleQuotes ∧ (f.backslash = true ∨ 3 ≤ f.doubleQuotes)))) := by
  obtain ⟨plain, control, newline, backslash, doubleQuotes, singleQuotes⟩ := f
  cases plain <;> cases control <;> cases newline <;> cases backslash <;>
    simp only [StringForm.of] <;> grind [StringForm.isBlock]

theorem plain_spec {cs : List Char} (h : (Features.of cs).plain = true) :
    (Features.of cs).newline = false ∧
      (Features.of cs).doubleQuotes = 0 ∧ (Features.of cs).backslash = false := by
  have hnot := @not_mem_of_plain cs h
  exact ⟨Features.newline_eq_false_iff.2 (hnot rfl), longestRun_eq_zero_iff.2 (hnot rfl),
    by simpa [Features.of] using @hnot '\\' rfl⟩

/-- A text is written on one line if it has no line feed, and if one of four reasons keeps it from
being put between three quotes: control characters, no single quote, nothing that single quotes
would be needed for, or too many quotes in a row. -/
theorem oneLine_iff {s : String} : OneLine s ↔ '\n' ∉ s.toList ∧
    ((∃ c ∈ s.toList, isControl c = true) ∨ '\'' ∉ s.toList ∨
      ('"' ∉ s.toList ∧ '\\' ∉ s.toList) ∨
      (3 ≤ longestRun '\'' 0 s.toList ∧
        ('\\' ∈ s.toList ∨ 3 ≤ longestRun '"' 0 s.toList))) := by
  have hplain := @plain_spec s.toList
  rw [OneLine, StringForm.isBlock_of_eq_false_iff]
  simp only [Features.of, longestRun_eq_zero_iff, List.any_eq_true, List.contains_eq_mem,
    decide_eq_false_iff_not, decide_eq_true_eq] at hplain ⊢
  constructor
  · rintro (h | h)
    · exact ⟨(hplain h).1, .inr (.inr (.inl (hplain h).2))⟩
    · exact h
  · exact .inr

/-- **A written text is read back as a name** exactly if it is written on one line. -/
theorem readLineString_writeString (s : String) {rest : List Char} (hrest : NoQuoteAhead rest) :
    readLineString ((writeString s).toList ++ rest) =
      if OneLine s then some (s, rest) else none := by
  rw [writeString, String.toList_ofList]
  split
  · next hform =>
    obtain ⟨quote, body, hquote, hwrite, hbody⟩ := write_line hform
    rw [hwrite, List.cons_append, List.append_assoc]
    simpa [readLineString] using @readQuoted_line true _ hquote _ _ _ hbody hrest
  · next hform =>
    obtain ⟨quote, body, hquote, hwrite, hbody⟩ := write_block (Bool.not_eq_false _ ▸ hform)
    rw [hwrite]
    simp [readLineString, readQuoted, hquote.eq_or, List.isPrefixOf]

end Lexgen.Toml
