import Mathlib.Data.Char
import Mathlib.Data.List.Basic
import WhileSyntax.Toml.Lexeme
import WhileSyntax.Toml.Notation
namespace WhileSyntax.Toml

/-! # Texts in TOML read back

Each notation is read from behind its opening delimiter. What was written for a character is all
that is read for it, and the closing delimiter is not mistaken for a part of the text, nor the other
way round: quotes and apostrophes come at most twice in a row, and those in front of the closing
delimiter count as text. So a text is read as it was written, in any notation that can hold it
(`text?_write`), and the one that is chosen for it can (`Notation.canHold_ofText`).
-/

variable {c d : Char} {cs rest : List Char} {side n : Nat}

/-! ## Characters -/

/-- A character that needs no code stands for itself, but for newlines. -/
theorem isPlain_of_needsCode_eq_false (h : needsCode c = false) (hnewline : c ≠ '\n') :
    isPlain c = true := by
  by_cases htab : c = '\t'
  · rw [htab]
    rfl
  · simp only [needsCode, Bool.or_eq_false_iff, decide_eq_false_iff_not] at h
    have hspace : ¬ c < ' ' := by simpa [htab, hnewline] using h.1
    simp [isPlain, Char.not_lt.1 hspace, h.2]

theorem toNat_lt_of_needsCode (h : needsCode c = true) : c.toNat < 128 := by
  rcases Bool.or_eq_true_iff.1 h with hlow | hdelete
  · have hspace : c < ' ' := by
      simp only [Bool.and_eq_true, decide_eq_true_eq] at hlow
      exact hlow.1.1
    exact Nat.lt_trans (Char.lt_def.1 hspace) (by decide)
  · rw [decide_eq_true_eq] at hdelete
    rw [hdelete]
    decide

/-- The digits of a code behind `\u`. -/
def codeDigits (n : Nat) : List Char :=
  let digits := (Nat.toDigits 16 n).map Char.toUpper
  List.replicate (4 - digits.length) '0' ++ digits

theorem codeDigits_spec :
    ∀ n < 128, (codeDigits n).length = 4 ∧ hexNumber? (codeDigits n) = some n := by
  decide +kernel

theorem codePoint?_codeDigits (h : c.toNat < 128) (rest : List Char) :
    codePoint? 4 (codeDigits c.toNat ++ rest) = some c := by
  rcases codeDigits_spec c.toNat h with ⟨hlength, hnumber⟩
  have htake : (codeDigits c.toNat ++ rest).take 4 = codeDigits c.toNat := List.take_left' hlength
  have hvalid : c.toNat.isValidChar := c.valid
  simp [codePoint?, htake, hlength, hnumber, hvalid]

/-- A backslash in front of something that is neither blank nor a newline does not join lines. -/
theorem joinsLines_cons (h : c ∉ [' ', '\t', '\n', '\r']) (cs : List Char) :
    joinsLines (c :: cs) = false := by
  simp only [List.mem_cons, List.not_mem_nil, or_false, not_or] at h
  unfold joinsLines
  rw [List.dropWhile_cons_of_neg (by simp [h.1, h.2.1])]
  split
  · next heq => exact absurd (List.cons.inj heq).1 h.2.2.1
  · next heq => exact absurd (List.cons.inj heq).1 h.2.2.2
  · rfl

/-- An escape behind a backslash, which is read as the character `c` whatever follows. -/
structure IsEscapeOf (c : Char) (s : List Char) : Prop where
  read : ∀ rest, escape? (s ++ rest) = some (c, s.length)
  onLine : ∀ rest, joinsLines (s ++ rest) = false

/-- A letter that neither announces a code nor is blank. -/
theorem isEscapeOf_letter {letter : Char} (hread : shortEscape? letter = some c)
    (hletter : letter ∉ ['x', 'u', 'U'] ++ [' ', '\t', '\n', '\r']) : IsEscapeOf c [letter] := by
  rw [List.mem_append, not_or] at hletter
  constructor
  · intro rest
    have hcode := hletter.1
    simp only [List.mem_cons, List.not_mem_nil, or_false, not_or] at hcode
    simp [escape?, hcode.1, hcode.2.1, hcode.2.2, hread]
  · exact joinsLines_cons hletter.2

theorem isEscapeOf_code (h : c.toNat < 128) : IsEscapeOf c ('u' :: codeDigits c.toNat) where
  read := by
    intro rest
    simp [escape?, codePoint?_codeDigits h, (codeDigits_spec c.toNat h).1]
  onLine := fun rest => joinsLines_cons (by decide) (codeDigits c.toNat ++ rest)

/-- A character other than a quote is written as itself or as an escape. -/
theorem escapeText_cases (inLines : Bool) (c : Char) :
    (escapeText inLines c = [c] ∧ c ≠ '\\' ∧ (isPlain c = true ∨ inLines = true ∧ c = '\n')) ∨
      ∃ s, escapeText inLines c = '\\' :: s ∧ IsEscapeOf c s := by
  unfold escapeText
  split
  · next h => exact .inr ⟨['b'], rfl, isEscapeOf_letter (by rw [h]; rfl) (by decide)⟩
  split
  · next h => exact .inr ⟨['t'], rfl, isEscapeOf_letter (by rw [h]; rfl) (by decide)⟩
  split
  · next h =>
    -- a newline stands for itself in a text on several lines
    cases inLines with
    | true => exact .inl ⟨by rw [h]; rfl, by rw [h]; decide, .inr ⟨rfl, h⟩⟩
    | false =>
      exact .inr ⟨['n'], rfl, isEscapeOf_letter (by rw [h]; rfl) (by decide)⟩
  next hnewline =>
  split
  · next h => exact .inr ⟨['f'], rfl, isEscapeOf_letter (by rw [h]; rfl) (by decide)⟩
  split
  · next h => exact .inr ⟨['r'], rfl, isEscapeOf_letter (by rw [h]; rfl) (by decide)⟩
  split
  · next h => exact .inr ⟨['\\'], rfl, isEscapeOf_letter (by rw [h]; rfl) (by decide)⟩
  next hslash =>
  split
  · next h => exact .inr ⟨'u' :: codeDigits c.toNat, rfl, isEscapeOf_code (toNat_lt_of_needsCode h)⟩
  · next h =>
    have hplain := isPlain_of_needsCode_eq_false (Bool.eq_false_iff.2 h) hnewline
    exact .inl ⟨rfl, hslash, .inl hplain⟩

/-- What is written for a text begins with a quote only if the text does and the quote may stand
there, and with a newline only if the text does. -/
theorem exists_escapeTexts_cons (inLines : Bool) (allowed side : Nat) (c : Char) (cs : List Char) :
    ∃ d ds, escapeTexts inLines allowed side (c :: cs) = d :: ds ∧
      (d = '"' → c = '"' ∧ side < allowed) ∧ (d = '\n' → c = '\n') ∧ d ≠ '\r' := by
  unfold escapeTexts
  split
  · next hquote =>
    split
    · next hside => exact ⟨_, _, rfl, fun _ => ⟨hquote, hside⟩, nofun, by decide⟩
    · exact ⟨_, _, rfl, nofun, nofun, by decide⟩
  · next hquote =>
    -- any other character is written as itself or behind a backslash
    rcases escapeText_cases inLines c with ⟨hself, -, hplain⟩ | ⟨s, hs, -⟩
    · rw [hself]
      refine ⟨c, _, rfl, fun h => absurd h hquote, id, ?_⟩
      rintro rfl
      rcases hplain with hplain | ⟨-, hnewline⟩
      · exact absurd hplain (by decide)
      · exact absurd hnewline (by decide)
    · rw [hs]
      exact ⟨'\\', _, rfl, nofun, nofun, by decide⟩

/-! ## On one line -/

theorem basicBody_plain (hquote : c ≠ '"') (hslash : c ≠ '\\') (hplain : isPlain c = true)
    (read cs : List Char) : basicBody read (c :: cs) = basicBody (c :: read) cs := by
  rw [basicBody, if_neg hquote, if_neg hslash, if_pos hplain]

theorem basicBody_escape {s : List Char} (h : IsEscapeOf c s) (read cs : List Char) :
    basicBody read ('\\' :: (s ++ cs)) = basicBody (c :: read) cs := by
  rw [basicBody, if_neg (by decide), if_pos rfl]
  simp only [h.read cs, List.drop_left]

/-- Between quotes on one line any text is read back. -/
theorem basicBody_escapeTexts (read cs rest : List Char) :
    basicBody read (escapeTexts false 0 0 cs ++ '"' :: rest) = some (read.reverse ++ cs, rest) := by
  induction cs generalizing read with
  | nil => simp [escapeTexts, basicBody]
  | cons c cs ih =>
    rw [List.append_cons read.reverse c cs, ← List.reverse_cons, ← ih, escapeTexts]
    -- on one line no quote may stand without an escape
    by_cases hquote : c = '"'
    · rw [if_pos hquote, if_neg (Nat.not_lt_zero 0), hquote]
      exact basicBody_escape (isEscapeOf_letter rfl (by decide)) read _
    · rw [if_neg hquote, List.append_assoc]
      rcases escapeText_cases false c with ⟨hself, hslash, hplain⟩ | ⟨s, hs, hescape⟩
      · rw [hself]
        refine basicBody_plain hquote hslash ?_ read _
        exact hplain.resolve_right (fun h => Bool.false_ne_true h.1)
      · rw [hs]
        exact basicBody_escape hescape read _

/-- Between apostrophes on one line a text without apostrophes is read back. -/
theorem literalBody_append (hcs : ∀ c ∈ cs, isPlain c = true ∧ c ≠ '\'') (read rest : List Char) :
    literalBody read (cs ++ '\'' :: rest) = some (read.reverse ++ cs, rest) := by
  induction cs generalizing read with
  | nil => simp [literalBody]
  | cons c cs ih =>
    rw [List.forall_mem_cons] at hcs
    rw [List.append_cons read.reverse c cs, ← List.reverse_cons, ← ih hcs.2, List.cons_append,
      literalBody, if_neg hcs.1.2, if_pos hcs.1.1]

/-! ## On several lines -/

/-- Up to two delimiters in front of the closing one belong to the text. -/
theorem closeLines_replicate (hn : n ≤ 2) (hrest : rest.head? ≠ some d) (read : List Char) :
    closeLines d read (List.replicate n d ++ rest) =
      (read.reverse ++ List.replicate n d, rest) := by
  have hextra : ((List.replicate n d ++ rest).take 2).takeWhile (fun c => decide (c = d)) =
      List.replicate n d := by
    rw [List.take_append, List.length_replicate, List.take_of_length_le (by simpa using hn),
      List.takeWhile_append_of_pos (by simp)]
    -- what follows does not begin with the delimiter
    cases rest with
    | nil => simp
    | cons r rest =>
      have hne : r ≠ d := by simpa using hrest
      cases 2 - n <;> simp [hne]
  unfold closeLines
  simp only [hextra, List.length_replicate, List.drop_left' (List.length_replicate)]

theorem basicLines_plain (h : ¬ (c = '"' ∧ hasTwo '"' cs = true)) (hslash : c ≠ '\\')
    (hplain : isPlain c = true ∨ c = '\n') (read : List Char) :
    basicLines read (c :: cs) = basicLines (c :: read) cs := by
  have hinLines : isPlainInLines c cs = true := by
    rcases hplain with hplain | rfl
    · simp [isPlainInLines, hplain]
    · rfl
  rw [basicLines, if_neg (by simpa using h), if_neg hslash, if_pos hinLines]

theorem basicLines_escape {s : List Char} (h : IsEscapeOf c s) (read cs : List Char) :
    basicLines read ('\\' :: (s ++ cs)) = basicLines (c :: read) cs := by
  rw [basicLines, if_neg (by simp), if_pos rfl, if_neg (by simp [h.onLine])]
  simp only [h.read cs, List.drop_left]

/-- The text ends with the quotes that stand in front of the closing ones. -/
theorem basicLines_close (hn : n ≤ 2) (hrest : rest.head? ≠ some '"') (read : List Char) :
    basicLines read (List.replicate (n + 3) '"' ++ rest) =
      some (read.reverse ++ List.replicate n '"', rest) := by
  have hcs : List.replicate (n + 3) '"' ++ rest =
      '"' :: '"' :: '"' :: (List.replicate n '"' ++ rest) := rfl
  rw [hcs, basicLines, if_pos (by simp [hasTwo]), ← closeLines_replicate hn hrest]
  rfl

theorem hasTwo_cons_iff : hasTwo c (d :: cs) = true ↔ d = c ∧ cs.head? = some c := by
  cases cs <;> simp [hasTwo]

/-- Behind a quote that is written as itself, two more of them stand only at the end of the text. -/
theorem eq_of_hasTwo_escapeTexts
    (h : hasTwo '"' (escapeTexts true 2 (side + 1) cs ++ '"' :: '"' :: '"' :: rest) = true) :
    cs = [] ∨ cs = ['"'] ∧ side + 1 < 2 := by
  cases cs with
  | nil => exact .inl rfl
  | cons c cs =>
    rcases exists_escapeTexts_cons true 2 (side + 1) c cs with ⟨d, ds, hwritten, hquote, -, -⟩
    rw [hwritten, List.cons_append, hasTwo_cons_iff] at h
    rcases hquote h.1 with ⟨rfl, hside⟩
    rw [escapeTexts, if_pos rfl, if_pos hside] at hwritten
    rw [← (List.cons.inj hwritten).2] at h
    cases cs with
    | nil => exact .inr ⟨rfl, hside⟩
    | cons e cs =>
      -- a third quote in a row would have been written as an escape
      rcases exists_escapeTexts_cons true 2 (side + 1 + 1) e cs with ⟨f, fs, hthird, hno, -, -⟩
      rw [hthird] at h
      have hlt := (hno (Option.some.inj h.2)).2
      omega

/-- Between tripled quotes any text is read back. -/
theorem basicLines_escapeTexts (hrest : rest.head? ≠ some '"') (side : Nat)
    (read cs : List Char) :
    basicLines read (escapeTexts true 2 side cs ++ '"' :: '"' :: '"' :: rest) =
      some (read.reverse ++ cs, rest) := by
  induction cs generalizing read side with
  | nil => exact basicLines_close (Nat.zero_le 2) hrest read
  | cons c cs ih =>
    have hnext : ∀ side, basicLines (c :: read)
        (escapeTexts true 2 side cs ++ '"' :: '"' :: '"' :: rest) =
          some (read.reverse ++ c :: cs, rest) := by
      intro side
      rw [ih, List.append_cons read.reverse c cs, List.reverse_cons]
    rw [escapeTexts]
    by_cases hquote : c = '"'
    · subst hquote
      rw [if_pos rfl]
      by_cases hside : side < 2
      · rw [if_pos hside, List.cons_append]
        by_cases htwo : hasTwo '"'
            (escapeTexts true 2 (side + 1) cs ++ '"' :: '"' :: '"' :: rest) = true
        · -- this quote and what is left of the text run into the closing delimiter
          rcases eq_of_hasTwo_escapeTexts htwo with rfl | ⟨rfl, hone⟩
          · exact basicLines_close (Nat.le_succ 1) hrest read
          · rw [escapeTexts, if_pos rfl, if_pos hone]
            exact basicLines_close (Nat.le_refl 2) hrest read
        · rw [basicLines_plain (fun h => htwo h.2) (by decide) (.inl rfl)]
          exact hnext (side + 1)
      · rw [if_neg hside]
        exact (basicLines_escape (isEscapeOf_letter rfl (by decide)) read _).trans
          (hnext 0)
    · rw [if_neg hquote, List.append_assoc]
      rcases escapeText_cases true c with ⟨hself, hslash, hplain⟩ | ⟨s, hs, hescape⟩
      · rw [hself]
        refine (basicLines_plain (fun h => hquote h.1) hslash ?_ read).trans (hnext 0)
        exact hplain.imp_right And.right
      · rw [hs]
        exact (basicLines_escape hescape read _).trans (hnext 0)

theorem le_longestRun (c : Char) (current longest : Nat) (cs : List Char) :
    max current longest ≤ longestRun c current longest cs := by
  induction cs generalizing current longest with
  | nil => exact Nat.le_refl _
  | cons d cs ih =>
    rw [longestRun]
    split
    · -- the run goes on
      have hnext := ih (current + 1) longest
      omega
    · -- the run is over, and it may be the longest
      have hnext := ih 0 (max current longest)
      omega

/-- A character that does not occur even once in a row is not in the text. -/
theorem notMem_of_longestRun_eq_zero {current longest : Nat}
    (h : longestRun c current longest cs = 0) : c ∉ cs := by
  induction cs generalizing current longest with
  | nil => exact List.not_mem_nil
  | cons d cs ih =>
    rw [longestRun] at h
    split at h
    · have hle := le_longestRun c (current + 1) longest cs
      omega
    · next hne => exact List.not_mem_cons_of_ne_of_not_mem (Ne.symm hne) (ih h)

/-- Between tripled apostrophes a text is read back, in which apostrophes stand at most twice in a
row. -/
theorem literalLines_append {current longest : Nat} (hrest : rest.head? ≠ some '\'')
    (hcs : ∀ c ∈ cs, needsCode c = false) (hrun : longestRun '\'' current longest cs ≤ 2)
    (read : List Char) :
    literalLines read (cs ++ '\'' :: '\'' :: '\'' :: rest) = some (read.reverse ++ cs, rest) := by
  induction cs generalizing read current longest with
  | nil =>
    exact congrArg some (closeLines_replicate (Nat.zero_le 2) hrest read)
  | cons c cs ih =>
    rw [List.forall_mem_cons] at hcs
    rw [List.cons_append, literalLines]
    split
    · next hclose =>
      rw [Bool.and_eq_true, decide_eq_true_eq] at hclose
      rcases hclose with ⟨rfl, htwo⟩
      -- this apostrophe and what is left of the text run into the closing delimiter
      cases cs with
      | nil => exact congrArg some (closeLines_replicate (Nat.le_succ 1) hrest read)
      | cons d cs =>
        rcases hasTwo_cons_iff.1 htwo with ⟨rfl, hhead⟩
        cases cs with
        | nil => exact congrArg some (closeLines_replicate (Nat.le_refl 2) hrest read)
        | cons e cs =>
          cases hhead
          simp only [longestRun, if_pos] at hrun
          have hle := le_longestRun '\'' (current + 1 + 1 + 1) longest cs
          omega
    · have hplain : isPlainInLines c (cs ++ '\'' :: '\'' :: '\'' :: rest) = true := by
        by_cases hnewline : c = '\n'
        · simp [isPlainInLines, hnewline]
        · simp [isPlainInLines, isPlain_of_needsCode_eq_false hcs.1 hnewline]
      rw [if_pos hplain, List.append_cons read.reverse c cs, ← List.reverse_cons]
      rw [longestRun] at hrun
      split at hrun
      · exact ih hcs.2 hrun _
      · exact ih hcs.2 hrun _

/-- A newline that was put in front of a text is dropped, and no other one. -/
theorem dropNewline_openLines {ds : List Char} (hnewline : ds.head? = some '\n' → '\n' ∈ cs)
    (hreturn : ds.head? ≠ some '\r') : dropNewline (openLines cs ++ ds) = ds := by
  unfold openLines
  split
  · rfl
  · next hno =>
    rw [List.contains_eq_mem, decide_eq_true_eq] at hno
    rw [List.nil_append]
    unfold dropNewline
    split
    · exact absurd (hnewline rfl) hno
    · exact absurd rfl hreturn
    · rfl

theorem dropNewline_escapeTexts (cs rest : List Char) :
    dropNewline (openLines cs ++ (escapeTexts true 2 0 cs ++ '"' :: rest)) =
      escapeTexts true 2 0 cs ++ '"' :: rest := by
  cases cs with
  | nil => rfl
  | cons c cs =>
    rcases exists_escapeTexts_cons true 2 0 c cs with ⟨d, ds, hwritten, -, hnewline, hreturn⟩
    rw [hwritten]
    refine dropNewline_openLines ?_ ?_
    · intro h
      rw [hnewline (Option.some.inj h)]
      exact List.mem_cons_self
    · intro h
      exact hreturn (Option.some.inj h)

theorem dropNewline_append (hcs : ∀ c ∈ cs, needsCode c = false) (rest : List Char) :
    dropNewline (openLines cs ++ (cs ++ '\'' :: rest)) = cs ++ '\'' :: rest := by
  cases cs with
  | nil => rfl
  | cons c cs =>
    refine dropNewline_openLines ?_ ?_
    · intro h
      rw [← Option.some.inj h]
      exact List.mem_cons_self
    · intro h
      have hcode := hcs c List.mem_cons_self
      rw [Option.some.inj h] at hcode
      cases hcode

/-! ## All notations -/

/-- Whether a text can be written in a notation. -/
def Notation.CanHold (cs : List Char) : Notation → Prop
  | .basic | .basicLines => True
  | .literal => ∀ c ∈ cs, isPlain c = true ∧ c ≠ '\''
  | .literalLines => (∀ c ∈ cs, needsCode c = false) ∧ runLength '\'' cs ≤ 2

/-- Whether a text in the notation may go over several lines. -/
def Notation.inLines : Notation → Bool
  | .basic | .literal => false
  | .basicLines | .literalLines => true

/-- The notation that is chosen for a text can hold it. -/
theorem Notation.canHold_ofText (cs : List Char) : (Notation.ofText cs).CanHold cs := by
  have hcode : (!cs.any needsCode) = true → ∀ c ∈ cs, needsCode c = false := by
    intro h
    simpa using h
  unfold ofText
  simp only
  split
  · trivial
  split
  · next hliteral =>
    -- between apostrophes on one line: no newline, no apostrophe, nothing to escape
    simp only [Bool.and_eq_true, decide_eq_true_eq] at hliteral
    intro c hc
    refine ⟨isPlain_of_needsCode_eq_false (hcode hliteral.1.1 c hc) ?_, ?_⟩
    · rintro rfl
      simp [hc] at hliteral
    · rintro rfl
      exact notMem_of_longestRun_eq_zero hliteral.1.2 hc
  split
  · trivial
  split
  · next hlines =>
    -- between tripled ones: no three apostrophes side by side
    simp only [Bool.and_eq_true, decide_eq_true_eq] at hlines
    exact ⟨hcode hlines.1, hlines.2⟩
  split
  · trivial
  · trivial

theorem hasTwo_basic (hquote : rest.head? ≠ some '"') :
    hasTwo '"' (escapeTexts false 0 0 cs ++ '"' :: rest) = false := by
  rw [Bool.eq_false_iff]
  intro htwo
  cases cs with
  | nil => exact hquote (hasTwo_cons_iff.1 htwo).2
  | cons c cs =>
    rcases exists_escapeTexts_cons false 0 0 c cs with ⟨d, ds, hwritten, hno, -⟩
    rw [hwritten, List.cons_append, hasTwo_cons_iff] at htwo
    exact Nat.not_lt_zero 0 (hno htwo.1).2

theorem hasTwo_literal (hcs : Notation.literal.CanHold cs) (hapostrophe : rest.head? ≠ some '\'') :
    hasTwo '\'' (cs ++ '\'' :: rest) = false := by
  rw [Bool.eq_false_iff]
  intro htwo
  cases cs with
  | nil => exact hapostrophe (hasTwo_cons_iff.1 htwo).2
  | cons c cs => exact (hcs c List.mem_cons_self).2 (hasTwo_cons_iff.1 htwo).1

theorem text?_tripleQuote (cs : List Char) : text? ('"' :: '"' :: '"' :: cs) =
    (basicLines [] (dropNewline cs)).map fun p => (p.1, true, p.2) := by
  rw [text?, if_pos (hasTwo_cons_iff.2 ⟨rfl, rfl⟩)]
  rfl

theorem text?_tripleApostrophe (cs : List Char) : text? ('\'' :: '\'' :: '\'' :: cs) =
    (literalLines [] (dropNewline cs)).map fun p => (p.1, true, p.2) := by
  rw [text?, if_pos (hasTwo_cons_iff.2 ⟨rfl, rfl⟩)]
  rfl

/-- A text is read as it was written, in any notation that can hold it, if no further delimiter
follows. -/
theorem text?_write {form : Notation} (hform : form.CanHold cs) (hquote : rest.head? ≠ some '"')
    (hapostrophe : rest.head? ≠ some '\'') :
    text? (form.write cs ++ rest) = some (cs, form.inLines, rest) := by
  cases form with
  | basic =>
    rw [Notation.write, List.cons_append, List.append_assoc, List.singleton_append, text?,
      hasTwo_basic hquote, basicBody_escapeTexts]
    rfl
  | literal =>
    rw [Notation.write, List.cons_append, List.append_assoc, List.singleton_append, text?,
      hasTwo_literal hform hapostrophe, literalBody_append hform]
    rfl
  | basicLines =>
    have hwritten : Notation.write cs .basicLines ++ rest = '"' :: '"' :: '"' ::
        (openLines cs ++ (escapeTexts true 2 0 cs ++ '"' :: '"' :: '"' :: rest)) := by
      simp [Notation.write]
    rw [hwritten, text?_tripleQuote, dropNewline_escapeTexts, basicLines_escapeTexts hquote]
    rfl
  | literalLines =>
    have hwritten : Notation.write cs .literalLines ++ rest = '\'' :: '\'' :: '\'' ::
        (openLines cs ++ (cs ++ '\'' :: '\'' :: '\'' :: rest)) := by
      simp [Notation.write]
    rw [hwritten, text?_tripleApostrophe, dropNewline_append hform.1,
      literalLines_append hapostrophe hform.1 hform.2]
    rfl

end WhileSyntax.Toml
