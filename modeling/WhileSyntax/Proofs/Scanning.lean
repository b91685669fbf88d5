import WhileSyntax.Proofs.Blanks
namespace WhileSyntax

/-! # Scanning

The scanner read as a recursion without its accumulator, how far a lexeme reaches, and which
characters can be part of one. A blank character never continues a lexeme. So one that is not
layout is a lexeme of its own, and such a lexeme has the kind of the end of the stream.
-/

/-! ## The recursion of the scanner -/

/-- Tokens that were found before stay in front. -/
theorem scanFrom_append (p : Cursor) (found older : List Token) (cs : List Char) :
    scanFrom p (found ++ older) cs = older.reverse ++ scanFrom p found cs := by
  fun_induction scanFrom p found cs with
  | case1 => simp [scanFrom]
  | case2 p found c cs hc ih =>
    rw [scanFrom, if_pos hc]
    exact ih
  | case3 p found c cs hc lexeme ih =>
    rw [scanFrom, if_neg hc]
    exact ih

@[simp] theorem scanFrom_nil (p : Cursor) : scanFrom p [] [] = [] := by
  rw [scanFrom, List.reverse_nil]

/-- A layout character is passed over. -/
theorem scanFrom_layout {c : Char} (hc : Text.isLayout c = true) (p : Cursor) (cs : List Char) :
    scanFrom p [] (c :: cs) = scanFrom (p.step c) [] cs := by
  rw [scanFrom, if_pos hc]

/-- At any other character a lexeme is taken, and the scan goes on behind it. -/
theorem scanFrom_lexeme {c : Char} (hc : Text.isLayout c = false) (p : Cursor) (cs : List Char) :
    scanFrom p [] (c :: cs) =
      .found p (c :: cs.take (lexemeReach c cs)) ::
        scanFrom (p.past (c :: cs.take (lexemeReach c cs))) [] (cs.drop (lexemeReach c cs)) := by
  rw [scanFrom, if_neg (by simp [hc])]
  exact scanFrom_append _ [] [_] _

/-- What holds of a text if it holds behind its first character, when that is layout, and behind
its first lexeme otherwise, holds of every text. -/
theorem scan_induction {P : Cursor → List Char → Prop} (nil : ∀ p, P p [])
    (layout : ∀ p c cs, Text.isLayout c = true → P (p.step c) cs → P p (c :: cs))
    (lexeme : ∀ p c cs, Text.isLayout c = false →
      P (p.past (c :: cs.take (lexemeReach c cs))) (cs.drop (lexemeReach c cs)) → P p (c :: cs))
    (p : Cursor) (cs : List Char) : P p cs := by
  refine scanFrom.induct (motive := fun p _ cs => P p cs) ?_ ?_ ?_ p [] cs
  · exact fun p _ => nil p
  · exact fun p _ c cs hc ih => layout p c cs hc ih
  · exact fun p _ c cs hc ih => lexeme p c cs (by simpa using hc) ih

/-! ## How far a lexeme reaches -/

theorem numeralReach_add (m n : Nat) (cs : List Char) :
    numeralReach (m + n) cs = m + numeralReach n cs := by
  fun_induction numeralReach n cs with
  | case1 n => rfl
  | case2 n c hc => simp [numeralReach, hc, Nat.add_assoc]
  | case3 n c hc => simp [numeralReach, hc]
  | case4 n c d cs hc ih =>
    rw [numeralReach, if_pos hc]
    exact ih
  | case5 n c d cs hc hd ih =>
    rw [numeralReach, if_neg hc, if_pos hd]
    exact ih
  | case6 n c d cs hc hd => rw [numeralReach, if_neg hc, if_neg hd]

theorem numeralReach_le (n : Nat) (cs : List Char) : numeralReach n cs ≤ n + cs.length := by
  fun_induction numeralReach n cs with
  | case1 n => simp
  | case2 n c hc => simp
  | case3 n c hc => simp
  | case4 n c d cs hc ih => simp only [List.length_cons] at ih ⊢; omega
  | case5 n c d cs hc hd ih => simp only [List.length_cons] at ih ⊢; omega
  | case6 n c d cs hc hd => omega

/-- A lexeme does not reach beyond the end of the text. -/
theorem lexemeReach_le (c : Char) (cs : List Char) : lexemeReach c cs ≤ cs.length := by
  unfold lexemeReach
  split
  · cases cs with
    | nil => simp
    | cons d cs => split <;> simp
  · split
    · simpa using numeralReach_le 0 cs
    · split
      · exact (List.takeWhile_prefix _).length_le
      · exact Nat.zero_le _

/-- A numeral goes on with digits and points. -/
theorem mem_take_numeralReach {d : Char} {cs : List Char} (h : d ∈ cs.take (numeralReach 0 cs)) :
    d.isDigit = true ∨ d = '.' := by
  match cs with
  | [] => simp at h
  | [c] =>
    by_cases hc : c.isDigit = true
    · simp_all [numeralReach]
    · simp_all [numeralReach]
  | c :: e :: cs =>
    rw [numeralReach] at h
    split at h
    · next hc =>
      -- a digit: one character is taken
      rw [numeralReach_add 1 0, Nat.add_comm, List.take_succ_cons, List.mem_cons] at h
      rcases h with rfl | h
      · exact .inl hc
      · exact mem_take_numeralReach h
    · split at h
      · next hc =>
        -- a point before a digit: both are taken
        simp only [Bool.and_eq_true, decide_eq_true_eq] at hc
        rw [numeralReach_add 2 0, Nat.add_comm, List.take_succ_cons, List.take_succ_cons,
          List.mem_cons, List.mem_cons] at h
        rcases h with rfl | rfl | h
        · exact .inr hc.1
        · exact .inl hc.2
        · exact mem_take_numeralReach h
      · simp at h

/-- A blank character does not continue a lexeme. -/
theorem not_blank_of_mem_take {c d : Char} {cs : List Char}
    (h : d ∈ cs.take (lexemeReach c cs)) : Text.isBlank d = false := by
  rw [← Bool.not_eq_true]
  intro hd
  unfold lexemeReach at h
  split at h
  · split at h
    · next heq =>
      obtain ⟨rest, rfl⟩ := List.head?_eq_some_iff.1 heq
      obtain rfl : d = '=' := by simpa using h
      exact absurd hd (by decide)
    · simp at h
  · split at h
    · -- a numeral has digits and points, and neither is blank
      rcases mem_take_numeralReach h with hdigit | rfl
      · simp [Text.isDigit_of_isBlank hd] at hdigit
      · exact absurd hd (by decide)
    · split at h
      · rw [← List.prefix_iff_eq_take.1 (List.takeWhile_prefix _)] at h
        have hword := List.mem_takeWhile_imp h
        simp [Text.isWordContinue_of_isBlank hd] at hword
      · simp at h

/-- A blank character begins no longer lexeme. -/
theorem lexemeReach_of_isBlank {c : Char} (hc : Text.isBlank c = true) (cs : List Char) :
    lexemeReach c cs = 0 := by
  have hjoins : joinsEquals c = false :=
    Text.forall_blank (P := fun c => joinsEquals c = false) (by decide) hc
  simp [lexemeReach, hjoins, Text.isDigit_of_isBlank hc, Text.isWordStart_of_isBlank hc]

/-! ## Lexemes that look like the end of the stream -/

/-- The lexeme at a character has the kind of the end of the stream if the character is blank. -/
theorem kind_found_eq_endOfStream_iff (p : Cursor) (c : Char) (cs : List Char) :
    (Token.found p (c :: cs.take (lexemeReach c cs))).kind = .endOfStream ↔
      Text.isBlank c = true := by
  simp only [Token.found, TokenKind.ofLexeme_eq_endOfStream_iff, String.toList_ofList]
  constructor
  · intro h
    exact h c List.mem_cons_self
  · intro hc
    simp [lexemeReach_of_isBlank hc, hc]

theorem exists_endOfStream_scanFrom_iff (p : Cursor) (cs : List Char) :
    (∃ t ∈ scanFrom p [] cs, t.kind = .endOfStream) ↔
      ∃ c ∈ cs, Text.isBlank c = true ∧ Text.isLayout c = false := by
  induction p, cs using scan_induction with
  | nil p => simp
  | layout p c cs hc ih =>
    rw [scanFrom_layout hc, ih]
    simp [hc]
  | lexeme p c cs hc ih =>
    simp only [scanFrom_lexeme hc, List.mem_cons, exists_eq_or_imp, kind_found_eq_endOfStream_iff,
      ih]
    constructor
    · rintro (hblank | ⟨d, hd, hblank⟩)
      · exact .inl ⟨hblank, hc⟩
      · exact .inr ⟨d, List.mem_of_mem_drop hd, hblank⟩
    · rintro (⟨hblank, _⟩ | ⟨d, hd, hblank⟩)
      · exact .inl hblank
      · rw [← List.take_append_drop (lexemeReach c cs) cs, List.mem_append] at hd
        rcases hd with hd | hd
        · -- what the lexeme takes is not blank
          simp [not_blank_of_mem_take hd] at hblank
        · exact .inr ⟨d, hd, hblank⟩

/-- A text has a lexeme that looks like the end of the stream just when it has a blank character
that is not layout. -/
theorem exists_endOfStream_scan_iff (source : String) :
    (∃ t ∈ scan source, t.kind = .endOfStream) ↔
      ∃ c ∈ source.toList, Text.isBlank c = true ∧ Text.isLayout c = false :=
  exists_endOfStream_scanFrom_iff .start source.toList

end WhileSyntax
