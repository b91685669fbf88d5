import WhileSyntax.Proofs.Joining
namespace WhileSyntax

/-! # Where tokens stand

A cursor counts as it goes: newlines for the line, and the characters of the present line for the
column. So where it has come to can be read off the text behind it (`Cursor.line_past`,
`Cursor.column_past`), and it only moves on (`Cursor.le_past`). A token is placed where the cursor
stands when the token begins.
-/

/-! ## Lines and reading order -/

/-- The characters behind the last newline of a text, all of them if it has none. -/
def IsLastLine (cs line : List Char) : Prop :=
  '\n' ∉ line ∧ (cs = line ∨ ∃ above, cs = above ++ '\n' :: line)

theorem exists_isLastLine (cs : List Char) : ∃ line, IsLastLine cs line := by
  induction cs with
  | nil => exact ⟨[], List.not_mem_nil, .inl rfl⟩
  | cons c cs ih =>
    rcases ih with ⟨line, hline, rfl | ⟨above, rfl⟩⟩
    · by_cases hc : c = '\n'
      · -- the last line begins behind this very newline
        refine ⟨cs, hline, .inr ⟨[], ?_⟩⟩
        rw [hc, List.nil_append]
      · refine ⟨c :: cs, ?_, .inl rfl⟩
        intro hmem
        rcases List.mem_cons.1 hmem with heq | hmem
        · exact hc heq.symm
        · exact hline hmem
    · exact ⟨line, hline, .inr ⟨c :: above, rfl⟩⟩

/-- The position comes before the other one when a text is read. -/
def Position.Precedes (p q : Position) : Prop :=
  p.line < q.line ∨ p.line = q.line ∧ p.column < q.column

namespace Position

theorem Precedes.trans {p q r : Position} (h : p.Precedes q) (k : q.Precedes r) :
    p.Precedes r := by
  unfold Precedes at h k ⊢
  omega

end Position

/-! ## What a cursor counts -/

namespace Cursor

variable (p : Cursor) (cs : List Char)

/-- Within a line each character takes one column. -/
theorem column_past_of_notMem {line : List Char} (h : '\n' ∉ line) :
    (p.past line).column = p.column + line.length := by
  induction line generalizing p with
  | nil => rfl
  | cons c line ih =>
    rw [List.mem_cons, not_or] at h
    rcases h with ⟨hc, hline⟩
    -- only a newline goes back to the first column
    have hstep : (p.step c).column = p.column + 1 := by
      unfold step
      rw [if_neg (Ne.symm hc)]
    rw [past_cons, ih _ hline, hstep, List.length_cons]
    omega

/-- Behind a text the column is that of the end of its last line. -/
theorem column_past {cs line : List Char} (h : IsLastLine cs line) :
    (start.past cs).column = 1 + line.length := by
  rcases h with ⟨hline, rfl | ⟨above, rfl⟩⟩
  · exact start.column_past_of_notMem hline
  · -- the newline in front of the last line has put the cursor in the first column
    have hfront : ((start.past above).step '\n').column = 1 := rfl
    rw [past_append, past_cons, column_past_of_notMem _ hline, hfront]

theorem precedes_step (c : Char) : p.position.Precedes (p.step c).position := by
  unfold step
  split
  · exact .inl (Nat.lt_succ_self p.line)
  · exact .inr ⟨rfl, Nat.lt_succ_self p.column⟩

/-- Over at least one character a cursor moves on. -/
theorem precedes_past_cons (c : Char) : p.position.Precedes (p.past (c :: cs)).position := by
  induction cs generalizing p c with
  | nil => exact p.precedes_step c
  | cons d cs ih => exact (p.precedes_step c).trans (ih (p.step c) d)

/-- A cursor stays where it is, or it moves on. -/
theorem le_past : p.past cs = p ∨ p.position.Precedes (p.past cs).position := by
  cases cs with
  | nil => exact .inl rfl
  | cons c cs => exact .inr (p.precedes_past_cons cs c)

end Cursor

/-! ## Tokens in a row -/

namespace Tiles

variable {p : Cursor} {cs : List Char} {ts : List Token}

/-- No token stands before the place where the text begins. -/
theorem position_eq_or_precedes (h : Tiles p cs ts) {t : Token} (ht : t ∈ ts) :
    t.position = p.position ∨ p.position.Precedes t.position := by
  rcases h.exists_of_mem ht with ⟨before, c, lexeme, behind, -, -, -, rfl⟩
  rcases p.le_past before with heq | hlater
  · left
    rw [Token.found, heq]
  · right
    exact hlater

/-- Each token comes before the next ones. -/
theorem pairwise_precedes (h : Tiles p cs ts) :
    ts.Pairwise fun t u => t.position.Precedes u.position := by
  induction h with
  | gap => exact .nil
  | @lexeme p gap c cs behind ts _ _ _ hbehind ih =>
    refine .cons ?_ ih
    intro u hu
    -- the lexeme is not empty, so the place behind it is a later one
    have hlexeme := (p.past gap).precedes_past_cons cs c
    rcases hbehind.position_eq_or_precedes hu with heq | hlater
    · rw [heq]
      exact hlexeme
    · exact hlexeme.trans hlater

end Tiles

/-! ## The positions of a source -/

/-- The line of a token is one more than the number of newlines before it, and its column is one
more than the number of characters between it and the last of them. No line or column is greater
than the number of characters of the source, and each token comes before the next ones. -/
theorem scan_positions (source : String) :
    (∀ t ∈ scan source, ∃ before behind : String, source = before ++ t.text ++ behind ∧
        t.span.start = before.utf8ByteSize ∧
        t.position.line = 1 + before.toList.count '\n' ∧
        (∃ line, IsLastLine before.toList line ∧ t.position.column = 1 + line.length) ∧
        t.position.line ≤ source.length ∧ t.position.column ≤ source.length) ∧
      (scan source).Pairwise fun t u => t.position.Precedes u.position := by
  have htiles := tiles_scan source
  refine ⟨?_, htiles.pairwise_precedes⟩
  intro t ht
  rcases htiles.exists_of_mem ht with ⟨before, c, lexeme, behind, hsource, -, -, rfl⟩
  rcases exists_isLastLine before with ⟨line, hline⟩
  have hoffset : (Cursor.start.past before).offset = (String.ofList before).utf8ByteSize := by
    rw [Cursor.offset_past]
    exact Nat.zero_add _
  have hcount : (Cursor.start.past before).line = 1 + before.count '\n' :=
    Cursor.start.line_past before
  have hcolumn := Cursor.column_past hline
  -- the lexeme has at least one character, so the source is longer than what is before it
  have hlonger : before.length < source.length := by
    rw [← String.length_toList, hsource, List.length_append, List.length_append, List.length_cons]
    omega
  have hnewlines : before.count '\n' ≤ before.length := List.count_le_length
  have hshorter : line.length ≤ before.length := by
    rcases hline with ⟨-, rfl | ⟨above, rfl⟩⟩
    · exact le_rfl
    · rw [List.length_append, List.length_cons]
      omega
  refine ⟨String.ofList before, String.ofList behind, ?_, hoffset, ?_, ⟨line, ?_, hcolumn⟩, ?_, ?_⟩
  · rw [← String.toList_inj, hsource]
    simp [Token.found]
  · rw [String.toList_ofList]
    exact hcount
  · rw [String.toList_ofList]
    exact hline
  · show (Cursor.start.past before).line ≤ _
    omega
  · show (Cursor.start.past before).column ≤ _
    omega

/-- A carriage return and a character of two bytes take one column each, and blank lines count. -/
theorem scan_positions_acrossLines :
    let source := "é\r\n\n\t\u0301é+"
    let plus := Token.found ⟨10, 3, 4⟩ ['+']
    plus ∈ scan source ∧
      ∃ before behind : String, source = before ++ "+" ++ behind ∧ 10 = before.utf8ByteSize ∧
        3 = 1 + before.toList.count '\n' ∧
        ∃ line, IsLastLine before.toList line ∧ 4 = 1 + line.length := by
  intro source plus
  have hmem : plus ∈ scan source := by decide +kernel
  -- two newlines and a carriage return before it; an accent is a character of its own
  rcases (scan_positions source).1 plus hmem with
    ⟨before, behind, hsource, hstart, hline, hcolumn, -, -⟩
  exact ⟨hmem, before, behind, hsource, hstart, hline, hcolumn⟩

end WhileSyntax
