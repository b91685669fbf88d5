import WhileSyntax.Proofs.Tiling
namespace WhileSyntax

/-! # Sources on top of each other

No lexeme goes on over a newline, and behind one the columns are counted anew. So a scan of one
source with another one below it finds the tokens of the first and then those of the second, moved
down by the lines and the bytes that are above them (`scan_below`).
-/

/-! ## Moving down -/

/-- The place so many bytes and lines further down, in the same column. -/
def Cursor.down (bytes lines : Nat) (p : Cursor) : Cursor :=
  ⟨p.offset + bytes, p.line + lines, p.column⟩

def Position.down (lines : Nat) (p : Position) : Position :=
  ⟨p.line + lines, p.column⟩

/-- The same token so many bytes and lines further down. -/
def Token.down (bytes lines : Nat) (t : Token) : Token :=
  ⟨t.kind, t.text, ⟨t.span.start + bytes, t.span.stop + bytes⟩, t.position.down lines⟩

namespace Cursor

variable (p : Cursor) (bytes lines : Nat) (cs : List Char)

theorem step_down (c : Char) : (p.down bytes lines).step c = (p.step c).down bytes lines := by
  unfold step down
  split
  · simp only [Nat.add_right_comm]
  · simp only [Nat.add_right_comm]

theorem past_down : (p.down bytes lines).past cs = (p.past cs).down bytes lines := by
  induction cs generalizing p with
  | nil => rfl
  | cons c cs ih => rw [past_cons, past_cons, step_down, ih]

/-- A new line begins behind each newline and nowhere else. -/
theorem line_past : (p.past cs).line = p.line + cs.count '\n' := by
  induction cs generalizing p with
  | nil => rfl
  | cons c cs ih =>
    rw [past_cons, ih, List.count_cons]
    unfold step
    split
    · next hc => simp [hc]; omega
    · next hc => simp [hc]

end Cursor

section

variable (p : Cursor) (bytes lines : Nat)

theorem Token.found_down (lexeme : List Char) :
    found (p.down bytes lines) lexeme = (found p lexeme).down bytes lines := by
  unfold found
  rw [Cursor.past_down]
  rfl

/-- What is scanned further down is the same, further down. -/
theorem scanFrom_down (cs : List Char) :
    scanFrom (p.down bytes lines) [] cs = (scanFrom p [] cs).map (Token.down bytes lines) := by
  induction p, cs using scan_induction with
  | nil p => simp
  | layout p c cs hc ih => rw [scanFrom_layout hc, scanFrom_layout hc, Cursor.step_down, ih]
  | lexeme p c cs hc ih =>
    rw [scanFrom_lexeme hc, scanFrom_lexeme hc, Cursor.past_down, ih, Token.found_down,
      List.map_cons]

end

/-! ## Scanning on -/

/-- A scan can be broken off where layout comes next, and resumed there. -/
theorem scanFrom_atGap {rest : List Char} (hrest : AtGap rest) (p : Cursor) (cs : List Char) :
    scanFrom p [] (cs ++ rest) = scanFrom p [] cs ++ scanFrom (p.past cs) [] rest := by
  induction p, cs using scan_induction with
  | nil p => simp
  | layout p c cs hc ih =>
    rw [List.cons_append, scanFrom_layout hc, scanFrom_layout hc, ih, Cursor.past_cons]
  | lexeme p c cs hc ih =>
    -- the gap cannot make the lexeme longer, so this ends within `cs`
    have hreach := lexemeReach_le c cs
    have hpast : (p.past (c :: cs.take (lexemeReach c cs))).past (cs.drop (lexemeReach c cs)) =
        p.past (c :: cs) := by
      rw [← Cursor.past_append, List.cons_append, List.take_append_drop]
    rw [List.cons_append, scanFrom_lexeme hc, scanFrom_lexeme hc, hrest.lexemeReach_append,
      List.take_append_of_le_length hreach, List.drop_append_of_le_length hreach, ih, hpast,
      List.cons_append]

/-- A source below another one is scanned as it is alone, but for the places of its tokens. -/
theorem scan_below (above below : String) :
    scan (above ++ "\n" ++ below) = scan above ++
      (scan below).map (Token.down (above.utf8ByteSize + 1) (1 + above.toList.count '\n')) := by
  have hchars : (above ++ "\n" ++ below).toList = above.toList ++ '\n' :: below.toList := by
    simp
  have hlayout : Text.isLayout '\n' = true := by decide
  -- the scan above ends at the newline, whatever is unfinished there
  have hgap : AtGap ('\n' :: below.toList) := by
    intro c hc
    cases hc
    exact hlayout
  -- behind the newline it is in the first column again, with what is above counted in
  have hfront : (Cursor.start.past above.toList).step '\n' =
      Cursor.start.down (above.utf8ByteSize + 1) (1 + above.toList.count '\n') := by
    have hoffset := Cursor.start.offset_past above.toList
    have hline := Cursor.start.line_past above.toList
    have hbyte : '\n'.utf8Size = 1 := rfl
    unfold Cursor.step Cursor.down
    rw [if_pos rfl, hoffset, hline, String.ofList_toList, hbyte, Nat.add_assoc, Nat.add_assoc,
      Nat.add_comm 1]
    rfl
  rw [scan, hchars, scanFrom_atGap hgap, scanFrom_layout hlayout, hfront, scanFrom_down]
  rfl

end WhileSyntax
