import WhileSyntax.Proofs.Places
namespace WhileSyntax

/-! # Line by line

A scan starts anew behind each newline, whatever is before it: a word, a number or a `:` that is not
finished, or a carriage return. So a source can be scanned line by line (`scan_intercalate`), and
the tokens that stand on a line are those that are found in this line alone, with the same kinds
and texts and in the same columns (`filter_scan_intercalate`).
-/

/-! ## Two sources -/

/-- A scan composes over a newline. The tokens below it are those of a scan of their own, with the
bytes above them added to their spans and the lines above them to their lines. -/
theorem scan_composes_over_lines (above below : String) :
    scan (above ++ "\n" ++ below) = scan above ++ (scan below).map fun t =>
      { t with
        span := ⟨t.span.start + (above.utf8ByteSize + 1), t.span.stop + (above.utf8ByteSize + 1)⟩
        position := ⟨t.position.line + (1 + above.toList.count '\n'), t.position.column⟩ } := by
  rw [scan_below]
  rfl

/-! ## All lines -/

namespace Token

@[simp] theorem line_down (bytes lines : Nat) (t : Token) :
    (t.down bytes lines).position.line = t.position.line + lines := rfl

@[simp] theorem down_zero_zero : down 0 0 = id := rfl

@[simp] theorem down_down (bytes lines more further : Nat) (t : Token) :
    (t.down bytes lines).down more further = t.down (bytes + more) (lines + further) := by
  simp only [down, Position.down, Nat.add_assoc]

end Token

/-- The tokens of the lines, each scanned on its own and put where it stands. -/
def scanLines : List String → List Token
  | [] => []
  | line :: below => scan line ++ (scanLines below).map (.down (line.utf8ByteSize + 1) 1)

/-- The number of bytes of the lines, with a newline behind each. -/
def bytesOfLines : List String → Nat
  | [] => 0
  | line :: below => line.utf8ByteSize + 1 + bytesOfLines below

section

variable {line : String} {lines : List String}

theorem scan_intercalate (hlines : ∀ line ∈ lines, '\n' ∉ line.toList) :
    scan ("\n".intercalate lines) = scanLines lines := by
  induction lines with
  | nil => simp [scan, scanLines]
  | cons line lines ih =>
    rw [List.forall_mem_cons] at hlines
    cases lines with
    | nil => simp [scanLines]
    | cons next lines =>
      rw [String.intercalate_cons_cons, scan_below, List.count_eq_zero_of_not_mem hlines.1,
        ih hlines.2]
      rfl

/-- In a source of one line all tokens stand on the first line. -/
theorem line_eq_one_of_mem_scan (hline : '\n' ∉ line.toList) {t : Token} (ht : t ∈ scan line) :
    t.position.line = 1 := by
  rcases (tiles_scan line).exists_of_mem ht with ⟨before, c, lexeme, behind, hsource, -, -, rfl⟩
  have hbefore : '\n' ∉ before := by
    intro hmem
    rw [hsource] at hline
    exact hline (List.mem_append_left _ hmem)
  show (Cursor.start.past before).line = 1
  rw [Cursor.line_past, List.count_eq_zero_of_not_mem hbefore]
  rfl

theorem line_ne_zero_of_mem_scanLines {t : Token} (ht : t ∈ scanLines lines) :
    t.position.line ≠ 0 := by
  cases lines with
  | nil => cases ht
  | cons line below =>
    rcases List.mem_append.1 ht with hhere | hbelow
    · rcases (tiles_scan line).position_eq_or_precedes hhere with heq | hlater
      · rw [heq]
        exact Nat.one_ne_zero
      · rcases hlater with hlt | ⟨heq, -⟩
        · exact Nat.ne_of_gt (Nat.zero_lt_of_lt hlt)
        · rw [← heq]
          exact Nat.one_ne_zero
    · -- a token further down has one line more
      rcases List.mem_map.1 hbelow with ⟨u, -, rfl⟩
      exact Nat.succ_ne_zero _

end

/-- The tokens on a line of a source are those of the line, further down. -/
theorem filter_scan_intercalate {lines : List String} (hlines : ∀ line ∈ lines, '\n' ∉ line.toList)
    {i : Nat} {line : String} (hi : lines[i]? = some line) :
    (scan ("\n".intercalate lines)).filter (fun t => t.position.line = i + 1) =
      (scan line).map (.down (bytesOfLines (lines.take i)) i) := by
  rw [scan_intercalate hlines]
  induction lines generalizing i with
  | nil => cases hi
  | cons first below ih =>
    rw [List.forall_mem_cons] at hlines
    rw [scanLines, List.filter_append, List.filter_map]
    cases i with
    | zero =>
      -- every token of the first line is on it, and all others are further down
      obtain rfl := Option.some.inj hi
      have hhere : (scan first).filter (fun t => t.position.line = 0 + 1) = scan first := by
        rw [List.filter_eq_self]
        intro t ht
        simp [line_eq_one_of_mem_scan hlines.1 ht]
      have hbelow : (scanLines below).filter ((fun t => t.position.line = 0 + 1) ∘
          Token.down (first.utf8ByteSize + 1) 1) = [] := by
        rw [List.filter_eq_nil_iff]
        intro t ht
        simp [line_ne_zero_of_mem_scanLines ht]
      rw [hhere, hbelow]
      simp [bytesOfLines]
    | succ i =>
      -- the first line has none of these tokens; below it they are on the line before
      have hhere : (scan first).filter (fun t => t.position.line = i + 1 + 1) = [] := by
        rw [List.filter_eq_nil_iff]
        intro t ht
        simp [line_eq_one_of_mem_scan hlines.1 ht]
      have hbelow : ((fun t : Token => decide (t.position.line = i + 1 + 1)) ∘
          Token.down (first.utf8ByteSize + 1) 1) = fun t => decide (t.position.line = i + 1) := by
        funext t
        simp
      rw [hhere, hbelow, ih hlines.2 hi, List.map_map]
      simp [bytesOfLines, Function.comp_def, Nat.add_comm]

end WhileSyntax
