import WhileSyntax.Text.Digits
namespace WhileSyntax.Toml

/-! # Texts in TOML

A text is written in one of four notations: between quotes, with escapes, or between apostrophes,
without; each on one line or, with the delimiter tripled, on several. The readers here begin behind
the opening delimiter and end behind the closing one; each leaves less than it was given.
-/

export Text (hexDigit? hexNumber? isDigitOf numberOf)

/-- Whether the character may stand in a text as itself, apart from newlines and delimiters. -/
def isPlain (c : Char) : Bool :=
  c = '\t' || (' ' ≤ c && c ≠ '\x7f')

/-- The character whose code point is written by the first `width` characters. -/
def codePoint? (width : Nat) (cs : List Char) : Option Char := do
  let digits := cs.take width
  if digits.length < width then none
  let n ← hexNumber? digits
  if n.isValidChar then some (Char.ofNat n) else none

/-- The character that stands behind a backslash for another one. -/
def shortEscape? (c : Char) : Option Char :=
  if c = 'b' then some '\x08'
  else if c = 't' then some '\t'
  else if c = 'n' then some '\n'
  else if c = 'f' then some '\x0c'
  else if c = 'r' then some '\r'
  else if c = 'e' then some '\x1b'
  else if c = '"' then some '"'
  else if c = '\\' then some '\\'
  else none

/-- The character that the text behind a backslash stands for, and how many characters say so. -/
def escape? : List Char → Option (Char × Nat)
  | [] => none
  | c :: cs =>
    if c = 'x' then (codePoint? 2 cs).map (·, 3)
    else if c = 'u' then (codePoint? 4 cs).map (·, 5)
    else if c = 'U' then (codePoint? 8 cs).map (·, 9)
    else (shortEscape? c).map (·, 1)

/-- Reads a quoted text on one line; `read` stands latest first. -/
def basicBody (read : List Char) : List Char → Option (List Char × List Char)
  | [] => none
  | c :: cs =>
    if c = '"' then some (read.reverse, cs)
    else if c = '\\' then
      match escape? cs with
      | none => none
      | some (d, n) => basicBody (d :: read) (cs.drop n)
    else if isPlain c then basicBody (c :: read) cs
    else none
  termination_by cs => cs.length
  decreasing_by all_goals simp +arith

/-- Reads a text between apostrophes on one line. -/
def literalBody (read : List Char) : List Char → Option (List Char × List Char)
  | [] => none
  | c :: cs =>
    if c = '\'' then some (read.reverse, cs)
    else if isPlain c then literalBody (c :: read) cs
    else none

/-- Whether the rest of the line is blank, so that a backslash in front joins it with the next. -/
def joinsLines (cs : List Char) : Bool :=
  match cs.dropWhile fun c => c = ' ' || c = '\t' with
  | '\n' :: _ | '\r' :: '\n' :: _ => true
  | _ => false

/-- The text from the next character on that is neither blank nor part of a newline. -/
def skipLines : List Char → List Char
  | [] => []
  | c :: cs =>
    if c = ' ' || c = '\t' || c = '\n' || (c = '\r' && cs.head? = some '\n') then skipLines cs
    else c :: cs

/-- Whether the text goes on with two more of the character. -/
def hasTwo (c : Char) (cs : List Char) : Bool :=
  cs.take 2 = [c, c]

/-- Ends a text on several lines behind the three characters that close it: up to two more of them
belong to the text. -/
def closeLines (delimiter : Char) (read cs : List Char) : List Char × List Char :=
  let extra := (cs.take 2).takeWhile (· = delimiter)
  (read.reverse ++ extra, cs.drop extra.length)

/-- Whether the character may stand in a text on several lines when `cs` follows: a carriage return
needs a newline behind it. -/
def isPlainInLines (c : Char) (cs : List Char) : Bool :=
  c = '\n' || isPlain c || (c = '\r' && cs.head? = some '\n')

theorem length_skipLines_le (cs : List Char) : (skipLines cs).length ≤ cs.length := by
  induction cs with
  | nil => simp [skipLines]
  | cons c cs ih =>
    unfold skipLines
    split
    · simp only [List.length_cons]
      omega
    · simp

/-- Reads a quoted text on several lines. -/
def basicLines (read : List Char) : List Char → Option (List Char × List Char)
  | [] => none
  | c :: cs =>
    if c = '"' && hasTwo '"' cs then some (closeLines '"' read (cs.drop 2))
    else if c = '\\' then
      if joinsLines cs then basicLines read (skipLines cs)
      else
        match escape? cs with
        | none => none
        | some (d, n) => basicLines (d :: read) (cs.drop n)
    else if isPlainInLines c cs then basicLines (c :: read) cs
    else none
  termination_by cs => cs.length
  decreasing_by
    · have := length_skipLines_le cs
      simp only [List.length_cons]
      omega
    all_goals simp +arith

/-- Reads a text between tripled apostrophes. -/
def literalLines (read : List Char) : List Char → Option (List Char × List Char)
  | [] => none
  | c :: cs =>
    if c = '\'' && hasTwo '\'' cs then some (closeLines '\'' read (cs.drop 2))
    else if isPlainInLines c cs then literalLines (c :: read) cs
    else none

/-- The text without a newline at its front. -/
def dropNewline : List Char → List Char
  | '\n' :: cs => cs
  | '\r' :: '\n' :: cs => cs
  | cs => cs

/-- A text at the front, if an opening delimiter stands there: what it holds, whether it was written
for several lines, and what follows. -/
def text? : List Char → Option (List Char × Bool × List Char)
  | '"' :: cs =>
    if hasTwo '"' cs then (basicLines [] (dropNewline (cs.drop 2))).map fun (t, r) => (t, true, r)
    else (basicBody [] cs).map fun (t, r) => (t, false, r)
  | '\'' :: cs =>
    if hasTwo '\'' cs then
      (literalLines [] (dropNewline (cs.drop 2))).map fun (t, r) => (t, true, r)
    else (literalBody [] cs).map fun (t, r) => (t, false, r)
  | _ => none

/-! ## Reading leaves less -/

theorem length_basicBody {read cs t r : List Char} (h : basicBody read cs = some (t, r)) :
    r.length < cs.length := by
  fun_induction basicBody read cs with
  | case1 => simp at h
  | case2 read cs => grind
  | case3 => simp at h
  | case4 read cs _ d n _ ih =>
    have := ih h
    simp at this ⊢
    omega
  | case5 read c cs _ _ _ ih =>
    have := ih h
    simp
    omega
  | case6 => simp at h

theorem length_literalBody {read cs t r : List Char} (h : literalBody read cs = some (t, r)) :
    r.length < cs.length := by
  fun_induction literalBody read cs with
  | case1 => simp at h
  | case2 read cs => grind
  | case3 read c cs _ _ ih =>
    have := ih h
    simp
    omega
  | case4 => simp at h

theorem length_closeLines (delimiter : Char) (read cs : List Char) :
    (closeLines delimiter read cs).2.length ≤ cs.length := by
  simp [closeLines]

theorem length_basicLines {read cs t r : List Char} (h : basicLines read cs = some (t, r)) :
    r.length < cs.length := by
  fun_induction basicLines read cs with
  | case1 => simp at h
  | case2 read c cs _ =>
    have := length_closeLines '"' read (cs.drop 2)
    simp only [Option.some.injEq] at h
    simp only [h, List.length_drop, List.length_cons] at this ⊢
    omega
  | case3 read cs _ _ ih =>
    have := ih h
    have := length_skipLines_le cs
    simp
    omega
  | case4 => simp at h
  | case5 read cs _ _ d n _ ih =>
    have := ih h
    simp at this ⊢
    omega
  | case6 read c cs _ _ _ ih =>
    have := ih h
    simp
    omega
  | case7 => simp at h

theorem length_literalLines {read cs t r : List Char} (h : literalLines read cs = some (t, r)) :
    r.length < cs.length := by
  fun_induction literalLines read cs with
  | case1 => simp at h
  | case2 read c cs _ =>
    have := length_closeLines '\'' read (cs.drop 2)
    simp only [Option.some.injEq] at h
    simp only [h, List.length_drop, List.length_cons] at this ⊢
    omega
  | case3 read c cs _ _ ih =>
    have := ih h
    simp
    omega
  | case4 => simp at h

theorem length_dropNewline_le (cs : List Char) : (dropNewline cs).length ≤ cs.length := by
  unfold dropNewline
  split <;> simp +arith

/-- A text that is read is not empty. -/
theorem length_text? {cs t r : List Char} {lines : Bool} (h : text? cs = some (t, lines, r)) :
    r.length < cs.length := by
  unfold text? at h
  split at h
  · next cs =>
    have hd := length_dropNewline_le (cs.drop 2)
    simp only [List.length_drop] at hd
    split at h
    · obtain ⟨⟨t', r'⟩, hb, he⟩ := Option.map_eq_some_iff.1 h
      have := length_basicLines hb
      simp only [Prod.mk.injEq] at he
      simp only [← he.2.2, List.length_cons]
      omega
    · obtain ⟨⟨t', r'⟩, hb, he⟩ := Option.map_eq_some_iff.1 h
      have := length_basicBody hb
      simp only [Prod.mk.injEq] at he
      simp only [← he.2.2, List.length_cons]
      omega
  · next cs =>
    have hd := length_dropNewline_le (cs.drop 2)
    simp only [List.length_drop] at hd
    split at h
    · obtain ⟨⟨t', r'⟩, hb, he⟩ := Option.map_eq_some_iff.1 h
      have := length_literalLines hb
      simp only [Prod.mk.injEq] at he
      simp only [← he.2.2, List.length_cons]
      omega
    · obtain ⟨⟨t', r'⟩, hb, he⟩ := Option.map_eq_some_iff.1 h
      have := length_literalBody hb
      simp only [Prod.mk.injEq] at he
      simp only [← he.2.2, List.length_cons]
      omega
  · simp at h

end WhileSyntax.Toml
