import WhileSyntax.Text.CodeSet
namespace WhileSyntax.Text

/-! # Blank characters

Two notions of blank are in use. A lexeme is trimmed of all characters with the Unicode property
`White_Space` before it is classified; between lexemes only the five layout characters are
skipped. Every layout character is blank, and most blank characters are not layout.
-/

/-- The characters with the Unicode property `White_Space`. -/
def whiteSpace : CodeSet where
  boundaries := [0x9, 0xE, 0x20, 0x21, 0x85, 0x86, 0xA0, 0xA1, 0x1680, 0x1681, 0x2000, 0x200B,
    0x2028, 0x202A, 0x202F, 0x2030, 0x205F, 0x2060, 0x3000, 0x3001]

/-- Whether a character is trimmed from the ends of a lexeme. -/
def isBlank (c : Char) : Bool :=
  whiteSpace.contains c

/-- Whether a character separates lexemes: space, tab, carriage return, form feed, newline. -/
def isLayout (c : Char) : Bool :=
  c = ' ' || c = '\t' || c = '\r' || c = '\x0c' || c = '\n'

/-- The text without the blank characters at its two ends. -/
def trim (cs : List Char) : List Char :=
  ((cs.dropWhile isBlank).reverse.dropWhile isBlank).reverse

/-- Layout characters are blank. -/
theorem isBlank_of_isLayout {c : Char} (h : isLayout c = true) : isBlank c = true := by
  simp only [isLayout, Bool.or_eq_true, decide_eq_true_eq] at h
  rcases h with (((rfl | rfl) | rfl) | rfl) | rfl <;> rfl

/-- A text of blank characters only is trimmed to nothing. -/
theorem trim_eq_nil_of_all_blank {cs : List Char} (h : ∀ c ∈ cs, isBlank c = true) :
    trim cs = [] := by
  have hall : cs.dropWhile isBlank = [] := by
    induction cs with
    | nil => rfl
    | cons c cs ih =>
      rw [List.dropWhile_cons_of_pos (h c (by simp))]
      exact ih fun d hd => h d (by simp [hd])
  simp [trim, hall]

end WhileSyntax.Text
