import Mathlib.Data.List.TakeWhile
import WhileSyntax.Token.Scan
namespace WhileSyntax

/-! # Blank characters

No blank character can be part of a word, of a numeral or of an operator. A lexeme has the kind of
the end of the stream just when all of its characters are blank.
-/

namespace Text

/-- The code points of the blank characters. -/
def blankPoints : List Nat :=
  [0x9, 0xA, 0xB, 0xC, 0xD, 0x20, 0x85, 0xA0, 0x1680, 0x2000, 0x2001, 0x2002, 0x2003, 0x2004,
    0x2005, 0x2006, 0x2007, 0x2008, 0x2009, 0x200A, 0x2028, 0x2029, 0x202F, 0x205F, 0x3000]

theorem toNat_mem_blankPoints {c : Char} (h : isBlank c = true) : c.toNat ∈ blankPoints := by
  simp only [isBlank, CodeSet.contains, whiteSpace, CodeSet.walk, Bool.not_false, Bool.not_true,
    Bool.if_false_right, Bool.and_true, Bool.if_false_left, Bool.if_true_left, Bool.and_eq_true,
    Bool.not_eq_eq_eq_not, decide_eq_false_iff_not, Nat.not_lt, Bool.or_eq_true,
    decide_eq_true_eq] at h
  simp only [blankPoints, List.mem_cons, List.not_mem_nil, or_false]
  omega

/-- What holds of every character with one of these code points holds of every blank one. -/
theorem forall_blank {P : Char → Prop} (h : ∀ n ∈ blankPoints, P (Char.ofNat n)) {c : Char}
    (hc : isBlank c = true) : P c := by
  have hpoint := h c.toNat (toNat_mem_blankPoints hc)
  rwa [Char.ofNat_toNat] at hpoint

theorem isWordContinue_of_isBlank {c : Char} (h : isBlank c = true) : isWordContinue c = false :=
  forall_blank (P := fun c => isWordContinue c = false) (by decide +kernel) h

theorem isWordStart_of_isBlank {c : Char} (h : isBlank c = true) : isWordStart c = false := by
  rw [← Bool.not_eq_true]
  intro hstart
  have hcontinue := isWordContinue_of_isWordStart hstart
  simp [isWordContinue_of_isBlank h] at hcontinue

theorem isDigit_of_isBlank {c : Char} (h : isBlank c = true) : c.isDigit = false :=
  forall_blank (P := fun c => c.isDigit = false) (by decide) h

/-- Only blank characters are trimmed away altogether. -/
theorem trim_eq_nil_iff {cs : List Char} : trim cs = [] ↔ ∀ c ∈ cs, isBlank c = true := by
  constructor
  · intro h
    rw [trim, List.reverse_eq_nil_iff, List.dropWhile_eq_nil_iff] at h
    -- the first character that is not trimmed from the front is not blank
    cases hfront : cs.dropWhile isBlank with
    | nil => exact List.dropWhile_eq_nil_iff.1 hfront
    | cons c rest =>
      have hblank : isBlank c = true := h c (by simp [hfront])
      have hnot := List.head?_dropWhile_not isBlank cs
      simp [hfront, hblank] at hnot
  · exact trim_eq_nil_of_all_blank

end Text

namespace TokenKind

/-- Only an empty text is classified as the end of the stream. -/
theorem ofTrimmed_eq_endOfStream_iff {cs : List Char} : ofTrimmed cs = endOfStream ↔ cs = [] := by
  constructor
  · intro h
    unfold ofTrimmed at h
    split at h
    · next hempty => exact List.isEmpty_iff.1 hempty
    · split at h
      · cases h
      · cases hfind : all.find? fun k => k.lexemes.contains (String.ofList cs) with
        | none =>
          rw [hfind] at h
          cases h
        | some k =>
          -- a kind that is found has lexemes, and the end of the stream has none
          have hk := List.find?_some hfind
          rw [hfind, Option.getD_some] at h
          simp [h, lexemes] at hk
  · rintro rfl
    rfl

theorem ofLexeme_eq_endOfStream_iff {s : String} :
    ofLexeme s = endOfStream ↔ ∀ c ∈ s.toList, Text.isBlank c = true := by
  rw [ofLexeme, ofTrimmed_eq_endOfStream_iff, Text.trim_eq_nil_iff]

end TokenKind

end WhileSyntax
