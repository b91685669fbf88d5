import Mathlib.Data.List.Basic
import Mathlib.Logic.Function.Basic
import WhileSyntax.Text.Digits
import WhileSyntax.Text.Quoted
namespace WhileSyntax.Text

/-! # Reading quoted texts back

A quoted text stands on one line, and it says which text it quotes and where it ends. To see this it
is read from the front: what was written for a character is all that `unescape?` reads
(`unescape?_escape`), and a quote that stands for itself is the end.
-/

/-! ## One character -/

/-- What stands in front of the first `c` is found again. -/
theorem takeWhile_ne {c : Char} {cs : List Char} (hc : c ∉ cs) (rest : List Char) :
    (cs ++ c :: rest).takeWhile (· ≠ c) = cs := by
  have hne : ∀ d ∈ cs, decide (d ≠ c) = true := by
    intro d hd
    refine decide_eq_true ?_
    rintro rfl
    exact hc hd
  rw [List.takeWhile_append_of_pos hne, List.takeWhile_cons_of_neg (by simp), List.append_nil]

/-- The character that a letter stands for behind a backslash. -/
def unescapeLetter (c : Char) : Char :=
  if c = 't' then '\t'
  else if c = 'n' then '\n'
  else if c = 'r' then '\r'
  else if c = '0' then '\x00'
  else c

/-- Reads a code point up to the closing brace. -/
def unescapeCode? (cs : List Char) : Option (Char × List Char) :=
  let digits := cs.takeWhile (· ≠ '\x7d')
  (hexNumber? digits).map fun n => (Char.ofNat n, cs.drop (digits.length + 1))

/-- Reads a character from the front of an escaped text; what stands behind it is left. -/
def unescape? : List Char → Option (Char × List Char)
  | [] => none
  | '\\' :: 'u' :: cs => unescapeCode? cs.tail
  | '\\' :: c :: cs => some (unescapeLetter c, cs)
  | c :: cs => some (c, cs)

theorem unescapeCode?_toDigits (c : Char) (cs : List Char) :
    unescapeCode? (Nat.toDigits 16 c.toNat ++ '\x7d' :: cs) = some (c, cs) := by
  have hbrace : '\x7d' ∉ Nat.toDigits 16 c.toNat := by
    intro hmem
    exact absurd (hexDigit?_isSome_of_mem_toDigits hmem) (by decide)
  have hrest : (Nat.toDigits 16 c.toNat ++ '\x7d' :: cs).drop
      ((Nat.toDigits 16 c.toNat).length + 1) = cs := by
    rw [← List.drop_drop, List.drop_left, List.drop_one, List.tail_cons]
  unfold unescapeCode?
  simp only [takeWhile_ne hbrace, hexNumber?_toDigits, hrest, Option.map_some, Char.ofNat_toNat]

/-- What was written for a character is read as this character, and nothing more is read. -/
theorem unescape?_escape (c : Char) (cs : List Char) :
    unescape? (escape c ++ cs) = some (c, cs) := by
  unfold escape
  split
  · next h => rw [h]; rfl
  split
  · next h => rw [h]; rfl
  split
  · next h => rw [h]; rfl
  split
  · next h => rw [h]; rfl
  split
  · next h => rw [h]; rfl
  split
  · next h => rw [h]; rfl
  split
  · -- a backslash was dealt with above, so the character is not taken for one
    next hslash _ _ _ _ _ =>
    unfold unescape?
    split
    · next h => cases h
    · next h => exact absurd (List.cons.inj h).1 hslash
    · next h => exact absurd (List.cons.inj h).1 hslash
    · next h => cases h; rfl
  · rw [List.cons_append, List.cons_append, List.cons_append, List.append_assoc]
    exact unescapeCode?_toDigits c cs

/-- The same text in front comes from the same character. -/
theorem escape_append_inj {c d : Char} {u v : List Char} (h : escape c ++ u = escape d ++ v) :
    c = d ∧ u = v := by
  have hread := congrArg unescape? h
  rw [unescape?_escape, unescape?_escape] at hread
  cases hread
  exact ⟨rfl, rfl⟩

/-- A character is written as itself or behind a backslash, and as itself only if it is none of
those that would be mistaken. -/
theorem escape_cases (c : Char) :
    (escape c = [c] ∧ c ≠ '"' ∧ c ≠ '\n') ∨ ∃ s, escape c = '\\' :: s ∧ '\n' ∉ s := by
  unfold escape
  split
  · exact .inr ⟨['"'], rfl, by decide⟩
  next hquote =>
  split
  · exact .inr ⟨['\\'], rfl, by decide⟩
  split
  · exact .inr ⟨['t'], rfl, by decide⟩
  split
  · exact .inr ⟨['n'], rfl, by decide⟩
  next hnewline =>
  split
  · exact .inr ⟨['r'], rfl, by decide⟩
  split
  · exact .inr ⟨['0'], rfl, by decide⟩
  split
  · exact .inl ⟨rfl, hquote, hnewline⟩
  · refine .inr ⟨_, rfl, ?_⟩
    have hdigits : '\n' ∉ Nat.toDigits 16 c.toNat := by
      intro hmem
      exact absurd (hexDigit?_isSome_of_mem_toDigits hmem) (by decide)
    simp [hdigits]

/-! ## Whole texts -/

/-- What is written for a character does not begin with the closing quote. -/
theorem escape_append_ne_quote (c : Char) (u v : List Char) : escape c ++ u ≠ '"' :: v := by
  intro h
  rcases escape_cases c with ⟨hself, hquote, -⟩ | ⟨s, hs, -⟩
  · rw [hself] at h
    exact hquote (List.cons.inj h).1
  · rw [hs] at h
    cases h

/-- The characters of a text can be told from what is written for them, and so can what stands
behind the closing quote. -/
theorem escapeAll_append_inj {xs ys u v : List Char}
    (h : escapeAll xs ++ '"' :: u = escapeAll ys ++ '"' :: v) : xs = ys ∧ u = v := by
  have hcons : ∀ c cs w, escapeAll (c :: cs) ++ w = escape c ++ (escapeAll cs ++ w) := by
    intro c cs w
    rw [escapeAll, List.flatMap_cons, List.append_assoc]
    rfl
  induction xs generalizing ys with
  | nil =>
    cases ys with
    | nil => exact ⟨rfl, (List.cons.inj h).2⟩
    | cons d ys => exact absurd ((hcons d ys _).symm.trans h.symm) (escape_append_ne_quote d _ _)
  | cons c xs ih =>
    cases ys with
    -- one text ends where the other one goes on
    | nil => exact absurd ((hcons c xs _).symm.trans h) (escape_append_ne_quote c _ _)
    | cons d ys =>
      rw [hcons, hcons] at h
      rcases escape_append_inj h with ⟨rfl, hrest⟩
      rcases ih hrest with ⟨rfl, rfl⟩
      exact ⟨rfl, rfl⟩

/-- Texts that are quoted alike are the same. -/
theorem quote_injective : Function.Injective quote := by
  intro s t h
  -- behind the opening quotes, with nothing left behind the closing ones
  have hchars := congrArg String.toList h
  rw [toList_quote, toList_quote] at hchars
  exact String.toList_inj.1 (escapeAll_append_inj (List.cons.inj hchars).2).1

/-- A quoted text stands on one line. -/
theorem newline_notMem_quote (s : String) : '\n' ∉ (quote s).toList := by
  have hescape : ∀ c, '\n' ∉ escape c := by
    intro c hmem
    rcases escape_cases c with ⟨hself, -, hnewline⟩ | ⟨s, hs, hrest⟩
    · rw [hself, List.mem_singleton] at hmem
      exact hnewline hmem.symm
    · rw [hs, List.mem_cons] at hmem
      exact hmem.elim (by decide) hrest
  rw [toList_quote]
  simp [escapeAll, hescape]

/-! ## Lines -/

/-- Lines can be told from the text that they make up, each with a newline behind it. -/
theorem lines_inj {ls ms : List (List Char)} (hls : ∀ l ∈ ls, '\n' ∉ l) (hms : ∀ m ∈ ms, '\n' ∉ m)
    (h : ls.flatMap (· ++ ['\n']) = ms.flatMap (· ++ ['\n'])) : ls = ms := by
  induction ls generalizing ms with
  | nil =>
    cases ms with
    | nil => rfl
    | cons m ms => simp at h
  | cons l ls ih =>
    cases ms with
    | nil => simp at h
    | cons m ms =>
      rw [List.forall_mem_cons] at hls hms
      rw [List.flatMap_cons, List.flatMap_cons, List.append_assoc, List.append_assoc,
        List.singleton_append, List.singleton_append] at h
      have hline : l = m := by
        rw [← takeWhile_ne hls.1 (ls.flatMap (· ++ ['\n'])), h, takeWhile_ne hms.1]
      subst hline
      rw [ih hls.2 hms.2 (List.cons.inj (List.append_cancel_left h)).2]

end WhileSyntax.Text
