import WhileSyntax.Proofs.Segments
import WhileSyntax.Proofs.Spacing
namespace WhileSyntax

/-! # Tokens as tiles of a text

A text is its tokens, from left to right, and layout between them (`tiles_scan`). So the spans of
the tokens follow each other, each holds the token's text, and what no span covers is layout.
-/

/-! ## Bytes -/

namespace Cursor

theorem offset_step (p : Cursor) (c : Char) : (p.step c).offset = p.offset + c.utf8Size := by
  unfold step
  split
  · rfl
  · rfl

theorem offset_past (p : Cursor) (cs : List Char) :
    (p.past cs).offset = p.offset + (String.ofList cs).utf8ByteSize := by
  induction cs generalizing p with
  | nil => rfl
  | cons c cs ih =>
    rw [past_cons, ih, offset_step, String.ofList_cons, String.utf8ByteSize_append,
      String.utf8ByteSize_singleton, Nat.add_assoc]

/-- A text of at least one character has at least one byte. -/
theorem offset_lt_past_cons (p : Cursor) (c : Char) (cs : List Char) :
    p.offset < (p.past (c :: cs)).offset := by
  have hsize := c.utf8Size_pos
  rw [past_cons, offset_past, offset_step]
  omega

theorem offset_le_past (p : Cursor) (cs : List Char) : p.offset ≤ (p.past cs).offset := by
  rw [offset_past]
  exact Nat.le_add_right ..

end Cursor

/-! ## Tiles -/

/-- The tokens are those of the text behind the place `p`: it is layout, or it goes on, behind some
layout, with a lexeme that becomes the first token. -/
inductive Tiles : Cursor → List Char → List Token → Prop where
  | gap {p : Cursor} {gap : List Char} : IsGap gap → Tiles p gap []
  | lexeme {p : Cursor} {gap : List Char} {c : Char} {cs behind : List Char} {ts : List Token} :
      IsGap gap → Text.isLayout c = false → lexemeReach c (cs ++ behind) = cs.length →
      Tiles ((p.past gap).past (c :: cs)) behind ts →
      Tiles p (gap ++ (c :: cs ++ behind)) (.found (p.past gap) (c :: cs) :: ts)

/-- A text is tiled by the tokens that a scan finds in it. -/
theorem tiles_scanFrom (p : Cursor) (cs : List Char) : Tiles p cs (scanFrom p [] cs) := by
  induction p, cs using scan_induction with
  | nil p =>
    rw [scanFrom_nil]
    exact .gap (by simp [IsGap])
  | layout p c cs hc ih =>
    rw [scanFrom_layout hc]
    -- the gap at the front grows by one character
    generalize scanFrom (p.step c) [] cs = ts at ih
    cases ih with
    | gap hgap => exact .gap (List.forall_mem_cons.2 ⟨hc, hgap⟩)
    | lexeme hgap hd hreach hbehind =>
      exact .lexeme (List.forall_mem_cons.2 ⟨hc, hgap⟩) hd hreach hbehind
  | lexeme p c cs hc ih =>
    have htext : c :: cs =
        [] ++ (c :: cs.take (lexemeReach c cs) ++ cs.drop (lexemeReach c cs)) := by
      rw [List.nil_append, List.cons_append, List.take_append_drop]
    have hreach : lexemeReach c (cs.take (lexemeReach c cs) ++ cs.drop (lexemeReach c cs)) =
        (cs.take (lexemeReach c cs)).length := by
      rw [List.take_append_drop, List.length_take_of_le (lexemeReach_le c cs)]
    have hempty : IsGap [] := by simp [IsGap]
    rw [scanFrom_lexeme hc]
    nth_rewrite 1 [htext]
    exact .lexeme hempty hc hreach ih

theorem tiles_scan (source : String) : Tiles .start source.toList (scan source) :=
  tiles_scanFrom .start source.toList

/-- A lexeme that reaches over all characters but those behind it is the longest that there is. -/
theorem isMunch_of_reach {c : Char} {cs behind : List Char}
    (hreach : lexemeReach c (cs ++ behind) = cs.length) : IsMunch (c :: cs) behind := by
  have hmunch := isMunch_lexemeReach c (cs ++ behind)
  rwa [hreach, List.take_left, List.drop_left] at hmunch

/-- No character of a lexeme is layout. -/
theorem isLayout_of_mem_lexeme {c d : Char} {cs behind : List Char} (hc : Text.isLayout c = false)
    (hreach : lexemeReach c (cs ++ behind) = cs.length) (hd : d ∈ c :: cs) :
    Text.isLayout d = false := by
  rcases List.mem_cons.1 hd with rfl | hd
  · exact hc
  · have htake : (cs ++ behind).take (lexemeReach c (cs ++ behind)) = cs := by
      rw [hreach, List.take_left]
    have hblank := not_blank_of_mem_take (htake.symm ▸ hd)
    rw [← Bool.not_eq_true] at hblank ⊢
    exact fun hlayout => hblank (Text.isBlank_of_isLayout hlayout)

/-- A character of a text that is put together stands in the one part or in the other. -/
theorem left_or_right_of_append {xs ys before behind : List Char} {c : Char}
    (h : xs ++ ys = before ++ c :: behind) :
    (∃ inner, xs = before ++ c :: inner) ∨
      ∃ later, before = xs ++ later ∧ ys = later ++ c :: behind := by
  rcases List.append_eq_append_iff.1 h with ⟨later, hbefore, hys⟩ | ⟨inner, hxs, hrest⟩
  · exact .inr ⟨later, hbefore, hys⟩
  · cases inner with
    | nil => exact .inr ⟨[], by simpa using hxs.symm, by simpa using hrest.symm⟩
    | cons d inner =>
      obtain ⟨rfl, -⟩ := List.cons.inj hrest
      exact .inl ⟨inner, hxs⟩

namespace Tiles

variable {p : Cursor} {cs : List Char} {ts : List Token}

/-- Where in the text a token stands. -/
theorem exists_of_mem (h : Tiles p cs ts) {t : Token} (ht : t ∈ ts) :
    ∃ before c lexeme behind, cs = before ++ (c :: lexeme ++ behind) ∧
      Text.isLayout c = false ∧ lexemeReach c (lexeme ++ behind) = lexeme.length ∧
      t = .found (p.past before) (c :: lexeme) := by
  induction h with
  | gap => exact absurd ht List.not_mem_nil
  | @lexeme p gap c ds behind ts hgap hc hreach _ ih =>
    rcases List.mem_cons.1 ht with rfl | ht
    · exact ⟨gap, c, ds, behind, rfl, hc, hreach, rfl⟩
    · -- further on: the gap and this lexeme stand before it too
      obtain ⟨before, d, lexeme, rest, rfl, hd, hlexeme, rfl⟩ := ih ht
      refine ⟨gap ++ (c :: ds ++ before), d, lexeme, rest, ?_, hd, hlexeme, ?_⟩
      · simp only [List.append_assoc]
      · rw [Cursor.past_append, Cursor.past_append]

theorem le_start (h : Tiles p cs ts) {t : Token} (ht : t ∈ ts) : p.offset ≤ t.span.start := by
  obtain ⟨before, c, lexeme, behind, _, _, _, rfl⟩ := h.exists_of_mem ht
  exact p.offset_le_past before

/-- Each token ends before the next ones start. -/
theorem pairwise (h : Tiles p cs ts) :
    ts.Pairwise fun t u => t.span.stop ≤ u.span.start := by
  induction h with
  | gap => exact .nil
  | lexeme _ _ _ hbehind ih => exact .cons (fun u hu => hbehind.le_start hu) ih

/-- A character is layout, or the span of a token covers it. -/
theorem layout_or_covered (h : Tiles p cs ts) {before behind : List Char} {c : Char}
    (hcs : cs = before ++ c :: behind) :
    Text.isLayout c = true ∨ ∃ t ∈ ts, t.span.start ≤ (p.past before).offset ∧
      (p.past before).offset < t.span.stop := by
  induction h generalizing before with
  | gap hgap => exact .inl (hgap c (by simp [hcs]))
  | @lexeme p gap d ds rest ts hgap _ _ _ ih =>
    rcases left_or_right_of_append hcs with ⟨inner, hinner⟩ | ⟨later, rfl, hrest⟩
    · -- in the gap at the front
      exact .inl (hgap c (by simp [hinner]))
    rw [Cursor.past_append]
    rcases left_or_right_of_append hrest with ⟨inner, hinner⟩ | ⟨later, rfl, hlater⟩
    · -- in the first lexeme
      refine .inr ⟨_, List.mem_cons_self, (p.past gap).offset_le_past later, ?_⟩
      show _ < ((p.past gap).past (d :: ds)).offset
      rw [hinner, Cursor.past_append]
      exact Cursor.offset_lt_past_cons ..
    · -- behind it
      rw [Cursor.past_append]
      rcases ih hlater with hlayout | ⟨t, ht, hspan⟩
      · exact .inl hlayout
      · exact .inr ⟨t, List.mem_cons_of_mem _ ht, hspan⟩

end Tiles

/-! ## The spans of a source -/

/-- The tokens and the layout between them are the whole source. The tokens follow each other; each
is not empty, holds what stands at its span, has no layout in it, and is the longest segment there,
or a single character where there is none; and a character that no token covers is layout. -/
theorem scan_lossless_longest (source : String) :
    (scan source).Pairwise (fun t u => t.span.stop ≤ u.span.start) ∧
      (∀ t ∈ scan source, t.span.start < t.span.stop ∧ ∃ before behind : String,
        source = before ++ t.text ++ behind ∧
        t.span = ⟨before.utf8ByteSize, (before ++ t.text).utf8ByteSize⟩ ∧
        IsMunch t.text.toList behind.toList ∧ ∀ c ∈ t.text.toList, Text.isLayout c = false) ∧
      ∀ (before behind : String) (c : Char), source = before ++ String.singleton c ++ behind →
        Text.isLayout c = true ∨ ∃ t ∈ scan source,
          t.span.start ≤ before.utf8ByteSize ∧ before.utf8ByteSize < t.span.stop := by
  have htiles := tiles_scan source
  -- the cursor's offset counts the bytes that it has passed
  have hoffset : ∀ s : String, (Cursor.start.past s.toList).offset = s.utf8ByteSize := by
    intro s
    rw [Cursor.offset_past, String.ofList_toList]
    exact Nat.zero_add _
  refine ⟨htiles.pairwise, ?_, ?_⟩
  · intro t ht
    obtain ⟨before, c, lexeme, behind, hsource, hc, hreach, rfl⟩ := htiles.exists_of_mem ht
    -- both ends of the span, as bytes of what stands before them
    have hstart := hoffset (String.ofList before)
    have hstop := hoffset (String.ofList (before ++ c :: lexeme))
    rw [String.toList_ofList] at hstart hstop
    rw [Cursor.past_append] at hstop
    refine ⟨Cursor.offset_lt_past_cons .., String.ofList before, String.ofList behind, ?_⟩
    refine ⟨?_, ?_, ?_, ?_⟩
    · rw [← String.toList_inj, hsource]
      simp [Token.found]
    · show (⟨_, _⟩ : Span) = _
      rw [hstart, hstop, String.ofList_append]
      rfl
    · simpa [Token.found] using isMunch_of_reach hreach
    · intro d hd
      rw [Token.found, String.toList_ofList] at hd
      exact isLayout_of_mem_lexeme hc hreach hd
  · intro before behind c hsource
    have hchars : source.toList = before.toList ++ c :: behind.toList := by
      simp [hsource]
    have hcovered := htiles.layout_or_covered hchars
    rwa [hoffset] at hcovered

/-- A numeral backs out of its last point, which is then a token of its own; a mark that may only
continue a word stands behind an exclamation mark. -/
theorem scan_lossless_longest_juxtaposed :
    let source := "1.2.<=!\u0301 é:="
    let relation := Token.found ⟨4, 1, 5⟩ "<=".toList
    (scan source).map Token.text = ["1.2", ".", "<=", "!", "\u0301", "é", ":="] ∧
      relation ∈ scan source ∧
      (∃ before behind : String, source = before ++ "<=" ++ behind ∧
        relation.span = ⟨before.utf8ByteSize, (before ++ "<=").utf8ByteSize⟩ ∧
        IsMunch "<=".toList behind.toList ∧ ∀ c ∈ "<=".toList, Text.isLayout c = false) ∧
      ∃ t ∈ scan source, t.span.start ≤ 7 ∧ 7 < t.span.stop := by
  intro source relation
  have hmem : relation ∈ scan source := by decide +kernel
  obtain ⟨-, htokens, hcovered⟩ := scan_lossless_longest source
  have hmark := hcovered "1.2.<=!" " é:=" '\u0301' (by decide)
  exact ⟨by decide +kernel, hmem, (htokens relation hmem).2, hmark.resolve_left (by decide)⟩

end WhileSyntax
