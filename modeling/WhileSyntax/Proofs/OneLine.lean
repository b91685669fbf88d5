import WhileSyntax.Proofs.Places
import WhileSyntax.Proofs.Relayout
namespace WhileSyntax

/-! # Lexemes on one line

Lexemes that are cut already are placed by adding up their lengths, and those of a source where the
cursor has come to. If the lexemes are written on one line with a space between neighbours, both
ways give the same tokens (`scanFrom_intercalate`): a space ends what is before it, and a lexeme
holds no newline. It takes lexemes that are one token each when they stand alone; any others are not
found again in the source (`ofLexemes_eq_ofSource_iff`).
-/

/-! ## Texts that are one token -/

/-- The text is scanned into one token, which covers all of it. -/
def StandsAlone (s : String) : Prop :=
  ∃ t, scan s = [t] ∧ t.span = ⟨0, s.utf8ByteSize⟩

namespace Cursor

variable {p : Cursor}

/-- Only over nothing does a cursor stay at its byte. -/
theorem eq_nil_of_offset_past {cs : List Char} (h : (p.past cs).offset = p.offset) : cs = [] := by
  cases cs with
  | nil => rfl
  | cons c cs => exact absurd h (Nat.ne_of_gt (p.offset_lt_past_cons c cs))

theorem offset_start_past (s : String) : (start.past s.toList).offset = s.utf8ByteSize := by
  rw [offset_past, String.ofList_toList]
  exact Nat.zero_add _

end Cursor

theorem standsAlone_iff {s : String} : StandsAlone s ↔ IsLexeme s.toList := by
  constructor
  · rintro ⟨t, hscan, hspan⟩
    have hmem : t ∈ scan s := by
      rw [hscan]
      exact List.mem_singleton_self t
    rcases (tiles_scan s).exists_of_mem hmem with ⟨before, c, lexeme, behind, hs, hc, hreach, rfl⟩
    -- the token begins and ends where the text does, so there is nothing before and behind it
    have hbefore : before = [] := Cursor.eq_nil_of_offset_past (congrArg Span.start hspan)
    have hbehind : behind = [] := by
      have hstop : (((Cursor.start.past before).past (c :: lexeme)).past behind).offset =
          ((Cursor.start.past before).past (c :: lexeme)).offset := by
        rw [← Cursor.past_append, ← Cursor.past_append, ← hs, Cursor.offset_start_past]
        exact (congrArg Span.stop hspan).symm
      exact Cursor.eq_nil_of_offset_past hstop
    rw [hs, hbefore, hbehind, List.nil_append, List.append_nil]
    exact isLexeme_of_reach hc hreach
  · intro h
    refine ⟨_, scan_of_isLexeme h, ?_⟩
    show (⟨0, (Cursor.start.past s.toList).offset⟩ : Span) = _
    rw [Cursor.offset_start_past]

/-- A lexeme holds no newline, so it only moves the cursor to the right. -/
theorem IsLexeme.past_eq {s : String} (h : IsLexeme s.toList) (p : Cursor) :
    p.past s.toList = ⟨p.offset + s.utf8ByteSize, p.line, p.column + s.length⟩ := by
  -- a newline would be layout, and no lexeme holds any
  have hnewline : '\n' ∉ s.toList := by
    intro hmem
    cases hs : s.toList with
    | nil => simp [hs] at hmem
    | cons c cs =>
      rw [hs] at h hmem
      have hreach : lexemeReach c (cs ++ []) = cs.length := by
        rw [List.append_nil]
        exact h.2
      exact Bool.noConfusion (isLayout_of_mem_lexeme h.1 hreach hmem)
  have hoffset := p.offset_past s.toList
  have hline := p.line_past s.toList
  have hcolumn := p.column_past_of_notMem hnewline
  rw [String.ofList_toList] at hoffset
  rw [List.count_eq_zero_of_not_mem hnewline] at hline
  rw [String.length_toList] at hcolumn
  rw [← hoffset, ← hcolumn, ← p.line.add_zero, ← hline]

/-! ## Lexemes with single spaces between them -/

section

variable {lexemes : List String}

theorem length_intercalate_cons_cons (s next : String) (lexemes : List String) :
    (" ".intercalate (s :: next :: lexemes)).length =
      s.length + 1 + (" ".intercalate (next :: lexemes)).length := by
  rw [String.intercalate_cons_cons, String.length_append, String.length_append]
  rfl

/-- From any place of the first line on, lexemes with single spaces between them are scanned as they
are lined up. -/
theorem scanFrom_intercalate (hlex : ∀ s ∈ lexemes, IsLexeme s.toList) {p : Cursor}
    (hline : p.line = 1) :
    scanFrom p [] (" ".intercalate lexemes).toList =
      TokenStream.lineUp p.offset p.column lexemes := by
  induction lexemes generalizing p with
  | nil => simp [TokenStream.lineUp]
  | cons s lexemes ih =>
    rw [List.forall_mem_cons] at hlex
    have hfound : Token.found p s.toList = ⟨.ofLexeme s, s, ⟨p.offset, p.offset + s.utf8ByteSize⟩,
        ⟨1, p.column⟩⟩ := by
      rw [Token.found, hlex.1.past_eq, String.ofList_toList, Cursor.position, hline]
    cases lexemes with
    | nil =>
      have hend : AtGap [] := by simp [AtGap]
      have hscan := hlex.1.scanFrom_append hend p
      rw [List.append_nil, scanFrom_nil, hfound] at hscan
      simpa [TokenStream.lineUp] using hscan
    | cons next lexemes =>
      have hspace : Text.isLayout ' ' = true := by decide
      -- the space ends the lexeme, and the next one begins behind it
      have hgap : AtGap (' ' :: (" ".intercalate (next :: lexemes)).toList) := by
        intro c hc
        cases hc
        exact hspace
      have hchars : (" ".intercalate (s :: next :: lexemes)).toList =
          s.toList ++ ' ' :: (" ".intercalate (next :: lexemes)).toList := by
        rw [String.intercalate_cons_cons]
        simp
      have hstep : (p.past s.toList).step ' ' =
          ⟨p.offset + s.utf8ByteSize + 1, 1, p.column + s.length + 1⟩ := by
        rw [hlex.1.past_eq, hline]
        rfl
      rw [hchars, hlex.1.scanFrom_append hgap, hfound, scanFrom_layout hspace, hstep,
        ih hlex.2 rfl]
      rfl

/-- No token that is lined up goes beyond the end of the line. -/
theorem TokenStream.column_le_of_mem_lineUp {offset column : Nat} {t : Token}
    (ht : t ∈ lineUp offset column lexemes) :
    t.position.line = 1 ∧
      t.position.column + t.text.length ≤ column + (" ".intercalate lexemes).length := by
  induction lexemes generalizing offset column with
  | nil => cases ht
  | cons s lexemes ih =>
    cases lexemes with
    | nil =>
      obtain rfl := List.mem_singleton.1 ht
      simp
    | cons next lexemes =>
      have hlength := length_intercalate_cons_cons s next lexemes
      rcases List.mem_cons.1 ht with rfl | ht
      · refine ⟨rfl, Nat.add_le_add_left ?_ column⟩
        show s.length ≤ _
        omega
      · -- a later token, with the space before it counted in
        rcases ih ht with ⟨hline, hcolumn⟩
        refine ⟨hline, ?_⟩
        omega

theorem TokenStream.map_text_lineUp (offset column : Nat) (lexemes : List String) :
    (lineUp offset column lexemes).map Token.text = lexemes := by
  induction lexemes generalizing offset column with
  | nil => rfl
  | cons s lexemes ih => rw [lineUp, List.map_cons, ih]

end

/-- Lexemes are lined up as they are scanned, with the same kinds, texts, spans and positions, just
when each of them stands alone. They are then all on the first line, and no column is greater than
the line is long; and to analyse them is to parse the line. -/
theorem ofLexemes_eq_ofSource_iff (lexemes : List String) :
    (TokenStream.ofLexemes lexemes = .ofSource (" ".intercalate lexemes) ↔
        ∀ s ∈ lexemes, StandsAlone s) ∧
      ((∀ s ∈ lexemes, StandsAlone s) →
        (∀ t ∈ (TokenStream.ofLexemes lexemes).remaining,
          t.position.line = 1 ∧ t.position.column ≤ (" ".intercalate lexemes).length) ∧
        ∀ title,
          let session := (⟨.ofLexemes lexemes, Recorder.new⟩ : Session Recorder).analyze title
          let p := parseTitled title (" ".intercalate lexemes)
          session.1.builder.events = p.events ∧ session.2.1 = p.error) := by
  have hsame : (∀ s ∈ lexemes, StandsAlone s) →
      TokenStream.ofLexemes lexemes = .ofSource (" ".intercalate lexemes) := by
    intro halone
    have hlex : ∀ s ∈ lexemes, IsLexeme s.toList := fun s hs => standsAlone_iff.1 (halone s hs)
    exact congrArg TokenStream.ofTokens (scanFrom_intercalate hlex (p := .start) rfl).symm
  refine ⟨⟨?_, hsame⟩, ?_⟩
  · intro hstreams s hs
    have htokens : TokenStream.lineUp 0 1 lexemes = scan (" ".intercalate lexemes) :=
      congrArg TokenStream.remaining hstreams
    rw [← TokenStream.map_text_lineUp 0 1 lexemes, htokens] at hs
    rcases List.mem_map.1 hs with ⟨t, ht, rfl⟩
    exact standsAlone_iff.2 (isLexeme_of_mem_scan ht).1
  · intro halone
    constructor
    · intro t ht
      rcases TokenStream.column_le_of_mem_lineUp ht with ⟨hline, hend⟩
      -- the token has at least one character, which is still on the line
      have hne : t.text.length ≠ 0 := by
        rw [hsame halone] at ht
        have hlexeme := (isLexeme_of_mem_scan ht).1
        intro hzero
        rw [← String.length_toList, List.length_eq_zero_iff] at hzero
        rw [hzero] at hlexeme
        exact hlexeme
      exact ⟨hline, by omega⟩
    · intro title session p
      have hsession : session = Session.analyze title
          ⟨.ofSource (" ".intercalate lexemes), Recorder.new⟩ := by
        rw [← hsame halone]
      rw [hsession]
      exact ⟨rfl, rfl⟩

/-- What would be one relation stands apart, and the mark does not go to the character before it. -/
theorem ofLexemes_eq_ofSource_apart :
    let lexemes := ["é", "!", "=", "1.2.3", "\u0301"]
    (∀ s ∈ lexemes, StandsAlone s) ∧
      TokenStream.ofLexemes lexemes = .ofSource "é ! = 1.2.3 \u0301" ∧
      ∀ t ∈ scan "é ! = 1.2.3 \u0301", t.position.line = 1 ∧ t.position.column ≤ 13 := by
  intro lexemes
  have hlex : ∀ s ∈ lexemes, IsLexeme s.toList := by decide +kernel
  have halone : ∀ s ∈ lexemes, StandsAlone s := fun s hs => standsAlone_iff.2 (hlex s hs)
  have hline : " ".intercalate lexemes = "é ! = 1.2.3 \u0301" := by decide
  have hlength : "é ! = 1.2.3 \u0301".length = 13 := by decide
  rcases ofLexemes_eq_ofSource_iff lexemes with ⟨hsame, hplaces⟩
  have hstreams := hsame.2 halone
  have hwithin := (hplaces halone).1
  rw [hstreams, hline, hlength] at hwithin
  rw [hline] at hstreams
  exact ⟨halone, hstreams, hwithin⟩

end WhileSyntax
