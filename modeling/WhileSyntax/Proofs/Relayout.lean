import WhileSyntax.Proofs.Lockstep
import WhileSyntax.Proofs.Recording
import WhileSyntax.Proofs.Tiling
namespace WhileSyntax

/-! # Sources that differ in their layout

A token's text is one lexeme when it stands alone, whatever stood behind it (`isLexeme_of_reach`).
So a source can be written anew from the texts of its tokens, with any layout, and is scanned into
the same leaves; and an analysis sees no more of a source than that.
-/

/-- What a lexeme reached over is one lexeme without the characters behind it. -/
theorem isLexeme_of_reach {c : Char} {cs behind : List Char} (hc : Text.isLayout c = false)
    (hreach : lexemeReach c (cs ++ behind) = cs.length) : IsLexeme (c :: cs) := by
  have htake := lexemeReach_take c (cs ++ behind)
  rw [hreach, List.take_left] at htake
  exact ⟨hc, htake⟩

/-- The text of a token is scanned into that token again, when it stands alone. -/
theorem isLexeme_of_mem_scan {source : String} {t : Token} (ht : t ∈ scan source) :
    IsLexeme t.text.toList ∧ t.leaf = .ofLexeme t.text := by
  obtain ⟨before, c, lexeme, behind, -, hc, hreach, rfl⟩ := (tiles_scan source).exists_of_mem ht
  constructor
  · rw [Token.found, String.toList_ofList]
    exact isLexeme_of_reach hc hreach
  · rw [Token.leaf, Leaf.ofLexeme, kind_found]

/-- A source that is written anew from its tokens holds the same leaves. -/
theorem map_leaf_scan_of_writes {source other : String}
    (h : Writes ((scan source).map Token.text) other) :
    (scan other).map Token.leaf = (scan source).map Token.leaf := by
  have hlexemes : ∀ s ∈ (scan source).map Token.text, IsLexeme s.toList := by
    intro s hs
    obtain ⟨t, ht, rfl⟩ := List.mem_map.1 hs
    exact (isLexeme_of_mem_scan ht).1
  rw [h.map_leaf_scan hlexemes, List.map_map]
  exact List.map_congr_left fun t ht => (isLexeme_of_mem_scan ht).2.symm

/-- Layout is not seen by an analysis: a source that is written anew from its tokens, with any
layout between neighbours and at the ends, has tokens of the same kinds and texts, is parsed with
the same events, and with the same error but for its position. -/
theorem parse_relayout (title : String) {source other : String}
    (h : Writes ((scan source).map Token.text) other) :
    (scan other).map Token.leaf = (scan source).map Token.leaf ∧
      (parseTitled title other).events = (parseTitled title source).events ∧
      (parseTitled title other).error.map Diagnosis.unplaced =
        (parseTitled title source).error.map Diagnosis.unplaced := by
  have hleaves := map_leaf_scan_of_writes h
  -- nothing but the places of the tokens differs
  have halike : (TokenStream.ofSource other).Alike (.ofSource source) := hleaves
  obtain ⟨hcalls, herror, -⟩ := analyze_alike title ⟨0⟩ halike
  refine ⟨hleaves, ?_, ?_⟩
  · rw [parseTitled_events, parseTitled_events, traceOf, traceOf, hcalls]
  · rw [parseTitled_error, parseTitled_error]
    exact herror

/-- A broken number and a lone exclamation mark that stand together, and the same texts apart. The
error moves with the token that it is about. -/
theorem parse_relayout_apart :
    Writes ((scan "x:=1.!").map Token.text) "\nx :=\t1\n. \r!\x0c" ∧
      (parseTitled "T" "x:=1.!").error = some ⟨.assign, "!", ⟨13⟩, some ⟨1, 6⟩⟩ ∧
      (parseTitled "T" "\nx :=\t1\n. \r!\x0c").error = some ⟨.assign, "!", ⟨13⟩, some ⟨3, 4⟩⟩ ∧
      (parseTitled "T" "\nx :=\t1\n. \r!\x0c").events = (parseTitled "T" "x:=1.!").events := by
  -- `:=` is one lexeme, but `1.` is two, and `!` stands alone
  have htexts : (scan "x:=1.!").map Token.text = ["x", ":=", "1", ".", "!"] := by decide +kernel
  have hwrites : Writes ((scan "x:=1.!").map Token.text) "\nx :=\t1\n. \r!\x0c" := by
    rw [htexts]
    have hgaps : ∀ gap ∈ [[' ', '\r'], ['\n'], ['\t'], [' ']], IsGap gap := by decide
    simp only [List.forall_mem_cons, List.not_mem_nil, false_imp_iff, implies_true,
      and_true] at hgaps
    obtain ⟨hreturn, hline, htab, hspace⟩ := hgaps
    have hmark : Spaced ["!"] ("!".toList ++ ['\x0c']) := .last "!" (by decide)
    have hpoint := Spaced.more "." hreturn (by decide) hmark
    have hone := Spaced.more "1" hline (by decide) hpoint
    have hassign := Spaced.more ":=" htab (by decide) hone
    have hx := Spaced.more "x" hspace (by decide) hassign
    exact ⟨['\n'], _, rfl, by decide, hx⟩
  obtain ⟨-, hevents, -⟩ := parse_relayout "T" hwrites
  refine ⟨hwrites, ?_, ?_, hevents⟩
  · rw [parseTitled_error, analyze_error]
    exact Analysis.run_error_of_endsWithin (n := 40) (by decide +kernel)
  · rw [parseTitled_error, analyze_error]
    exact Analysis.run_error_of_endsWithin (n := 40) (by decide +kernel)

end WhileSyntax
