import WhileSyntax.Proofs.Progress
namespace WhileSyntax

/-! # What an analysis accepts

An analysis accepts the token lists whose kinds, up to the first end of the stream, form a list of
statements. It fails at the first token that no program could go on with, and it says a kind with
which some program does go on.
-/

variable {title : String} {first : Handle} {stream : TokenStream} {e : Diagnosis}

/-- The tokens that an accepting analysis takes form a program. -/
theorem yields_program_of_accepted (h : (analyze title first stream).error = none) :
    ∃ n, (analyze title first stream).rest = stream.skip n ∧
      Yields [.rule .program] (stream.upcoming n) := by
  obtain ⟨n, hstands⟩ := Analysis.exists_stands_run title first stream
  rw [analyze_error] at h
  have hgoals := Analysis.goals_of_run_eq_none h
  refine ⟨n, hstands.stream, ?_⟩
  have hnil : Yields (Analysis.start title first stream).run.1.symbols [] := by
    simp [Analysis.symbols, hgoals]
  simpa using hstands.sound [] hnil

/-- Where an analysis fails, the expected kind goes on with a program and the current one does
not. -/
theorem beginsProgram_of_failed (h : (analyze title first stream).error = some e) :
    ∃ n, (analyze title first stream).rest = stream.skip n ∧
      BeginsProgram ((stream.upcoming n).map Leaf.kind ++ [e.expected]) ∧
      ¬ BeginsProgram ((stream.upcoming n).map Leaf.kind ++ [(stream.skip n).kind]) := by
  obtain ⟨n, hstands⟩ := Analysis.exists_stands_run title first stream
  rw [analyze_error] at h
  obtain ⟨parent, k, rest, hgoals, hkind, rfl⟩ := Analysis.goals_of_run_eq_some h
  have hsymbols := Analysis.symbols_of_goals hgoals
  refine ⟨n, hstands.stream, ?_, ?_⟩
  · obtain ⟨ls, hls⟩ := exists_yields (rest.map Goal.symbol)
    have hyields := Yields.terminal_cons_iff.2 ⟨⟨k, ""⟩, ls, rfl, rfl, hls⟩
    have hprogram := hstands.sound _ (hsymbols ▸ hyields)
    have hword : Derives .program
        ((stream.upcoming n).map Leaf.kind ++ [k] ++ ls.map Leaf.kind) := by
      simpa using derives_iff_yields.2 hprogram
    exact ⟨_, hword⟩
  · rintro ⟨w, hw⟩
    -- give the kinds of the program the lexemes of the stream, then any lexemes
    have hprogram : Yields [.rule .program]
        (stream.upcoming n ++ (stream.skip n).leaf :: w.map (⟨·, ""⟩)) := by
      apply derives_iff_yields.1
      simpa [TokenStream.leaf, Function.comp_def] using hw
    have hleaf : (stream.skip n).leaf.kind = _ := congrArg TokenStream.kind hstands.stream.symm
    have hyields := hstands.complete _ _ hleaf hprogram
    rw [hsymbols] at hyields
    obtain ⟨l, ls, heq, hl, _⟩ := Yields.terminal_cons_iff.1 hyields
    obtain ⟨rfl, rfl⟩ := List.cons.inj heq
    exact hkind (hleaf.symm.trans hl)

/-- An analysis accepts a token list just when the kinds before the first end of the stream form a
list of statements. -/
theorem accepted_iff_derives (title : String) (first : Handle) (ts : List Token) :
    (analyze title first (.ofTokens ts)).error = none ↔
      Derives .stmtList ((ts.map Token.kind).takeWhile (· ≠ .endOfStream)) := by
  show _ ↔ Derives .stmtList (TokenStream.ofTokens ts).sentence
  constructor
  · intro h
    obtain ⟨n, _, hyields⟩ := yields_program_of_accepted h
    obtain ⟨w, hw, hlist⟩ := derives_program_iff.1 (derives_iff_yields.2 hyields)
    have hclosed := hlist.endOfStream_not_mem (by decide)
    exact TokenStream.eq_sentence_of_upcoming hw hclosed ▸ hlist
  · intro hlist
    -- through the token at which an error is reported, the stream still begins this program
    cases h : (analyze title first (.ofTokens ts)).error with
    | none => rfl
    | some e =>
      obtain ⟨n, _, hexpected, hblocked⟩ := beginsProgram_of_failed h
      have hopen := endOfStream_not_mem_of_beginsProgram hexpected
      obtain ⟨w, hw⟩ := TokenStream.upcoming_prefix_sentence hopen
      rw [TokenStream.upcoming_succ, List.map_append] at hw
      have hprogram : BeginsProgram _ := ⟨w, hw ▸ Derives.program hlist⟩
      exact absurd hprogram hblocked

/-- An analysis that fails has taken tokens with which some program begins, and the kind that it
expected goes on with one; the kind of the current token goes on with none. -/
theorem failed_at_first_impossible_token {title : String} {first : Handle} {ts : List Token}
    {e : Diagnosis} (h : (analyze title first (.ofTokens ts)).error = some e) :
    ∃ taken, ts = taken ++ (analyze title first (.ofTokens ts)).rest.remaining ∧
      BeginsProgram (taken.map Token.kind ++ [e.expected]) ∧
      ¬ BeginsProgram
        (taken.map Token.kind ++ [(analyze title first (.ofTokens ts)).rest.kind]) ∧
      (analyze title first (.ofTokens ts)).rest.kind ≠ e.expected := by
  obtain ⟨n, hrest, hexpected, hblocked⟩ := beginsProgram_of_failed h
  have hkinds := TokenStream.kinds_upcoming (endOfStream_not_mem_of_beginsProgram hexpected)
  -- the expected kind continues a program, and the current one does not
  have hne : ((TokenStream.ofTokens ts).skip n).kind ≠ e.expected :=
    fun heq => hblocked (heq ▸ hexpected)
  rw [hkinds] at hexpected hblocked
  rw [hrest, TokenStream.remaining_skip]
  exact ⟨ts.take n, (List.take_append_drop n ts).symm, hexpected, hblocked, hne⟩

/-- In `if x < 1 fi`, written without its `then`, the error is reported at `fi`. -/
theorem failed_at_fi :
    let ts : List Token := [⟨.ifWord, "if", ⟨0, 2⟩, ⟨1, 1⟩⟩, ⟨.identifier, "x", ⟨3, 4⟩, ⟨1, 4⟩⟩,
      ⟨.relation, "<", ⟨5, 6⟩, ⟨1, 6⟩⟩, ⟨.number, "1", ⟨7, 8⟩, ⟨1, 8⟩⟩,
      ⟨.fiWord, "fi", ⟨9, 11⟩, ⟨1, 10⟩⟩]
    let e : Diagnosis := ⟨.thenWord, "fi", ⟨3⟩, some ⟨1, 10⟩⟩
    (analyze "T" ⟨0⟩ (.ofTokens ts)).error = some e ∧
      ∃ taken, ts = taken ++ (analyze "T" ⟨0⟩ (.ofTokens ts)).rest.remaining ∧
        BeginsProgram (taken.map Token.kind ++ [e.expected]) ∧
        ¬ BeginsProgram
          (taken.map Token.kind ++ [(analyze "T" ⟨0⟩ (.ofTokens ts)).rest.kind]) ∧
        (analyze "T" ⟨0⟩ (.ofTokens ts)).rest.kind ≠ e.expected := by
  intro ts e
  have herror : (analyze "T" ⟨0⟩ (.ofTokens ts)).error = some e :=
    Analysis.run_error_of_endsWithin (n := 40) rfl
  exact ⟨herror, failed_at_first_impossible_token herror⟩

end WhileSyntax
