import WhileSyntax.Proofs.Consumption
import WhileSyntax.Proofs.Joining
import WhileSyntax.Proofs.Lockstep
import WhileSyntax.Proofs.Reading
namespace WhileSyntax

/-! # Behind an accepted source

When an analysis has derived the statements of a source and no operator comes next, it is left with
what it had to derive at the front: statements, and then the end of the stream
(`exists_run_statements`). Only its handles and the place in the stream are others. So what comes
behind is analysed as it would be alone (`Analysis.run_abreast`), and what is wrong with it is
reported further down.
-/

/-! ## Two analyses abreast -/

namespace TokenStream.Alike

variable {s t : TokenStream}

theorem skip (h : s.Alike t) (n : Nat) : (s.skip n).Alike (t.skip n) := by
  unfold Alike at h ⊢
  rw [remaining_skip, remaining_skip, List.map_drop, List.map_drop, h]

end TokenStream.Alike

namespace Analysis

variable {s t u v : Analysis} {p q : Handle} {urest vrest : List Goal}

/-- Two analyses that have read equally many tokens since they were `s` and `t`, and have the same
symbols to derive. -/
def Abreast (s t u v : Analysis) : Prop :=
  ∃ n, u.stream = s.stream.skip n ∧ v.stream = t.stream.skip n ∧ u.symbols = v.symbols

namespace Abreast

theorem symbols_eq (h : Abreast s t u v) : u.symbols = v.symbols := by
  rcases h with ⟨n, -, -, hsame⟩
  exact hsame

theorem kind_eq (hstream : s.stream.Alike t.stream) (h : Abreast s t u v) :
    u.stream.kind = v.stream.kind := by
  rcases h with ⟨n, hu, hv, -⟩
  rw [hu, hv]
  exact (hstream.skip n).kind_eq

theorem consume {k : TokenKind} (hu : u.goals = ⟨p, .terminal k⟩ :: urest)
    (hv : v.goals = ⟨q, .terminal k⟩ :: vrest) (h : Abreast s t u v) :
    Abreast s t (u.consume p k urest) (v.consume q k vrest) := by
  rcases h with ⟨n, hus, hvs, hsame⟩
  rw [symbols_of_goals hu, symbols_of_goals hv] at hsame
  refine ⟨n + 1, ?_, ?_, (List.cons.inj hsame).2⟩
  · rw [TokenStream.skip_succ, ← hus]
    rfl
  · rw [TokenStream.skip_succ, ← hvs]
    rfl

theorem expand {r : Rule} (hstream : s.stream.Alike t.stream)
    (hu : u.goals = ⟨p, .rule r⟩ :: urest) (hv : v.goals = ⟨q, .rule r⟩ :: vrest)
    (h : Abreast s t u v) : Abreast s t (u.expand p r urest) (v.expand q r vrest) := by
  have hkind := h.kind_eq hstream
  rcases h with ⟨n, hus, hvs, hsame⟩
  rw [symbols_of_goals hu, symbols_of_goals hv] at hsame
  refine ⟨n, ?_, ?_, ?_⟩
  · rw [stream_expand, hus]
  · rw [stream_expand, hvs]
  · rw [symbols_expand, symbols_expand, hkind, (List.cons.inj hsame).2]

end Abreast

/-- Two analyses that have the same symbols to derive, over streams with the same leaves, both fail
or both succeed. They fail at the same token of their streams, and for the same reason. -/
theorem run_abreast (hstream : s.stream.Alike t.stream) (hsymbols : s.symbols = t.symbols) :
    s.run.2.isSome = t.run.2.isSome ∧ ∃ n, ∀ e f, s.run.2 = some e → t.run.2 = some f →
      e.expected = f.expected ∧ e.found = f.found ∧
        e.position = (s.stream.skip n).position? ∧ f.position = (t.stream.skip n).position? := by
  -- they stay abreast to the last state, where either both fail or neither does
  have hpair : Abreast s t s.run.1 t.run.1 ∧ s.run.2.isSome = t.run.2.isSome := by
    refine run_pair_induction ?_ ?_ ?_ ?_ ⟨0, rfl, rfl, hsymbols⟩
    · intro u v h
      exact h.symbols_eq
    · intro u v h
      exact h.kind_eq hstream
    · intro u v p q k urest vrest hu hv h
      exact h.consume hu hv
    · intro u v p q r urest vrest hu hv h
      exact h.expand hstream hu hv
  rcases hpair with ⟨⟨n, hs, ht, hsame⟩, hsome⟩
  refine ⟨hsome, n, ?_⟩
  intro e f he hf
  -- both fail at the first goal of the last state
  rcases goals_of_run_eq_some he with ⟨p, k, srest, hsgoals, -, rfl⟩
  rcases goals_of_run_eq_some hf with ⟨q, j, trest, htgoals, -, rfl⟩
  rw [symbols_of_goals hsgoals, symbols_of_goals htgoals] at hsame
  cases (List.cons.inj hsame).1
  refine ⟨rfl, ?_, congrArg TokenStream.position? hs, congrArg TokenStream.position? ht⟩
  unfold mismatch
  rw [hs, ht]
  exact (hstream.skip n).lexeme_eq

end Analysis

/-! ## Behind statements -/

/-- A statement is over where another one begins. -/
theorem endsAt_of_beginsAll : ∀ k, beginsAll [.rule .stmtList] k →
    (Symbol.rule .stmt).endsAt k := by
  decide

/-- What begins a statement predicts one. -/
theorem predict_of_beginsAll : ∀ k, beginsAll [.rule .stmt] k →
    Rule.predict .stmtList k = moreStatements := by
  decide

/-- A stream that shows leaves of some symbols begins with what begins the symbols. -/
theorem Yields.beginsAll_kind {xs : List Symbol} {ls : List Leaf} (h : Yields xs ls) (hls : ls ≠ [])
    {stream : TokenStream} (hread : stream.upcoming ls.length = ls) : beginsAll xs stream.kind := by
  rcases h with ⟨d, rfl⟩
  cases hd : d.leaves with
  | nil => exact absurd hd hls
  | cons l ls =>
    rw [hd] at hread
    have hkind : stream.kind = l.kind := congrArg Leaf.kind (List.cons.inj hread).1
    rw [hkind]
    exact d.begins_of_head? (by rw [hd]; rfl)

/-- Statements are none, or a first one and others. -/
theorem Yields.statements_cases {ls : List Leaf} (h : Yields [.rule .stmtList] ls) :
    ls = [] ∨ ∃ us vs, ls = us ++ vs ∧ us ≠ [] ∧ Yields [.rule .stmt] us ∧
      Yields [.rule .stmtList] vs := by
  rcases rule_cons_iff.1 h with ⟨rhs, hr, ms, ns, rfl, hms, hns⟩
  obtain rfl := nil_iff.1 hns
  rw [List.append_nil]
  -- of the two productions, the empty one is for the end of the list
  rcases List.mem_cons.1 hr with rfl | hr
  · have hms : Yields ([.rule .stmt] ++ [.rule .stmtList]) ms := hms
    rcases append_iff.1 hms with ⟨us, vs, rfl, hus, hvs⟩
    refine .inr ⟨us, vs, rfl, ?_, hus, hvs⟩
    rintro rfl
    rcases hus with ⟨d, hd⟩
    exact absurd (d.nullable_of_leaves_eq_nil hd) (by decide)
  · obtain rfl := List.mem_singleton.1 hr
    exact .inl (nil_iff.1 hms)

/-- Statements that a stream shows are derived one by one. If what comes behind them does not
continue the last one, statements are then to be derived again. -/
theorem exists_run_statements {ls : List Leaf} (h : Yields [.rule .stmtList] ls)
    {stream : TokenStream} (hread : stream.upcoming ls.length = ls)
    (hends : (Symbol.rule .stmt).endsAt (stream.skip ls.length).kind) (n : Nat) (p : Handle)
    (rest : List Goal) (trace : List Action) :
    ∃ m q more, Analysis.run ⟨stream, n, ⟨p, .rule .stmtList⟩ :: rest, trace⟩ =
      Analysis.run ⟨stream.skip ls.length, m, ⟨q, .rule .stmtList⟩ :: rest, more⟩ := by
  induction hlength : ls.length using Nat.strongRecOn generalizing ls stream n p trace with
  | ind length ih =>
    subst hlength
    rcases h.statements_cases with rfl | ⟨us, vs, rfl, hne, ⟨d, rfl⟩, hvs⟩
    · exact ⟨n, p, trace, rfl⟩
    rw [List.length_append, TokenStream.upcoming_add] at hread
    rw [List.length_append, TokenStream.skip_add] at hends ⊢
    rcases List.append_inj hread (by simp) with ⟨hreadu, hreadv⟩
    -- the first token begins a statement
    have hpredict := predict_of_beginsAll _ (Yields.beginsAll_kind ⟨d, rfl⟩ hne hreadu)
    -- and the token behind the statement ends it
    have hbehind : endsAllAt [.rule .stmt] (stream.skip d.leaves.length).kind := by
      have hstmt : (Symbol.rule .stmt).endsAt (stream.skip d.leaves.length).kind := by
        by_cases hnil : vs = []
        · rw [hnil] at hends
          exact hends
        · exact endsAt_of_beginsAll _ (hvs.beginsAll_kind hnil hreadv)
      simp [endsAllAt, hstmt]
    have hrun : Analysis.run ⟨stream, n + 1, ⟨⟨n⟩, .rule .stmt⟩ :: ⟨⟨n⟩, .rule .stmtList⟩ :: rest,
        .call (.node p (.rule .stmtList)) :: trace⟩ = _ :=
      d.run_eq hreadu (by decide) hbehind
    have hshorter : vs.length < (d.leaves ++ vs).length := by
      rw [List.length_append]
      exact Nat.lt_add_of_pos_left (List.length_pos_iff.2 hne)
    rcases ih _ hshorter hvs hreadv hends _ _ _ rfl with ⟨m, q, more, hmore⟩
    refine ⟨m, q, more, ?_⟩
    rw [Analysis.run_rule hpredict]
    exact hrun.trans hmore

/-- Behind tokens that make up statements, and with nothing that continues the last one, an analysis
goes as it would over what comes behind alone: it fails if that does, at the same token and for the
same reason. -/
theorem analyze_behind_statements {ts us vs : List Token}
    (hts : Yields [.rule .stmtList] (ts.map Token.leaf))
    (hus : us.map Token.leaf = vs.map Token.leaf)
    (hends : (Symbol.rule .stmt).endsAt (TokenStream.ofTokens us).kind) (title : String)
    (first : Handle) :
    (analyze title first (.ofTokens (ts ++ us))).error.isSome =
        (analyze title first (.ofTokens vs)).error.isSome ∧
      ∃ n, ∀ e f, (analyze title first (.ofTokens (ts ++ us))).error = some e →
        (analyze title first (.ofTokens vs)).error = some f →
        e.expected = f.expected ∧ e.found = f.found ∧
          e.position = (TokenStream.ofTokens (us.drop n)).position? ∧
          f.position = (TokenStream.ofTokens (vs.drop n)).position? := by
  have hbehind : (TokenStream.ofTokens (ts ++ us)).skip (ts.map Token.leaf).length =
      .ofTokens us := by
    rw [TokenStream.skip_ofTokens, List.length_map, List.drop_left]
  have hread : (TokenStream.ofTokens (ts ++ us)).upcoming (ts.map Token.leaf).length =
      ts.map Token.leaf := by
    have hremaining : (TokenStream.ofTokens (ts ++ us)).remaining = ts ++ us := rfl
    rw [TokenStream.upcoming_eq, hremaining, List.length_map, List.take_left, List.length_append,
      Nat.sub_eq_zero_of_le (Nat.le_add_right ..), List.replicate_zero, List.append_nil]
  rw [← hbehind] at hends
  -- both analyses begin with the statements and the end of a program
  have hstart : ∀ stream : TokenStream, (Analysis.start title first stream).run =
      Analysis.run ⟨stream, first.index + 2, [⟨⟨first.index + 1⟩, .rule .stmtList⟩,
        ⟨⟨first.index + 1⟩, .terminal .endOfStream⟩], _⟩ :=
    fun stream => Analysis.run_rule rfl
  rcases exists_run_statements hts hread hends (first.index + 2) ⟨first.index + 1⟩
    [⟨⟨first.index + 1⟩, .terminal .endOfStream⟩] _ with ⟨m, q, more, hmore⟩
  rw [analyze_error, analyze_error, hstart, hstart, hmore, hbehind]
  rcases Analysis.run_abreast (s := ⟨.ofTokens us, m, [⟨q, .rule .stmtList⟩,
    ⟨⟨first.index + 1⟩, .terminal .endOfStream⟩], more⟩) (t := ⟨.ofTokens vs, first.index + 2,
      [⟨⟨first.index + 1⟩, .rule .stmtList⟩, ⟨⟨first.index + 1⟩, .terminal .endOfStream⟩], _⟩)
    hus rfl with ⟨hsome, n, herrors⟩
  refine ⟨hsome, n, ?_⟩
  rw [TokenStream.skip_ofTokens, TokenStream.skip_ofTokens] at herrors
  exact herrors

/-! ## Sources -/

/-- The tokens of an accepted source are statements, if none of them is an end of the stream. -/
theorem statements_of_accepted {source : String} (h : (parse source).error = none)
    (hend : ∀ t ∈ scan source, t.kind ≠ .endOfStream) :
    Yields [.rule .stmtList] ((scan source).map Token.leaf) := by
  rcases exists_derivation_of_accepted h with ⟨d, hleaves, -⟩
  rw [TokenStream.throughEnd_eq_append hend] at hleaves
  rcases derives_program_iff.1 (derives_iff_yields.2 ⟨d, hleaves⟩) with ⟨w, hw, hlist⟩
  rw [List.map_append, List.map_singleton] at hw
  rw [← List.append_cancel_right hw] at hlist
  exact derives_iff_yields.1 hlist

namespace TokenStream

theorem position?_down (bytes lines : Nat) (ts : List Token) :
    (ofTokens (ts.map (Token.down bytes lines))).position? =
      (ofTokens ts).position?.map (Position.down lines) := by
  cases ts <;> rfl

theorem throughEnd_append {ts : List Token} (hts : ∀ t ∈ ts, t.kind ≠ .endOfStream)
    (us : List Token) : throughEnd (ts ++ us) = ts.map Token.leaf ++ throughEnd us := by
  induction ts with
  | nil => rfl
  | cons t ts ih =>
    rw [List.forall_mem_cons] at hts
    rw [List.cons_append, throughEnd, if_neg hts.1, ih hts.2, List.map_cons, List.cons_append]

theorem throughEnd_down (bytes lines : Nat) (ts : List Token) :
    throughEnd (ts.map (Token.down bytes lines)) = throughEnd ts := by
  induction ts with
  | nil => rfl
  | cons t ts ih =>
    rw [List.map_cons, throughEnd, throughEnd, ih]
    rfl

end TokenStream

/-- An accepted source above another one does not change what is wrong with that, as long as there
is no end of the stream in it and no operator comes next: the two together fail just when the lower
one does, for the same reason and at the same place, which is now further down. If they do not fail,
the lexemes of the lower one come behind those of the upper one, but for the end of that. -/
theorem parse_below_accepted {above below : String} (habove : (parse above).error = none)
    (hend : ∀ t ∈ scan above, t.kind ≠ .endOfStream)
    (hfirst : ∀ t, (scan below).head? = some t → t.kind ≠ .addOp ∧ t.kind ≠ .multOp) :
    let whole := parse (above ++ "\n" ++ below)
    (whole.error.isSome ↔ (parse below).error.isSome) ∧
      (∀ e f, whole.error = some e → (parse below).error = some f →
        e.expected = f.expected ∧ e.found = f.found ∧
          e.position = f.position.map (Position.down (1 + above.toList.count '\n'))) ∧
      (whole.error = none → (parse below).error = none → whole.tree.lexemes =
        (parse above).tree.lexemes.dropLast ++ (parse below).tree.lexemes) := by
  intro whole
  -- where the lower tokens stand does not matter to an analysis, so it is generalized
  have hscan := scan_below above below
  generalize above.utf8ByteSize + 1 = bytes at hscan
  generalize 1 + above.toList.count '\n' = lines at hscan ⊢
  have hleaves : ((scan below).map (Token.down bytes lines)).map Token.leaf =
      (scan below).map Token.leaf := by
    rw [List.map_map]
    rfl
  -- the last statement above is not continued by what is below
  have hends : (Symbol.rule .stmt).endsAt
      (TokenStream.ofTokens ((scan below).map (Token.down bytes lines))).kind := by
    cases hbelow : scan below with
    | nil => rfl
    | cons t ts =>
      have hoperator := hfirst t (by rw [hbelow]; rfl)
      have hkind : (TokenStream.ofTokens ((t :: ts).map (Token.down bytes lines))).kind =
          t.kind := rfl
      rw [hkind]
      simp [Symbol.endsAt, hoperator]
  rcases analyze_behind_statements (statements_of_accepted habove hend) hleaves hends defaultTitle
    ⟨0⟩ with ⟨hsome, n, herrors⟩
  rw [← hscan] at hsome herrors
  refine ⟨?_, ?_, ?_⟩
  · rw [show whole.error.isSome = _ from hsome]
    rfl
  · intro e f he hf
    rcases herrors e f he hf with ⟨hexpected, hfound, heplace, hfplace⟩
    refine ⟨hexpected, hfound, ?_⟩
    rw [heplace, hfplace, ← List.map_drop, TokenStream.position?_down]
  · -- the lexemes of both parts, without the mark of the end that is above
    intro hwhole hbelow
    rw [lexemes_eq_of_accepted hwhole, lexemes_eq_of_accepted habove, lexemes_eq_of_accepted hbelow,
      hscan, TokenStream.throughEnd_append hend, TokenStream.throughEnd_down,
      TokenStream.throughEnd_eq_append hend]
    simp

/-- The expression of the upper source is over where the lower one begins. The error is now in the
third line. -/
theorem parse_below_accepted_readOne :
    (parse "x := 1\n").error = none ∧ (∀ t ∈ scan "x := 1\n", t.kind ≠ .endOfStream) ∧
      (∀ t, (scan "read 1").head? = some t → t.kind ≠ .addOp ∧ t.kind ≠ .multOp) ∧
      ∃ e, (parse ("x := 1\n" ++ "\n" ++ "read 1")).error = some e ∧
        e.expected = .identifier ∧ e.found = "1" ∧ e.position = some ⟨3, 6⟩ := by
  have habove : (parse "x := 1\n").error = none := by
    rw [parse, parseTitled_error, analyze_error]
    exact Analysis.run_error_of_endsWithin (n := 20) (by decide +kernel)
  have hbelow : (parse "read 1").error = some ⟨.identifier, "1", ⟨3⟩, some ⟨1, 6⟩⟩ := by
    rw [parse, parseTitled_error, analyze_error]
    exact Analysis.run_error_of_endsWithin (n := 20) (by decide +kernel)
  have hend : ∀ t ∈ scan "x := 1\n", t.kind ≠ .endOfStream := by decide +kernel
  have hfirst : ∀ t, (scan "read 1").head? = some t → t.kind ≠ .addOp ∧ t.kind ≠ .multOp := by
    intro t ht
    have hread : (scan "read 1").head?.map Token.kind = some .readWord := by decide +kernel
    rw [ht] at hread
    have hkind : t.kind = .readWord := Option.some.inj hread
    rw [hkind]
    decide
  rcases parse_below_accepted habove hend hfirst with ⟨hsome, herrors, -⟩
  rcases Option.isSome_iff_exists.1 (hsome.2 (by rw [hbelow]; rfl)) with ⟨e, he⟩
  exact ⟨habove, hend, hfirst, e, he, herrors e _ he hbelow⟩

end WhileSyntax
