import WhileSyntax.Analysis
namespace WhileSyntax

/-! # Runs of an analysis

A run takes steps until no goal is left or the first one fails. What every step preserves holds
where the run ends (`run_induction`), and the state there says how it ended. Two runs that derive
the same symbols and see the same kinds of tokens go step by step together (`run_pair_induction`).
-/

namespace Analysis

variable {s t : Analysis} {e : Diagnosis} {parent : Handle} {rest : List Goal}

/-! ## Steps -/

/-- Everything that a step can do. -/
theorem step_cases (s : Analysis) :
    (s.goals = [] ∧ s.step = .succeeds) ∨
    (∃ parent k rest, s.goals = ⟨parent, .terminal k⟩ :: rest ∧ s.stream.kind = k ∧
      s.step = .continues (s.consume parent k rest)) ∨
    (∃ parent k rest, s.goals = ⟨parent, .terminal k⟩ :: rest ∧ s.stream.kind ≠ k ∧
      s.step = .fails (s.mismatch parent k)) ∨
    (∃ parent r rest, s.goals = ⟨parent, .rule r⟩ :: rest ∧
      s.step = .continues (s.expand parent r rest)) := by
  rcases hg : s.goals with _ | ⟨⟨parent, k | r⟩, rest⟩
  · exact .inl ⟨rfl, by simp [step, hg]⟩
  · by_cases hk : s.stream.kind = k
    · exact .inr (.inl ⟨parent, k, rest, rfl, hk, by simp [step, hg, hk]⟩)
    · exact .inr (.inr (.inl ⟨parent, k, rest, rfl, hk, by simp [step, hg, hk]⟩))
  · exact .inr (.inr (.inr ⟨parent, r, rest, rfl, by simp [step, hg]⟩))

/-- The mark of an empty production at a node; other productions leave none. -/
def emptyMark (node : Handle) (rhs : List Symbol) : List Action :=
  if rhs = [] then [.call (.empty node)] else []

@[simp] theorem reverse_emptyMark (node : Handle) (rhs : List Symbol) :
    (emptyMark node rhs).reverse = emptyMark node rhs := by
  by_cases h : rhs = [] <;> simp [emptyMark, h]

/-- What an expansion leaves, when it is known what is predicted. -/
theorem expand_eq {r : Rule} {rhs : List Symbol} (h : r.predict s.stream.kind = rhs) :
    s.expand parent r rest =
      ⟨s.stream, s.next + 1, rhs.map (⟨⟨s.next⟩, ·⟩) ++ rest,
        emptyMark ⟨s.next⟩ rhs ++ .call (.node parent (.rule r)) :: s.trace⟩ := by
  subst h
  unfold expand emptyMark
  split
  · next heq => simp [heq]
  · next hne => rw [if_neg hne, List.nil_append]

/-! ## Runs step by step -/

theorem run_of_continues (h : s.step = .continues t) : s.run = t.run := by
  rw [run]
  split
  · next heq => rw [h] at heq; injection heq with heq; rw [heq]
  · next heq => simp [h] at heq
  · next heq => simp [h] at heq

theorem run_of_succeeds (h : s.step = .succeeds) : s.run = (s, none) := by
  rw [run]
  split
  · next heq => simp [h] at heq
  · rfl
  · next heq => simp [h] at heq

theorem run_of_fails (h : s.step = .fails e) : s.run = (s, some e) := by
  rw [run]
  split
  · next heq => simp [h] at heq
  · next heq => simp [h] at heq
  · next heq => rw [h] at heq; injection heq with heq; rw [heq]

/-- Without goals a run is over. -/
theorem run_nil {stream : TokenStream} {n : Nat} {trace : List Action} :
    run ⟨stream, n, [], trace⟩ = (⟨stream, n, [], trace⟩, none) :=
  run_of_succeeds rfl

/-- A terminal that the current token matches is consumed. -/
theorem run_terminal {stream : TokenStream} {n : Nat} {trace : List Action} {k : TokenKind}
    (hk : stream.kind = k) :
    run ⟨stream, n, ⟨parent, .terminal k⟩ :: rest, trace⟩ =
      run ⟨stream.advance, n + 1, rest, .call (.leaf ⟨n⟩ stream.lexeme) ::
        .note (consumption k stream.lexeme) :: .call (.node parent (.terminal k)) :: trace⟩ :=
  run_of_continues (by simp [step, consume, hk])

/-- A rule is replaced by what is predicted for it. -/
theorem run_rule {stream : TokenStream} {n : Nat} {trace : List Action} {r : Rule}
    {rhs : List Symbol} (h : r.predict stream.kind = rhs) :
    run ⟨stream, n, ⟨parent, .rule r⟩ :: rest, trace⟩ =
      run ⟨stream, n + 1, rhs.map (⟨⟨n⟩, ·⟩) ++ rest,
        emptyMark ⟨n⟩ rhs ++ .call (.node parent (.rule r)) :: trace⟩ :=
  run_of_continues (congrArg Progress.continues (expand_eq h))

/-! ## Where a run ends -/

/-- What consuming a token and expanding a rule both preserve holds where a run ends. -/
theorem run_induction {P : Analysis → Prop}
    (hconsume : ∀ s parent k rest, s.goals = ⟨parent, .terminal k⟩ :: rest →
      s.stream.kind = k → P s → P (s.consume parent k rest))
    (hexpand : ∀ s parent r rest, s.goals = ⟨parent, .rule r⟩ :: rest →
      P s → P (s.expand parent r rest))
    (hs : P s) : P s.run.1 := by
  fun_induction run s with
  | case1 s t hstep ih =>
    apply ih
    rcases s.step_cases with
      ⟨_, h⟩ | ⟨parent, k, rest, hg, hk, h⟩ | ⟨_, _, _, _, _, h⟩ | ⟨parent, r, rest, hg, h⟩
    · cases hstep.symm.trans h
    · cases hstep.symm.trans h
      exact hconsume s parent k rest hg hk hs
    · cases hstep.symm.trans h
    · cases hstep.symm.trans h
      exact hexpand s parent r rest hg hs
  | case2 => exact hs
  | case3 => exact hs

/-- A run without an error ends with no goal left. -/
theorem goals_of_run_eq_none (h : s.run.2 = none) : s.run.1.goals = [] := by
  fun_induction run s with
  | case1 s t _ ih => exact ih h
  | case2 s hstep =>
    rcases s.step_cases with ⟨hg, _⟩ | ⟨_, _, _, _, _, h'⟩ | ⟨_, _, _, _, _, h'⟩ | ⟨_, _, _, _, h'⟩
    · exact hg
    all_goals cases hstep.symm.trans h'
  | case3 => cases h

/-- A run with an error ends at a terminal that the current token does not match. -/
theorem goals_of_run_eq_some (h : s.run.2 = some e) :
    ∃ parent k rest, s.run.1.goals = ⟨parent, .terminal k⟩ :: rest ∧ s.run.1.stream.kind ≠ k ∧
      e = s.run.1.mismatch parent k := by
  fun_induction run s with
  | case1 s t _ ih => exact ih h
  | case2 => cases h
  | case3 s e' hstep =>
    cases h
    rcases s.step_cases with
      ⟨_, h'⟩ | ⟨_, _, _, _, _, h'⟩ | ⟨parent, k, rest, hg, hk, h'⟩ | ⟨_, _, _, _, h'⟩
    · cases hstep.symm.trans h'
    · cases hstep.symm.trans h'
    · cases hstep.symm.trans h'
      exact ⟨parent, k, rest, hg, hk, rfl⟩
    · cases hstep.symm.trans h'

/-! ## Two runs -/

/-- Two analyses that have the same symbols to derive, and see tokens of the same kind, take the
same step. -/
theorem step_pair_cases (hsymbols : s.goals.map Goal.symbol = t.goals.map Goal.symbol)
    (hkind : s.stream.kind = t.stream.kind) :
    (s.step = .succeeds ∧ t.step = .succeeds) ∨
    (∃ p q k srest trest, s.goals = ⟨p, .terminal k⟩ :: srest ∧
      t.goals = ⟨q, .terminal k⟩ :: trest ∧ s.step = .continues (s.consume p k srest) ∧
      t.step = .continues (t.consume q k trest)) ∨
    (∃ p q k, s.step = .fails (s.mismatch p k) ∧ t.step = .fails (t.mismatch q k)) ∨
    (∃ p q r srest trest, s.goals = ⟨p, .rule r⟩ :: srest ∧ t.goals = ⟨q, .rule r⟩ :: trest ∧
      s.step = .continues (s.expand p r srest) ∧ t.step = .continues (t.expand q r trest)) := by
  rcases s.step_cases with ⟨hg, hs⟩ | ⟨p, k, srest, hg, hk, hs⟩ | ⟨p, k, srest, hg, hk, hs⟩ |
    ⟨p, r, srest, hg, hs⟩
  · rw [hg, List.map_nil, eq_comm, List.map_eq_nil_iff] at hsymbols
    exact .inl ⟨hs, by simp [step, hsymbols]⟩
  -- the first goal of the one names the symbol of the first goal of the other
  all_goals
    rw [hg, List.map_cons, eq_comm, List.map_eq_cons_iff] at hsymbols
    rcases hsymbols with ⟨⟨q, x⟩, trest, ht, hx, -⟩
    obtain rfl : x = _ := hx
  · exact .inr (.inl ⟨p, q, k, srest, trest, hg, ht, hs, by simp [step, ht, ← hkind, hk]⟩)
  · exact .inr (.inr (.inl ⟨p, q, k, hs, by simp [step, ht, ← hkind, hk]⟩))
  · exact .inr (.inr (.inr ⟨p, q, r, srest, trest, hg, ht, hs, by simp [step, ht]⟩))

/-- What two such steps preserve holds where the two runs end, and these end alike, if it keeps the
symbols and the kinds the same. -/
theorem run_pair_induction {R : Analysis → Analysis → Prop}
    (hsymbols : ∀ s t, R s t → s.goals.map Goal.symbol = t.goals.map Goal.symbol)
    (hkind : ∀ s t, R s t → s.stream.kind = t.stream.kind)
    (hconsume : ∀ s t p q k srest trest, s.goals = ⟨p, .terminal k⟩ :: srest →
      t.goals = ⟨q, .terminal k⟩ :: trest → R s t → R (s.consume p k srest) (t.consume q k trest))
    (hexpand : ∀ s t p q r srest trest, s.goals = ⟨p, .rule r⟩ :: srest →
      t.goals = ⟨q, .rule r⟩ :: trest → R s t → R (s.expand p r srest) (t.expand q r trest))
    (h : R s t) : R s.run.1 t.run.1 ∧ s.run.2.isSome = t.run.2.isSome := by
  -- whatever the first analysis does next, the second one can only do the same
  fun_induction run s generalizing t with
  | case1 s u hstep ih =>
    rcases step_pair_cases (hsymbols s t h) (hkind s t h) with ⟨hs, -⟩ |
      ⟨p, q, k, srest, trest, hsg, htg, hs, ht⟩ | ⟨_, _, _, hs, -⟩ |
      ⟨p, q, r, srest, trest, hsg, htg, hs, ht⟩
    · cases hstep.symm.trans hs
    · cases hstep.symm.trans hs
      rw [run_of_continues ht]
      exact ih (hconsume s t p q k srest trest hsg htg h)
    · cases hstep.symm.trans hs
    · cases hstep.symm.trans hs
      rw [run_of_continues ht]
      exact ih (hexpand s t p q r srest trest hsg htg h)
  | case2 s hstep =>
    rcases step_pair_cases (hsymbols s t h) (hkind s t h) with ⟨-, ht⟩ |
      ⟨_, _, _, _, _, _, _, hs, -⟩ | ⟨_, _, _, hs, -⟩ | ⟨_, _, _, _, _, _, _, hs, -⟩
    · rw [run_of_succeeds ht]
      exact ⟨h, rfl⟩
    all_goals cases hstep.symm.trans hs
  | case3 s e hstep =>
    rcases step_pair_cases (hsymbols s t h) (hkind s t h) with ⟨hs, -⟩ |
      ⟨_, _, _, _, _, _, _, hs, -⟩ | ⟨_, _, _, hs, ht⟩ | ⟨_, _, _, _, _, _, _, hs, -⟩
    · cases hstep.symm.trans hs
    · cases hstep.symm.trans hs
    · rw [run_of_fails ht]
      exact ⟨h, rfl⟩
    · cases hstep.symm.trans hs

/-! ## Short runs -/

/-- How the run ends if it is over within `n` steps. By recursion on the number of steps, a given
analysis can be run to its end by evaluation. -/
def endsWithin : Nat → Analysis → Option (Option Diagnosis)
  | 0, _ => none
  | n + 1, s =>
    match s.step with
    | .continues t => endsWithin n t
    | .succeeds => some none
    | .fails e => some (some e)

theorem run_error_of_endsWithin {n : Nat} {o : Option Diagnosis} (h : endsWithin n s = some o) :
    s.run.2 = o := by
  induction n generalizing s with
  | zero => cases h
  | succ n ih =>
    unfold endsWithin at h
    split at h
    · next t hstep => rw [run_of_continues hstep, ih h]
    · next hstep => rw [run_of_succeeds hstep]; injection h
    · next e hstep => rw [run_of_fails hstep]; injection h

end Analysis

/-! ## The parts of an outcome -/

theorem analyze_error (title : String) (first : Handle) (stream : TokenStream) :
    (analyze title first stream).error = (Analysis.start title first stream).run.2 :=
  rfl

theorem analyze_trace (title : String) (first : Handle) (stream : TokenStream) :
    (analyze title first stream).trace =
      (Analysis.start title first stream).run.1.trace.reverse ++
        match (Analysis.start title first stream).run.2 with
        | none => Analysis.closing
        | some e => Analysis.failing e :=
  rfl

end WhileSyntax
