import WhileSyntax.Proofs.Retrace
namespace WhileSyntax

/-! # Derivations that stop

An analysis that fails has derived some symbols and stopped before a terminal. What it has done is
a derivation up to there: on the way down to the terminal each rule is half derived, and everything
to the left of that way is derived completely (`Stopped`). Every analysis goes along a derivation
or along one that stops (`analyze_cases`), so whatever holds of all trees that an analysis records
is an induction over these two.
-/

/-! ## Derivations side by side -/

namespace Derivation

variable {xs ys : List Symbol}

theorem size_append (d : Derivation xs) (e : Derivation ys) :
    (d.append e).size = d.size + e.size := by
  induction d with
  | nil => simp [append, size]
  | terminal leaf rest ih => simp [append, size, ih]; omega
  | rule r h below rest _ ih => simp [append, size, ih]; omega

theorem actions_append (d : Derivation xs) (e : Derivation ys) (p : Handle) (n : Nat) :
    (d.append e).actions p n = d.actions p n ++ e.actions p (n + d.size) := by
  induction d generalizing n with
  | nil => rfl
  | terminal leaf rest ih =>
    simp [append, actions, size, ih, Nat.add_assoc, Nat.add_comm 1]
  | rule r h below rest _ ih =>
    simp [append, actions, size, ih, Nat.add_assoc, Nat.add_comm 1]

end Derivation

/-! ## Derivations that stop -/

/-- A derivation of the symbols in the index that stops before a terminal. -/
inductive Stopped : List Symbol → Type where
  /-- It stops before one of the symbols; those to the left are derived. -/
  | before {xs done : List Symbol} (left : Derivation done) (k : TokenKind) (todo : List Symbol)
      (h : xs = done ++ .terminal k :: todo) : Stopped xs
  /-- It stops within a production of one of the symbols; those to the left are derived. -/
  | within {xs done rhs : List Symbol} (left : Derivation done) (r : Rule)
      (hr : rhs ∈ r.productions) (below : Stopped rhs) (todo : List Symbol)
      (h : xs = done ++ .rule r :: todo) : Stopped xs

namespace Stopped

variable {xs ys : List Symbol}

def leaves {xs : List Symbol} : Stopped xs → List Leaf
  | before left _ _ _ => left.leaves
  | within left _ _ below _ _ => left.leaves ++ below.leaves

/-- The number of nodes in the trees that it has begun. -/
def size {xs : List Symbol} : Stopped xs → Nat
  | before left _ _ _ => left.size
  | within left _ _ below _ _ => left.size + 1 + below.size

/-- The terminal before which it stops. -/
def expected {xs : List Symbol} : Stopped xs → TokenKind
  | before _ k _ _ => k
  | within _ _ _ below _ _ => below.expected

/-- The node under which the terminal would go, if the symbols go under `p` and handles are counted
from `n` on. -/
def site {xs : List Symbol} (p : Handle) (n : Nat) : Stopped xs → Handle
  | before .. => p
  | within left _ _ below _ _ => below.site ⟨n + left.size⟩ (n + left.size + 1)

/-- What an analysis does up to where it stops, under the node `p` and with handles from `n` on. -/
def actions {xs : List Symbol} (p : Handle) (n : Nat) : Stopped xs → List Action
  | before left _ _ _ => left.actions p n
  | within left r _ below _ _ =>
    left.actions p n ++ .call (.node p (.rule r)) ::
      below.actions ⟨n + left.size⟩ (n + left.size + 1)

/-- A derivation with one that stops to the right of it. -/
def behind (d : Derivation ys) : Stopped xs → Stopped (ys ++ xs)
  | before left k todo h => before (d.append left) k todo (by simp [h])
  | within left r hr below todo h => within (d.append left) r hr below todo (by simp [h])

/-- What stops within a production has something to stop before. -/
theorem ne_nil (d : Stopped xs) : xs ≠ [] := by
  cases d with
  | before left k todo h => simp [h]
  | within left r hr below todo h => simp [h]

/-- What stops within a rule alone stops within a production of that rule. -/
theorem exists_eq_within {r : Rule} (d : Stopped [.rule r]) :
    ∃ (rhs : List Symbol) (hr : rhs ∈ r.productions) (below : Stopped rhs),
      d = within .nil r hr below [] rfl := by
  cases d with
  -- a single goal leaves no room for a terminal beside the rule
  | @before _ done left k todo h => cases done <;> simp at h
  | @within _ done rhs left s hs below todo h =>
    cases done with
    | nil =>
      cases left
      simp only [List.nil_append, List.cons.injEq, Symbol.rule.injEq] at h
      obtain ⟨rfl, rfl⟩ := h
      exact ⟨rhs, hs, below, rfl⟩
    | cons x done => simp at h

theorem leaves_behind (d : Derivation ys) (e : Stopped xs) :
    (e.behind d).leaves = d.leaves ++ e.leaves := by
  cases e <;> simp [behind, leaves, Derivation.leaves_append]

theorem size_behind (d : Derivation ys) (e : Stopped xs) :
    (e.behind d).size = d.size + e.size := by
  cases e <;> simp [behind, size, Derivation.size_append, Nat.add_assoc]

@[simp] theorem expected_behind (d : Derivation ys) (e : Stopped xs) :
    (e.behind d).expected = e.expected := by
  cases e <;> rfl

theorem site_behind (d : Derivation ys) (e : Stopped xs) (p : Handle) (n : Nat) :
    (e.behind d).site p n = e.site p (n + d.size) := by
  cases e <;> simp [behind, site, Derivation.size_append, Nat.add_assoc]

theorem actions_behind (d : Derivation ys) (e : Stopped xs) (p : Handle) (n : Nat) :
    (e.behind d).actions p n = d.actions p n ++ e.actions p (n + d.size) := by
  cases e <;>
    simp [behind, actions, Derivation.actions_append, Derivation.size_append, Nat.add_assoc]

end Stopped

/-! ## Stretches of an analysis -/

/-- The stream begins with the tokens, and the other one is left behind them. -/
def TokenStream.Shows (s : TokenStream) (ls : List Leaf) (t : TokenStream) : Prop :=
  s.upcoming ls.length = ls ∧ s.skip ls.length = t

theorem TokenStream.Shows.append {s t u : TokenStream} {ls ms : List Leaf} (h : s.Shows ls t)
    (k : t.Shows ms u) : s.Shows (ls ++ ms) u := by
  obtain ⟨hls, rfl⟩ := h
  obtain ⟨hms, rfl⟩ := k
  refine ⟨?_, ?_⟩
  · rw [List.length_append, upcoming_add, hls, hms]
  · rw [List.length_append, skip_add]

/-- Between the two states an analysis takes the tokens, issues so many handles, and does the
actions. -/
structure Analysis.Advances (s t : Analysis) (ls : List Leaf) (size : Nat) (actions : List Action) :
    Prop where
  stream : s.stream.Shows ls t.stream
  next : t.next = s.next + size
  trace : t.trace = actions.reverse ++ s.trace

namespace Analysis

variable {s t u : Analysis}

theorem Advances.append {ls ms : List Leaf} {a b : Nat} {before after : List Action}
    (h : s.Advances t ls a before) (k : t.Advances u ms b after) :
    s.Advances u (ls ++ ms) (a + b) (before ++ after) where
  stream := h.stream.append k.stream
  next := by rw [k.next, h.next, Nat.add_assoc]
  trace := by rw [k.trace, h.trace, List.reverse_append, List.append_assoc]

theorem advances_expand (p : Handle) (rest : List Goal) {r : Rule} {rhs : List Symbol}
    (h : r.predict s.stream.kind = rhs) :
    s.Advances (s.expand p r rest) [] 1
      (.call (.node p (.rule r)) :: emptyMark ⟨s.next⟩ rhs) := by
  rw [expand_eq h]
  exact ⟨⟨rfl, rfl⟩, rfl, by simp⟩

end Analysis

/-- Between the two states an analysis goes along the derivation, under the node `p`. -/
def Derivation.Spans {xs : List Symbol} (d : Derivation xs) (p : Handle) (s t : Analysis) : Prop :=
  s.Advances t d.leaves d.size (d.actions p s.next)

/-- Between the two states an analysis goes along the derivation until it stops. -/
def Stopped.Spans {xs : List Symbol} (d : Stopped xs) (p : Handle) (s t : Analysis) : Prop :=
  s.Advances t d.leaves d.size (d.actions p s.next)

namespace Derivation

variable {xs ys rhs : List Symbol} {s t u : Analysis} {p : Handle} {rest : List Goal}

theorem spans_nil (p : Handle) (s : Analysis) : nil.Spans p s s :=
  ⟨⟨rfl, rfl⟩, rfl, rfl⟩

theorem spans_consume (p : Handle) (rest : List Goal) {k : TokenKind} (hk : s.stream.kind = k) :
    (terminal ⟨k, s.stream.lexeme⟩ nil).Spans p s (s.consume p k rest) where
  stream := by subst hk; exact ⟨rfl, rfl⟩
  next := rfl
  trace := rfl

theorem Spans.append {d : Derivation xs} {e : Derivation ys} (h : d.Spans p s t)
    (k : e.Spans p t u) : (d.append e).Spans p s u := by
  have hboth := Analysis.Advances.append h k
  rw [h.next] at hboth
  rwa [Spans, leaves_append, size_append, actions_append]

/-- Below a rule that is expanded, the analysis goes along a derivation of the production. -/
theorem spans_rule {r : Rule} (hr : rhs ∈ r.productions) (h : r.predict s.stream.kind = rhs)
    {below : Derivation rhs} (hbelow : below.Spans ⟨s.next⟩ (s.expand p r rest) t) :
    (rule r hr below nil).Spans p s t := by
  have hfirst := Analysis.advances_expand p rest h
  have hboth := hfirst.append hbelow
  rw [hfirst.next] at hboth
  simpa [Spans, leaves, size, actions, Nat.add_comm] using hboth

end Derivation

namespace Stopped

variable {xs ys rhs : List Symbol} {s t u : Analysis} {p : Handle} {rest : List Goal}

theorem Spans.behind {d : Derivation ys} {e : Stopped xs} (h : d.Spans p s t)
    (k : e.Spans p t u) : (e.behind d).Spans p s u := by
  have hboth := Analysis.Advances.append h k
  rw [h.next] at hboth
  rwa [Spans, leaves_behind, size_behind, actions_behind]

/-- Below a rule that is expanded, the analysis stops within the production. -/
theorem spans_within (xs : List Symbol) {r : Rule} (hr : rhs ∈ r.productions)
    (h : r.predict s.stream.kind = rhs) {below : Stopped rhs}
    (hbelow : below.Spans ⟨s.next⟩ (s.expand p r rest) t) :
    (within .nil r hr below xs rfl).Spans p s t := by
  have hfirst := Analysis.advances_expand p rest h
  have hboth := hfirst.append hbelow
  rw [hfirst.next] at hboth
  have hmark : Analysis.emptyMark ⟨s.next⟩ rhs = [] := if_neg below.ne_nil
  simpa [Spans, leaves, size, actions, Derivation.leaves, Derivation.size, Derivation.actions,
    hmark] using hboth

end Stopped

/-! ## Where a run stops -/

namespace Analysis

variable {s : Analysis} {p : Handle} {rest : List Goal}

/-- A run from a state whose first goals are the symbols `xs` under `p` comes to their end along a
derivation, or it fails along one that stops. -/
theorem run_cases (xs : List Symbol) (hs : s.goals = xs.map (⟨p, ·⟩) ++ rest) :
    (∃ (d : Derivation xs) (t : Analysis), d.Spans p s t ∧ t.goals = rest ∧
      t.potential ≤ s.potential ∧ s.run = t.run) ∨
    (∃ (d : Stopped xs) (t : Analysis), d.Spans p s t ∧ t.stream.kind ≠ d.expected ∧
      s.run = (t, some (t.mismatch (d.site p s.next) d.expected))) := by
  -- below a rule and again behind it the run starts from a lower potential
  induction hn : s.potential using Nat.strong_induction_on generalizing s xs p rest with
  | _ n ih =>
    subst hn
    rcases xs with _ | ⟨k | r, xs⟩
    · exact .inl ⟨.nil, s, Derivation.spans_nil p s, hs, le_rfl, rfl⟩
    · by_cases hk : s.stream.kind = k
      · have hstep : s.step = .continues (s.consume p k (xs.map (⟨p, ·⟩) ++ rest)) := by
          simp [step, hs, hk]
        have hlower := potential_step hstep
        have hfirst := Derivation.spans_consume p (xs.map (⟨p, ·⟩) ++ rest) hk
        rw [run_of_continues hstep]
        rcases ih _ hlower xs rfl rfl with ⟨d, t, hd, hgoals, hle, hrun⟩ | ⟨d, t, hd, hne, hrun⟩
        · exact .inl ⟨_, t, hfirst.append hd, hgoals, hle.trans hlower.le, hrun⟩
        · refine .inr ⟨_, t, hd.behind hfirst, by simpa using hne, ?_⟩
          rw [hrun, Stopped.site_behind, Stopped.expected_behind, hfirst.next]
      · have hstep : s.step = .fails (s.mismatch p k) := by
          simp [step, hs, hk]
        exact .inr ⟨.before .nil k xs rfl, s, Derivation.spans_nil p s, hk, run_of_fails hstep⟩
    · obtain ⟨rhs, hrhs⟩ : ∃ rhs, r.predict s.stream.kind = rhs := ⟨_, rfl⟩
      have hr : rhs ∈ r.productions := hrhs ▸ r.predict_mem_productions _
      have hstep : s.step = .continues (s.expand p r (xs.map (⟨p, ·⟩) ++ rest)) := by
        simp [step, hs]
      have hlower := potential_step hstep
      have hgoals : (s.expand p r (xs.map (⟨p, ·⟩) ++ rest)).goals =
          rhs.map (⟨⟨s.next⟩, ·⟩) ++ (xs.map (⟨p, ·⟩) ++ rest) := by
        rw [expand_eq hrhs]
      have hnext : (s.expand p r (xs.map (⟨p, ·⟩) ++ rest)).next = s.next + 1 := by
        rw [expand_eq hrhs]
      rw [run_of_continues hstep]
      rcases ih _ hlower rhs hgoals rfl with ⟨below, t, hbelow, ht, hle, hrun⟩ |
        ⟨below, t, hbelow, hne, hrun⟩
      · have hfirst := Derivation.spans_rule hr hrhs hbelow
        rw [hrun]
        rcases ih _ (hle.trans_lt hlower) xs ht rfl with ⟨d, u, hd, hgoals, hle', hrun'⟩ |
          ⟨d, u, hd, hne, hrun'⟩
        · exact .inl ⟨_, u, hfirst.append hd, hgoals, hle'.trans (hle.trans hlower.le), hrun'⟩
        · refine .inr ⟨_, u, hd.behind hfirst, by simpa using hne, ?_⟩
          rw [hrun', Stopped.site_behind, Stopped.expected_behind, hfirst.next]
      · refine .inr ⟨_, t, Stopped.spans_within xs hr hrhs hbelow, hne, ?_⟩
        rw [hrun, hnext]
        rfl

end Analysis

/-! ## Whole analyses -/

/-- The error of a stream at which a derivation of a program stops, if the root is `first`. -/
def Stopped.diagnosis {xs : List Symbol} (d : Stopped xs) (first : Handle) (stream : TokenStream) :
    Diagnosis :=
  ⟨d.expected, stream.lexeme, d.site first (first.index + 1), stream.position?⟩

/-- An analysis goes along a derivation of a program, or it fails along one that stops. -/
theorem analyze_cases (title : String) (first : Handle) (stream : TokenStream) :
    (∃ (d : Derivation [.rule .program]) (rest : TokenStream), stream.Shows d.leaves rest ∧
      analyze title first stream =
        ⟨.note ⟨.debug, "analysis started: " ++ title⟩ :: .call (.header title) ::
          (d.actions first (first.index + 1) ++ Analysis.closing), none, rest⟩) ∨
    (∃ (d : Stopped [.rule .program]) (rest : TokenStream), stream.Shows d.leaves rest ∧
      rest.kind ≠ d.expected ∧
      analyze title first stream =
        ⟨.note ⟨.debug, "analysis started: " ++ title⟩ :: .call (.header title) ::
          (d.actions first (first.index + 1) ++ Analysis.failing (d.diagnosis first rest)),
          some (d.diagnosis first rest), rest⟩) := by
  have hstart : (Analysis.start title first stream).goals =
      [Symbol.rule .program].map (⟨first, ·⟩) ++ [] := rfl
  rcases Analysis.run_cases _ hstart with ⟨d, t, hd, hgoals, _, hrun⟩ | ⟨d, t, hd, hne, hrun⟩
  · -- no goal is left, so the analysis succeeds at once
    have hend : t.run = (t, none) := Analysis.run_of_succeeds (by simp [Analysis.step, hgoals])
    refine .inl ⟨d, t.stream, hd.stream, ?_⟩
    rw [analyze, hrun, hend]
    simp [hd.trace, Analysis.start]
  · refine .inr ⟨d, t.stream, hd.stream, hne, ?_⟩
    rw [analyze, hrun]
    simp [hd.trace, Analysis.start, Stopped.diagnosis, Analysis.mismatch]

end WhileSyntax
