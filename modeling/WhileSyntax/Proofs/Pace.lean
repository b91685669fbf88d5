import Mathlib.Algebra.Order.BigOperators.Group.List
import Mathlib.Algebra.Order.Ring.Nat
import WhileSyntax.Proofs.Foresight
import WhileSyntax.Proofs.Normalizing
namespace WhileSyntax

/-! # The pace of an analysis

An analysis cannot say much between two tokens. Behind a terminal only few of the goals can turn out
empty before the next terminal comes: the two tails of an expression and a list of statements, and
then there is a terminal. So there are at most eight calls for each terminal (`Analysis.Paces`), and
an analysis that fails makes at most seven calls behind the last one.

The bound is kept along a run as the number of calls since the last terminal, together with the
number of calls within which the goals lead to the next one (`leafWithinAll`). What is left of this
for the goals behind each symbol is a table (`Symbol.room`).
-/

/-! ## How far the next leaf is -/

/-- Within how many calls the symbol leads to a leaf or to an error, if it does not turn out
empty. -/
def Symbol.leafWithin : Symbol → Nat
  | .terminal _ => 2
  | .rule .condition => 6
  | .rule .program | .rule .expr => 5
  | .rule .stmtList | .rule .term => 4
  | .rule .stmt | .rule .factor | .rule .termTail | .rule .factorTail => 3

/-- Within how many calls the symbols lead to a leaf or to an error, if what is behind them does so
within `behind` calls. A rule that turns out empty takes two calls: its node and the mark. -/
def leafWithinAll (behind : Nat) : List Symbol → Nat
  | [] => behind
  | x :: xs => if x.nullable then max x.leafWithin (leafWithinAll behind xs + 2) else x.leafWithin

/-- Within how many calls a leaf or an error comes behind the symbol. -/
def Symbol.room : Symbol → Nat
  | .terminal _ | .rule .program | .rule .factor => 8
  | .rule .term | .rule .factorTail => 6
  | .rule .stmt | .rule .expr | .rule .termTail => 4
  | .rule .stmtList | .rule .condition => 2

/-- Behind each of the symbols a leaf or an error comes as soon as it has to. -/
def Roomy (behind : Nat) : List Symbol → Prop
  | [] => True
  | x :: xs => leafWithinAll behind xs ≤ x.room ∧ Roomy behind xs

instance Roomy.decidable (behind : Nat) : ∀ xs, Decidable (Roomy behind xs)
  | [] => isTrue trivial
  | _ :: xs =>
    have := Roomy.decidable behind xs
    inferInstanceAs (Decidable (_ ∧ _))

/-- A production that does not turn out empty takes one call less than its rule. -/
theorem leafWithinAll_lt_of_production : ∀ r : Rule, ∀ rhs ∈ r.productions,
    nullableAll rhs = false → leafWithinAll 0 rhs < (Symbol.rule r).leafWithin := by
  decide

theorem eq_nil_of_production : ∀ r : Rule, ∀ rhs ∈ r.productions,
    nullableAll rhs = true → rhs = [] := by
  decide

/-- Within a production there is room behind each symbol, if there is behind the rule. -/
theorem roomy_of_production : ∀ r : Rule, ∀ rhs ∈ r.productions,
    Roomy (Symbol.rule r).room rhs := by
  decide

section

variable {xs ys rhs : List Symbol} {a b : Nat} {r : Rule}

theorem leafWithinAll_append (b : Nat) (xs ys : List Symbol) :
    leafWithinAll b (xs ++ ys) = leafWithinAll (leafWithinAll b ys) xs := by
  induction xs with
  | nil => rfl
  | cons x xs ih => rw [List.cons_append, leafWithinAll, leafWithinAll, ih]

theorem leafWithinAll_mono (hab : a ≤ b) (xs : List Symbol) :
    leafWithinAll a xs ≤ leafWithinAll b xs := by
  induction xs with
  | nil => exact hab
  | cons x xs ih =>
    rw [leafWithinAll, leafWithinAll]
    split
    · omega
    · exact le_rfl

/-- What is behind symbols that cannot all turn out empty does not matter. -/
theorem leafWithinAll_of_not_nullable (hxs : nullableAll xs = false) (a b : Nat) :
    leafWithinAll a xs = leafWithinAll b xs := by
  induction xs with
  | nil => cases hxs
  | cons x xs ih =>
    rw [leafWithinAll, leafWithinAll]
    split
    · next hx =>
      -- a symbol that can be empty is not the one that keeps all from being so
      have hrest : nullableAll xs = false := by
        rwa [nullableAll, List.all_cons, hx, Bool.true_and] at hxs
      rw [ih hrest]
    · rfl

theorem leafWithin_le_cons (b : Nat) (x : Symbol) (xs : List Symbol) :
    x.leafWithin ≤ leafWithinAll b (x :: xs) := by
  rw [leafWithinAll]
  split
  · exact le_max_left ..
  · exact le_rfl

/-- The calls for the node of a rule and the mark of an empty production bring the next leaf nearer
by as many calls. -/
theorem leafWithinAll_expand (hr : rhs ∈ r.productions) (h : Handle) (b : Nat) (xs : List Symbol) :
    1 + (markOf h rhs).length + leafWithinAll b (rhs ++ xs) ≤
      leafWithinAll b (.rule r :: xs) := by
  cases hnull : nullableAll rhs with
  | true =>
    have hnullable := nullable_of_production r rhs hr hnull
    obtain rfl := eq_nil_of_production r rhs hr hnull
    -- the call for the mark stands in for the rule
    have hmark : (markOf h []).length = 1 := rfl
    rw [leafWithinAll, if_pos hnullable, hmark, List.nil_append]
    omega
  | false =>
    have hne : rhs ≠ [] := by
      rintro rfl
      cases hnull
    have hmark : (markOf h rhs).length = 0 := by
      rw [markOf, if_neg hne]
      rfl
    -- the node costs one call, and what is predicted is nearer to a leaf by that
    have hlt := leafWithinAll_lt_of_production r rhs hr hnull
    have hle := leafWithin_le_cons b (.rule r) xs
    rw [hmark, leafWithinAll_append, leafWithinAll_of_not_nullable hnull _ 0]
    omega

theorem roomy_append : Roomy b (xs ++ ys) ↔ Roomy (leafWithinAll b ys) xs ∧ Roomy b ys := by
  induction xs with
  | nil => simp [Roomy]
  | cons x xs ih => rw [List.cons_append, Roomy, Roomy, ih, leafWithinAll_append, and_assoc]

theorem Roomy.anti (h : Roomy b xs) (hab : a ≤ b) : Roomy a xs := by
  induction xs with
  | nil => trivial
  | cons x xs ih => exact ⟨(leafWithinAll_mono hab xs).trans h.1, ih h.2⟩

theorem Roomy.expand (h : Roomy b (.rule r :: xs)) (hr : rhs ∈ r.productions) :
    Roomy b (rhs ++ xs) :=
  roomy_append.2 ⟨(roomy_of_production r rhs hr).anti h.1, h.2⟩

end

/-! ## The end of the stream -/

/-- Whether the symbol takes the end of the stream. -/
def Symbol.endsProgram : Symbol → Bool
  | .terminal .endOfStream | .rule .program => true
  | _ => false

/-- The last symbol takes the end of the stream, and no other does. -/
def Framed : List Symbol → Prop
  | [] => True
  | x :: xs => (x.endsProgram = true ↔ xs = []) ∧ Framed xs

theorem endsProgram_of_production : ∀ r : Rule, ∀ rhs ∈ r.productions,
    (Symbol.rule r).endsProgram = false → ∀ x ∈ rhs, x.endsProgram = false := by
  decide

theorem eq_program_of_endsProgram : ∀ r : Rule,
    (Symbol.rule r).endsProgram = true → r = .program := by
  decide

theorem framed_append {xs ys : List Symbol} (hxs : ∀ x ∈ xs, x.endsProgram = false)
    (hne : ys ≠ []) (hys : Framed ys) : Framed (xs ++ ys) := by
  induction xs with
  | nil => exact hys
  | cons x xs ih =>
    rw [List.forall_mem_cons] at hxs
    refine ⟨?_, ih hxs.2⟩
    simp [hxs.1, hne]

theorem Framed.expand {r : Rule} {rhs xs : List Symbol} (h : Framed (.rule r :: xs))
    (hr : rhs ∈ r.productions) : Framed (rhs ++ xs) := by
  cases hends : (Symbol.rule r).endsProgram with
  | false =>
    -- the rule does not take the end, so something behind it does
    have hne : xs ≠ [] := by
      intro hnil
      rw [h.1.2 hnil] at hends
      cases hends
    exact framed_append (endsProgram_of_production r rhs hr hends) hne h.2
  | true =>
    obtain rfl : xs = [] := h.1.1 hends
    obtain rfl := eq_program_of_endsProgram r hends
    obtain rfl : rhs = [.rule .stmtList, .terminal .endOfStream] := List.mem_singleton.1 hr
    simp [Framed, Symbol.endsProgram]

/-! ## The calls for one terminal -/

/-- The calls are those for one terminal: some for rules and empty productions, then the terminal's
node and its leaf. -/
def IsStretch (cs : List Call) : Prop :=
  ∃ before p k h text, cs = before ++ [.node p (.terminal k), .leaf h text] ∧
    ∀ c ∈ before, c.isTerminal = false

namespace Analysis

variable {title : String} {n : Nat} {s : Analysis} {parent : Handle} {rest : List Goal}
  {stretches : List (List Call)} {since : List Call}

/-- The calls of an analysis of `n` tokens, from the header on: a stretch of at most eight for each
terminal so far, and those since the last terminal. With these the next terminal still comes within
eight calls. -/
structure Paces (title : String) (n : Nat) (stretches : List (List Call)) (since : List Call)
    (s : Analysis) : Prop where
  calls : calls s.trace.reverse = .header title :: (stretches.flatten ++ since)
  stretch : ∀ cs ∈ stretches, IsStretch cs ∧ cs.length ≤ 8
  quiet : ∀ c ∈ since, c.isTerminal = false
  pace : since.length + leafWithinAll 0 s.symbols ≤ 8
  roomy : Roomy 0 s.symbols
  framed : Framed s.symbols
  /-- Only the last terminal of all may be none of the tokens. -/
  tokens : stretches.length + s.stream.remaining.length ≤ n ∨
    s.goals = [] ∧ stretches.length ≤ n + 1
  /-- The last call is for a terminal. -/
  complete : s.goals = [] → since = []

theorem paces_start (title : String) (first : Handle) (ts : List Token) :
    Paces title ts.length [] [] (start title first (.ofTokens ts)) where
  calls := rfl
  stretch := nofun
  quiet := nofun
  pace := (by decide : ([] : List Call).length + leafWithinAll 0 [.rule .program] ≤ 8)
  roomy := (by decide : Roomy 0 [.rule .program])
  framed := by simp [symbols, start, Framed, Symbol.endsProgram]
  tokens := .inl (Nat.le_of_eq (Nat.zero_add _))
  complete := nofun

/-- As long as there are goals, each stretch has taken a token. -/
theorem Paces.tokens_le {g : Goal} (h : Paces title n stretches since s)
    (hg : s.goals = g :: rest) : stretches.length + s.stream.remaining.length ≤ n := by
  rcases h.tokens with hle | ⟨hnil, -⟩
  · exact hle
  · rw [hg] at hnil
    cases hnil

/-- A token that is consumed completes a stretch. -/
theorem Paces.consume {k : TokenKind} (h : Paces title n stretches since s)
    (hg : s.goals = ⟨parent, .terminal k⟩ :: rest) (hk : s.stream.kind = k) :
    Paces title n (stretches ++ [since ++ [.node parent (.terminal k),
      .leaf ⟨s.next⟩ s.stream.lexeme]]) [] (s.consume parent k rest) := by
  have hsymbols := symbols_of_goals hg
  have hpace := h.pace
  have hroomy := h.roomy
  have hframed := h.framed
  have hleaf : leafWithinAll 0 (.terminal k :: rest.map Goal.symbol) = 2 := rfl
  rw [hsymbols] at hpace hroomy hframed
  rw [hleaf] at hpace
  have htokens := h.tokens_le hg
  constructor
  case calls =>
    rw [calls_consume, h.calls]
    simp
  case stretch =>
    intro cs hcs
    rcases List.mem_append.1 hcs with hold | hnew
    · exact h.stretch cs hold
    · rw [List.mem_singleton.1 hnew]
      refine ⟨⟨since, parent, k, _, _, rfl, h.quiet⟩, ?_⟩
      simp
      omega
  case quiet => exact nofun
  case pace =>
    have hroom : leafWithinAll 0 (rest.map Goal.symbol) ≤ 8 := hroomy.1
    rw [List.length_nil, Nat.zero_add]
    exact hroom
  case roomy => exact hroomy.2
  case framed => exact hframed.2
  case tokens =>
    rw [List.length_append, List.length_singleton]
    cases hremaining : s.stream.remaining with
    | nil =>
      -- what is consumed is no token but the end of the stream, and this is the last goal
      have hend : k = .endOfStream := by
        rw [← hk, TokenStream.kind, hremaining]
      have hlast : rest = [] := by
        subst hend
        exact List.map_eq_nil_iff.1 (hframed.1.1 rfl)
      rw [hremaining, List.length_nil] at htokens
      exact .inr ⟨hlast, by omega⟩
    | cons t ts =>
      have hadvance : (s.consume parent k rest).stream.remaining = ts := by
        show s.stream.remaining.tail = ts
        rw [hremaining, List.tail_cons]
      rw [hremaining, List.length_cons] at htokens
      rw [hadvance]
      exact .inl (by omega)
  case complete => exact fun _ => rfl

theorem Paces.expand {r : Rule} (h : Paces title n stretches since s)
    (hg : s.goals = ⟨parent, .rule r⟩ :: rest) :
    Paces title n stretches
      (since ++ .node parent (.rule r) :: markOf ⟨s.next⟩ (r.predict s.stream.kind))
      (s.expand parent r rest) := by
  have hsymbols := symbols_of_goals hg
  have hpace := h.pace
  have hroomy := h.roomy
  have hframed := h.framed
  rw [hsymbols] at hpace hroomy hframed
  have hr := r.predict_mem_productions s.stream.kind
  constructor
  case calls =>
    rw [calls_expand, h.calls]
    simp
  case stretch => exact h.stretch
  case quiet =>
    intro c hc
    rcases List.mem_append.1 hc with hold | hnew
    · exact h.quiet c hold
    · rcases List.mem_cons.1 hnew with rfl | hmark
      · rfl
      · rw [eq_empty_of_mem_markOf hmark]
        rfl
  case pace =>
    have hexpand := leafWithinAll_expand hr ⟨s.next⟩ 0 (rest.map Goal.symbol)
    rw [symbols_expand, List.length_append, List.length_cons]
    omega
  case roomy =>
    rw [symbols_expand]
    exact hroomy.expand hr
  case framed =>
    rw [symbols_expand]
    exact hframed.expand hr
  case tokens =>
    rw [stream_expand]
    exact .inl (h.tokens_le hg)
  case complete =>
    intro hnil
    -- only a program may be the last goal, and it never turns out empty
    rw [goals_expand, List.append_eq_nil_iff, List.map_eq_nil_iff] at hnil
    rcases hnil with ⟨hempty, hrest⟩
    have hends := hframed.1.2 (List.map_eq_nil_iff.2 hrest)
    obtain rfl := eq_program_of_endsProgram r hends
    cases hempty

theorem exists_paces_run (title : String) (first : Handle) (ts : List Token) :
    ∃ stretches since,
      Paces title ts.length stretches since (start title first (.ofTokens ts)).run.1 := by
  refine run_induction (P := fun s => ∃ stretches since, Paces title ts.length stretches since s)
    ?_ ?_ ?_
  · rintro s parent k rest hg hk ⟨stretches, since, h⟩
    exact ⟨_, _, h.consume hg hk⟩
  · rintro s parent r rest hg ⟨stretches, since, h⟩
    exact ⟨_, _, h.expand hg⟩
  · exact ⟨[], [], paces_start title first ts⟩

/-! ## The end of a run -/

theorem length_calls_le_run (s : Analysis) :
    (WhileSyntax.calls s.trace.reverse).length ≤
      (WhileSyntax.calls s.run.1.trace.reverse).length :=
  s.calls_prefix_run.length_le

/-- Each step but the last makes a call. -/
theorem length_calls_lt_of_continues {t : Analysis} (h : s.step = .continues t) :
    (WhileSyntax.calls s.trace.reverse).length < (WhileSyntax.calls t.trace.reverse).length := by
  rcases s.step_cases with ⟨-, hs⟩ | ⟨p, k, rest, -, -, hs⟩ | ⟨_, _, _, -, -, hs⟩ |
    ⟨p, r, rest, -, hs⟩
  · cases h.symm.trans hs
  · cases h.symm.trans hs
    rw [calls_consume, List.length_append]
    simp
  · cases h.symm.trans hs
  · cases h.symm.trans hs
    rw [calls_expand, List.length_append]
    simp

/-- A run is over within one step more than it makes calls. -/
theorem endsWithin_of_length {k : Nat} (h : (WhileSyntax.calls s.run.1.trace.reverse).length <
    (WhileSyntax.calls s.trace.reverse).length + k) : endsWithin k s = some s.run.2 := by
  fun_induction run s generalizing k with
  | case1 s t hstep ih =>
    -- each step that continues makes a call, so the calls bound the steps
    have hmore := length_calls_lt_of_continues hstep
    cases k with
    | zero =>
      have hle := t.length_calls_le_run
      omega
    | succ k =>
      rw [endsWithin, hstep]
      exact ih (by omega)
  | case2 s hstep =>
    cases k with
    | zero => exact absurd h (Nat.lt_irrefl _)
    | succ k => rw [endsWithin, hstep]
  | case3 s e hstep =>
    cases k with
    | zero => exact absurd h (Nat.lt_irrefl _)
    | succ k => rw [endsWithin, hstep]

end Analysis

/-! ## Handles -/

theorem Call.issued_le (n : Nat) (c : Call) : c.issued n ≤ n + 1 := by
  unfold issued
  split
  · exact le_rfl
  · exact Nat.le_succ n

/-- An event names the node that its call names, and the one that it makes. -/
theorem Call.mem_handles_event {n : Nat} {c : Call} {h : Handle} (hh : h ∈ (c.event n).handles) :
    c.target? = some h ∨ h = ⟨n⟩ := by
  cases c with
  | node parent label =>
    rcases List.mem_cons.1 hh with rfl | hmade
    · exact .inl rfl
    · exact .inr (List.mem_singleton.1 hmade)
  | header title => exact .inr (List.mem_singleton.1 hh)
  | footer => cases hh
  | _ => exact .inl (congrArg some (List.mem_singleton.1 hh).symm)

/-- The handles in the events of scoped calls are no greater than the number of calls. -/
theorem index_lt_of_mem_eventsOf {n : Nat} {cs : List Call} (hcs : Scoped n cs) {e : Event}
    (he : e ∈ eventsOf n cs) {h : Handle} (hh : h ∈ e.handles) : h.index < n + cs.length := by
  induction cs generalizing n with
  | nil => cases he
  | cons c cs ih =>
    rcases hcs with ⟨htarget, hrest⟩
    rw [List.length_cons]
    rcases List.mem_cons.1 he with rfl | hlater
    · -- an event names a node made before, or the one that it makes
      rcases Call.mem_handles_event hh with hnamed | rfl
      · have hlt := htarget h hnamed
        omega
      · exact Nat.lt_add_of_pos_right (Nat.succ_pos _)
    · have hlt := ih hrest hlater
      have hissued := c.issued_le n
      omega

/-! ## Whole analyses -/

/-- The calls of an analysis are the header, a stretch of at most eight for each terminal, and the
last ones: a footer, or at most seven which end with the error. -/
theorem exists_stretches (title : String) (first : Handle) (ts : List Token) :
    let outcome := analyze title first (.ofTokens ts)
    ∃ (stretches : List (List Call)) (last : List Call),
      calls outcome.trace = .header title :: (stretches.flatten ++ last) ∧
      (∀ cs ∈ stretches, IsStretch cs ∧ cs.length ≤ 8) ∧ (∀ c ∈ last, c.isTerminal = false) ∧
      (outcome.error.isSome → last.length ≤ 7 ∧ stretches.length ≤ ts.length) ∧
      (outcome.error = none → last.length = 1 ∧ stretches.length ≤ ts.length + 1) := by
  intro outcome
  rcases Analysis.exists_paces_run title first ts with ⟨stretches, since, h⟩
  refine ⟨stretches, since ++ [lastCall outcome.error], ?_, h.stretch, ?_, ?_, ?_⟩
  · rw [calls_analyze_eq_run, h.calls]
    simp [outcome]
  · intro c hc
    rcases List.mem_append.1 hc with hsince | hlast
    · exact h.quiet c hsince
    · rw [List.mem_singleton.1 hlast]
      cases outcome.error <;> rfl
  · -- a terminal is missed, so the last calls lead up to one that is two calls away
    intro hsome
    rcases Option.isSome_iff_exists.1 hsome with ⟨e, he⟩
    rcases Analysis.goals_of_run_eq_some he with ⟨parent, k, rest, hgoals, -, -⟩
    have hpace := h.pace
    have htokens := h.tokens_le hgoals
    have hleaf : leafWithinAll 0 (.terminal k :: rest.map Goal.symbol) = 2 := rfl
    rw [Analysis.symbols_of_goals hgoals, hleaf] at hpace
    rw [List.length_append, List.length_singleton]
    omega
  · -- all goals are met, so the calls end with a terminal, and the footer is left
    intro hnone
    have hgoals := Analysis.goals_of_run_eq_none (analyze_error title first _ ▸ hnone)
    rw [h.complete hgoals]
    rcases h.tokens with hle | ⟨-, hle⟩
    · exact ⟨rfl, by omega⟩
    · exact ⟨rfl, hle⟩

theorem length_calls_analyze_le (title : String) (first : Handle) (ts : List Token) :
    (calls (analyze title first (.ofTokens ts)).trace).length ≤ 8 * (ts.length + 1) + 2 := by
  rcases exists_stretches title first ts with
    ⟨stretches, last, hcalls, hstretches, -, hfailed, hsucceeded⟩
  -- a stretch of at most eight calls for each terminal
  have hflatten : (stretches.map List.length).sum ≤ (stretches.map List.length).length • 8 :=
    List.sum_le_card_nsmul _ 8 (List.forall_mem_map.2 fun cs hcs => (hstretches cs hcs).2)
  rw [List.length_map, Nat.nsmul_eq_mul, ← List.length_flatten] at hflatten
  rw [hcalls, List.length_cons, List.length_append]
  cases herror : (analyze title first (.ofTokens ts)).error with
  | none =>
    have hlast := hsucceeded herror
    omega
  | some e =>
    have hlast := hfailed (by rw [herror]; rfl)
    omega

/-- Whatever the tokens, an analysis is over within a number of steps that is linear in the number
of tokens. It makes at most eight calls from behind one terminal up to the leaf of the next, and at
most seven behind the last terminal if it fails. So it records a linear number of events, and the
handles in them are small. -/
theorem analysis_keeps_pace (title : String) (first : Handle) (ts : List Token) :
    let bound := 8 * (ts.length + 1) + 2
    let outcome := analyze title first (.ofTokens ts)
    let events := (Session.recording title ts).1.builder.events
    Analysis.endsWithin bound (.start title first (.ofTokens ts)) = some outcome.error ∧
      (∃ (stretches : List (List Call)) (last : List Call),
        calls outcome.trace = .header title :: (stretches.flatten ++ last) ∧
        (∀ cs ∈ stretches, IsStretch cs ∧ cs.length ≤ 8) ∧
        (∀ c ∈ last, c.isTerminal = false) ∧ (outcome.error.isSome → last.length ≤ 7)) ∧
      events.length ≤ bound ∧ ∀ e ∈ events, ∀ h ∈ e.handles, h.index < bound := by
  intro bound outcome events
  have hlength := length_calls_analyze_le title
  have hevents : events = eventsOf 0 (calls (analyze title ⟨0⟩ (.ofTokens ts)).trace) :=
    Session.events_recording title ts
  refine ⟨?_, ?_, ?_, ?_⟩
  · apply Analysis.endsWithin_of_length
    have hrun := congrArg List.length (calls_analyze_eq_run title first (.ofTokens ts))
    have hle := hlength first ts
    rw [hrun, List.length_append, List.length_singleton] at hle
    exact Nat.lt_of_succ_le (hle.trans (Nat.le_add_left ..))
  · rcases exists_stretches title first ts with
      ⟨stretches, last, hcalls, hstretches, hlast, hfailed, -⟩
    exact ⟨stretches, last, hcalls, hstretches, hlast, fun h => (hfailed h).1⟩
  · rw [hevents, length_eventsOf]
    exact hlength ⟨0⟩ ts
  · intro e he h hh
    rw [hevents] at he
    have hlt := index_lt_of_mem_eventsOf (scoped_analyze title ⟨0⟩ (.ofTokens ts)) he hh
    rw [Nat.zero_add] at hlt
    exact hlt.trans_le (hlength ⟨0⟩ ts)

/-- Both bounds are reached. Behind the number of an assignment there are eight calls up to the leaf
for the end of the stream, and then the footer; and seven, if a parenthesis stands there instead. -/
example :
    let ts : List Token := [⟨.identifier, "x", ⟨0, 1⟩, ⟨1, 1⟩⟩, ⟨.assign, ":=", ⟨2, 4⟩, ⟨1, 3⟩⟩,
      ⟨.number, "1", ⟨5, 6⟩, ⟨1, 6⟩⟩]
    let stray : Token := ⟨.rightParen, ")", ⟨7, 8⟩, ⟨1, 8⟩⟩
    let behind := fun ts : List Token =>
      ((calls (analyze "T" ⟨0⟩ (.ofTokens ts)).trace).dropWhile (· ≠ .leaf ⟨9⟩ "1")).tail
    (behind ts).length = 8 + 1 ∧ (behind (ts ++ [stray])).length = 7 := by
  decide +kernel

end WhileSyntax
