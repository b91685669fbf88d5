import WhileSyntax.Proofs.Consumption
import WhileSyntax.Proofs.Lockstep
import WhileSyntax.Proofs.Recognition
namespace WhileSyntax

/-! # What an analysis foresees

An analysis looks at one token at a time and takes nothing back. So two analyses whose streams begin
with the same tokens are in step as long as these last: either both are over before, or both come to
the point where the last of these tokens has just been consumed, and have done the same up to there
(`Analysis.SeesSame.run`). What comes behind has had no part in it
(`one_token_of_lookahead`).
-/

namespace Analysis

variable {s t u v : Analysis} {parent : Handle} {rest : List Goal} {k m n : Nat}

/-! ## Stretches of a run -/

/-- By steps of which `n` consume a token, the analysis comes from the one state to the other. -/
inductive Takes : Nat → Analysis → Analysis → Prop where
  | here (s : Analysis) : Takes 0 s s
  | consume {n : Nat} {s u : Analysis} {parent : Handle} {k : TokenKind} {rest : List Goal}
      (hg : s.goals = ⟨parent, .terminal k⟩ :: rest) (hk : s.stream.kind = k)
      (h : Takes n (s.consume parent k rest) u) : Takes (n + 1) s u
  | expand {n : Nat} {s u : Analysis} {parent : Handle} {r : Rule} {rest : List Goal}
      (hg : s.goals = ⟨parent, .rule r⟩ :: rest) (h : Takes n (s.expand parent r rest) u) :
      Takes n s u

namespace Takes

theorem trans (h : Takes m s u) (k : Takes n u v) : Takes (m + n) s v := by
  induction h with
  | here s => rwa [Nat.zero_add]
  | consume hg hk _ ih =>
    rw [Nat.add_right_comm]
    exact .consume hg hk (ih k)
  | expand hg _ ih => exact .expand hg (ih k)

/-- The run goes on from there. -/
theorem run_eq (h : Takes n s u) : s.run = u.run := by
  induction h with
  | here s => rfl
  | consume hg hk _ ih =>
    rw [← ih]
    exact run_of_continues (by simp [step, hg, hk])
  | expand hg _ ih =>
    rw [← ih]
    exact run_of_continues (by simp [step, hg])

theorem stream_eq (h : Takes n s u) : u.stream = s.stream.skip n := by
  induction h with
  | here s => rfl
  | consume _ _ _ ih => exact ih
  | expand _ _ ih => rw [ih, stream_expand]

/-- What stood to be derived still does, less what has been derived. -/
theorem stands {origin : TokenStream} (h : Takes n s u) (hs : Stands origin m s) :
    Stands origin (m + n) u := by
  induction h generalizing m with
  | here s => exact hs
  | @consume n s u parent k rest hg hk _ ih =>
    have hnext := ih (hs.consume hg hk)
    rwa [Nat.add_assoc, Nat.add_comm 1] at hnext
  | expand hg _ ih => exact ih (hs.expand hg)

end Takes

/-- A run only adds to the trace. -/
theorem trace_suffix_run (s : Analysis) : s.trace <:+ s.run.1.trace := by
  refine run_induction (P := fun t => s.trace <:+ t.trace) ?_ ?_ List.suffix_rfl
  · intro t parent k rest _ _ h
    exact h.trans ⟨[_, _, _], rfl⟩
  · intro t parent r rest _ h
    rw [expand_eq rfl]
    exact h.trans ((List.suffix_cons ..).trans (List.suffix_append ..))

theorem calls_prefix_run (s : Analysis) :
    WhileSyntax.calls s.trace.reverse <+: WhileSyntax.calls s.run.1.trace.reverse := by
  rcases s.trace_suffix_run with ⟨more, hmore⟩
  rw [← hmore, List.reverse_append, calls_append]
  exact List.prefix_append ..

/-- A run does not go back in the stream. -/
theorem exists_stream_run (s : Analysis) : ∃ m, s.run.1.stream = s.stream.skip m := by
  refine run_induction (P := fun t => ∃ m, t.stream = s.stream.skip m) ?_ ?_ ⟨0, rfl⟩
  · rintro t parent k rest - - ⟨m, hstream⟩
    refine ⟨m + 1, ?_⟩
    rw [TokenStream.skip_succ, ← hstream]
    rfl
  · rintro t parent r rest - ⟨m, hstream⟩
    exact ⟨m, (stream_expand t parent r rest).trans hstream⟩

/-! ## What has been told -/

/-- The calls so far tell of the `n` tokens that were taken off the stream `origin`, and use up the
handles below `next`. -/
structure HasTold (first : Nat) (origin : TokenStream) (n : Nat) (s : Analysis) : Prop where
  stream : s.stream = origin.skip n
  tells : Tells first (calls s.trace.reverse) (origin.upcoming n)
  issued : issuedBy first (calls s.trace.reverse) = s.next

section

variable {first : Nat} {origin : TokenStream}

theorem HasTold.consume {k : TokenKind} (h : HasTold first origin n s) (hk : s.stream.kind = k) :
    HasTold first origin (n + 1) (s.consume parent k rest) := by
  -- the token that is taken is the next one of `origin`
  have hleaf : (origin.skip n).leaf = ⟨k, s.stream.lexeme⟩ := by
    rw [← h.stream, ← hk]
    rfl
  constructor
  · rw [TokenStream.skip_succ, ← h.stream]
    rfl
  · rw [calls_consume, TokenStream.upcoming_succ, hleaf]
    refine h.tells.append ?_
    rw [h.issued]
    exact .terminal parent ⟨k, s.stream.lexeme⟩ (.nil _)
  · rw [calls_consume, issuedBy_append, h.issued]
    rfl

theorem HasTold.expand {r : Rule} (h : HasTold first origin n s) :
    HasTold first origin n (s.expand parent r rest) := by
  constructor
  · rw [stream_expand, h.stream]
  · -- a node of a rule and an empty mark tell of no token
    rw [calls_expand, ← List.append_nil (origin.upcoming n)]
    refine h.tells.append (.other rfl ?_)
    exact Tells.markOf _ _ _
  · rw [calls_expand, next_expand, issuedBy_append, h.issued, issuedBy_cons, issuedBy_markOf]
    rfl

theorem hasTold_start (title : String) (first : Handle) (origin : TokenStream) :
    HasTold first.index origin 0 (start title first origin) where
  stream := rfl
  tells := .other rfl (.nil _)
  issued := rfl

theorem Takes.hasTold (h : Takes n s u) (hs : HasTold first origin m s) :
    HasTold first origin (m + n) u := by
  induction h generalizing m with
  | here s => exact hs
  | consume hg hk _ ih =>
    have hnext := ih (hs.consume hk)
    rwa [Nat.add_assoc, Nat.add_comm 1] at hnext
  | expand hg _ ih => exact ih hs.expand

end

/-! ## Two runs in step -/

/-- The analyses have done the same and have the same to do, and the next `k` tokens look the same
to them. -/
structure SeesSame (k : Nat) (s t : Analysis) : Prop where
  upcoming : s.stream.upcoming k = t.stream.upcoming k
  next : s.next = t.next
  goals : s.goals = t.goals
  trace : s.trace = t.trace

namespace SeesSame

theorem leaf_eq (h : SeesSame (k + 1) s t) : s.stream.leaf = t.stream.leaf :=
  (List.cons.inj h.upcoming).1

theorem kind_eq (h : SeesSame (k + 1) s t) : s.stream.kind = t.stream.kind :=
  congrArg Leaf.kind h.leaf_eq

theorem lexeme_eq (h : SeesSame (k + 1) s t) : s.stream.lexeme = t.stream.lexeme :=
  congrArg Leaf.text h.leaf_eq

theorem consume (h : SeesSame (k + 1) s t) (parent : Handle) (j : TokenKind) (rest : List Goal) :
    SeesSame k (s.consume parent j rest) (t.consume parent j rest) where
  upcoming := (List.cons.inj h.upcoming).2
  next := congrArg Nat.succ h.next
  goals := rfl
  trace := trace_consume_congr h.next h.trace h.lexeme_eq parent j rest

theorem expand (h : SeesSame (k + 1) s t) (parent : Handle) (r : Rule) (rest : List Goal) :
    SeesSame (k + 1) (s.expand parent r rest) (t.expand parent r rest) := by
  rcases expand_congr h.next h.trace h.kind_eq parent r rest with ⟨hnext, hgoals, htrace⟩
  refine ⟨?_, hnext, hgoals, htrace⟩
  rw [stream_expand, stream_expand]
  exact h.upcoming

end SeesSame

/-- Both runs end in the same way, when they have taken at most `k` tokens; if they fail, it is at
one of these. -/
structure EndTogether (k : Nat) (s t : Analysis) : Prop where
  takes : ∃ n, n ≤ k ∧ Takes n s s.run.1 ∧ (s.run.2.isSome → n < k)
  trace : s.run.1.trace = t.run.1.trace
  error : s.run.2.map Diagnosis.unplaced = t.run.2.map Diagnosis.unplaced

/-- Both runs take `k` tokens and have then done the same, the last of which was to consume a
token. -/
structure GoTogether (k : Nat) (s t u v : Analysis) : Prop where
  left : Takes k s u
  right : Takes k t v
  trace : u.trace = v.trace
  unmoved : k = 0 → u = s
  leaf : 0 < k → ∃ h text, u.trace.head? = some (.call (.leaf h text))

namespace EndTogether

/-- Runs that come to states from which they end together do so themselves. -/
theorem before {j : Nat} (hs : Takes j s u) (ht : Takes j t v) (h : EndTogether k u v) :
    EndTogether (k + j) s t := by
  rcases h with ⟨⟨n, hn, htakes, hfails⟩, htrace, herror⟩
  rw [← hs.run_eq] at htakes hfails htrace herror
  rw [← ht.run_eq] at htrace herror
  refine ⟨⟨j + n, ?_, hs.trans htakes, ?_⟩, htrace, herror⟩
  · omega
  · intro hsome
    have hlt := hfails hsome
    omega

theorem consume {j : TokenKind} (hs : s.goals = ⟨parent, .terminal j⟩ :: rest)
    (ht : t.goals = ⟨parent, .terminal j⟩ :: rest) (hsj : s.stream.kind = j)
    (htj : t.stream.kind = j)
    (h : EndTogether k (s.consume parent j rest) (t.consume parent j rest)) :
    EndTogether (k + 1) s t :=
  h.before (.consume hs hsj (.here _)) (.consume ht htj (.here _))

theorem expand {r : Rule} (hs : s.goals = ⟨parent, .rule r⟩ :: rest)
    (ht : t.goals = ⟨parent, .rule r⟩ :: rest)
    (h : EndTogether k (s.expand parent r rest) (t.expand parent r rest)) : EndTogether k s t :=
  h.before (.expand hs (.here _)) (.expand ht (.here _))

theorem of_succeeds (hs : s.step = .succeeds) (ht : t.step = .succeeds)
    (htrace : s.trace = t.trace) : EndTogether k s t := by
  have hsrun := run_of_succeeds hs
  have htrun := run_of_succeeds ht
  constructor
  · rw [hsrun]
    exact ⟨0, Nat.zero_le k, .here s, nofun⟩
  · rw [hsrun, htrun]
    exact htrace
  · rw [hsrun, htrun]

theorem of_fails {d e : Diagnosis} (hs : s.step = .fails d) (ht : t.step = .fails e)
    (htrace : s.trace = t.trace) (herror : d.unplaced = e.unplaced) :
    EndTogether (k + 1) s t := by
  have hsrun := run_of_fails hs
  have htrun := run_of_fails ht
  constructor
  · rw [hsrun]
    exact ⟨0, Nat.zero_le _, .here s, fun _ => Nat.succ_pos k⟩
  · rw [hsrun, htrun]
    exact htrace
  · rw [hsrun, htrun]
    exact congrArg some herror

end EndTogether

namespace GoTogether

theorem consume {j : TokenKind} (hs : s.goals = ⟨parent, .terminal j⟩ :: rest)
    (ht : t.goals = ⟨parent, .terminal j⟩ :: rest) (hsj : s.stream.kind = j)
    (htj : t.stream.kind = j)
    (h : GoTogether k (s.consume parent j rest) (t.consume parent j rest) u v) :
    GoTogether (k + 1) s t u v where
  left := .consume hs hsj h.left
  right := .consume ht htj h.right
  trace := h.trace
  unmoved := fun hk => absurd hk (Nat.succ_ne_zero k)
  leaf := by
    intro _
    cases k with
    | zero => rw [h.unmoved rfl]; exact ⟨_, _, rfl⟩
    | succ k => exact h.leaf (Nat.succ_pos k)

theorem expand {r : Rule} (hs : s.goals = ⟨parent, .rule r⟩ :: rest)
    (ht : t.goals = ⟨parent, .rule r⟩ :: rest)
    (h : GoTogether (k + 1) (s.expand parent r rest) (t.expand parent r rest) u v) :
    GoTogether (k + 1) s t u v where
  left := .expand hs h.left
  right := .expand ht h.right
  trace := h.trace
  unmoved := fun hk => absurd hk (Nat.succ_ne_zero k)
  leaf := h.leaf

end GoTogether

/-- Where no common token is left, the runs may part. -/
theorem SeesSame.part (h : SeesSame 0 s t) : ∃ u v, GoTogether 0 s t u v :=
  ⟨s, t, .here s, .here t, h.trace, fun _ => rfl, fun hk => absurd hk (Nat.lt_irrefl 0)⟩

/-- Two analyses to which the next `k` tokens look the same end together, or they go on together
until they have taken these tokens. -/
theorem SeesSame.run (h : SeesSame k s t) : EndTogether k s t ∨ ∃ u v, GoTogether k s t u v := by
  fun_induction Analysis.run s generalizing k t with
  | case1 s w hstep ih =>
    -- without a token in sight nothing is claimed of what follows
    cases k with
    | zero => exact .inr h.part
    | succ k =>
      rcases s.step_cases with ⟨-, hs⟩ | ⟨p, j, rest, hg, hk, hs⟩ | ⟨_, _, _, _, _, hs⟩ |
        ⟨p, r, rest, hg, hs⟩
      · cases hstep.symm.trans hs
      · cases hstep.symm.trans hs
        have ht : t.goals = ⟨p, .terminal j⟩ :: rest := h.goals.symm.trans hg
        have htk : t.stream.kind = j := h.kind_eq.symm.trans hk
        rcases ih (h.consume p j rest) with hend | ⟨u, v, hgo⟩
        · exact .inl (hend.consume hg ht hk htk)
        · exact .inr ⟨u, v, hgo.consume hg ht hk htk⟩
      · cases hstep.symm.trans hs
      · cases hstep.symm.trans hs
        have ht : t.goals = ⟨p, .rule r⟩ :: rest := h.goals.symm.trans hg
        rcases ih (h.expand p r rest) with hend | ⟨u, v, hgo⟩
        · exact .inl (hend.expand hg ht)
        · exact .inr ⟨u, v, hgo.expand hg ht⟩
  | case2 s hstep =>
    -- no goal is left on either side
    have hgoals := goals_of_run_eq_none (s := s) (by rw [run_of_succeeds hstep])
    rw [run_of_succeeds hstep, h.goals] at hgoals
    have ht : t.step = .succeeds := by simp [step, hgoals]
    exact .inl (.of_succeeds hstep ht h.trace)
  | case3 s e hstep =>
    -- both fail at the current token, and the errors differ in its place alone
    cases k with
    | zero => exact .inr h.part
    | succ k =>
      rcases goals_of_run_eq_some (s := s) (by rw [run_of_fails hstep]) with
        ⟨p, j, rest, hg, hk, he⟩
      rw [run_of_fails hstep] at hg hk he
      have hgoals : t.goals = ⟨p, .terminal j⟩ :: rest := h.goals.symm.trans hg
      have hkind : t.stream.kind ≠ j := h.kind_eq ▸ hk
      have ht : t.step = .fails (t.mismatch p j) := by simp [step, hgoals, hkind]
      refine .inl (.of_fails hstep ht h.trace ?_)
      rw [he]
      exact mismatch_congr h.lexeme_eq p j

end Analysis

/-! ## The first tokens of a list -/

namespace TokenStream

theorem upcoming_ofTokens {ts : List Token} {n : Nat} (h : n ≤ ts.length) :
    (ofTokens ts).upcoming n = (ts.take n).map Token.leaf := by
  have hremaining : (ofTokens ts).remaining = ts := rfl
  rw [upcoming_eq, hremaining, Nat.sub_eq_zero_of_le h, List.replicate_zero, List.append_nil]

/-- Behind the first end of the stream nothing is seen. -/
theorem throughEnd_append_of_mem {ts : List Token} (h : ∃ t ∈ ts, t.kind = .endOfStream)
    (us : List Token) : throughEnd (ts ++ us) = throughEnd ts := by
  induction ts with
  | nil =>
    rcases h with ⟨t, ht, -⟩
    cases ht
  | cons t ts ih =>
    rw [List.cons_append, throughEnd, throughEnd]
    by_cases hkind : t.kind = .endOfStream
    · rw [if_pos hkind, if_pos hkind]
    · -- the first token is no end, so one of the others is
      have hrest : ∃ u ∈ ts, u.kind = .endOfStream := by simpa [hkind] using h
      rw [if_neg hkind, if_neg hkind, ih hrest]

end TokenStream

section

variable {title : String} {first : Handle} {ts us : List Token} {k n : Nat}

/-- An analysis that has nothing left to derive has just taken an end of the stream. -/
theorem exists_end_of_takes {u : Analysis}
    (h : Analysis.Takes n (.start title first (.ofTokens ts)) u) (hgoals : u.goals = [])
    (hn : n ≤ ts.length) : ∃ m t, n = m + 1 ∧ ts[m]? = some t ∧ t.kind = .endOfStream := by
  -- what was taken is a whole program, whose last leaf is the end of the stream
  have hstands := h.stands (Analysis.stands_start title first (.ofTokens ts))
  rw [Nat.zero_add] at hstands
  have hnil : Yields u.symbols [] := by
    simp [Analysis.symbols, hgoals]
  rcases hstands.sound [] hnil with ⟨d, hd⟩
  rcases d.leaves_of_program with ⟨ls, l, hleaves, hl, -⟩
  rw [hleaves, List.append_nil] at hd
  cases n with
  | zero => exact absurd hd (List.append_ne_nil_of_right_ne_nil ls (List.cons_ne_nil l []))
  | succ m =>
    rw [TokenStream.upcoming_succ, TokenStream.skip_ofTokens] at hd
    have hlast := (List.append_inj' hd rfl).2
    rw [List.drop_eq_getElem_cons (Nat.lt_of_succ_le hn)] at hlast
    refine ⟨m, ts[m], rfl, List.getElem?_eq_getElem _, ?_⟩
    rw [(List.cons.inj hlast).1] at hl
    exact hl

/-- An accepting analysis that comes upon an end of the stream among the first tokens does the same
on any stream that begins with these. -/
theorem analyze_eq_of_accepted (h : (analyze title first (.ofTokens ts)).error = none)
    (hend : ∃ t ∈ ts.take k, t.kind = .endOfStream)
    (hsame : (TokenStream.ofTokens ts).upcoming k = (TokenStream.ofTokens us).upcoming k) :
    (analyze title first (.ofTokens us)).trace = (analyze title first (.ofTokens ts)).trace ∧
      (analyze title first (.ofTokens us)).error = none := by
  rcases yields_program_of_accepted h with ⟨n, -, d, hd⟩
  rcases d.leaves_of_program with ⟨ls, l, hleaves, hl, hls⟩
  have hlength : d.leaves.length = n := by rw [hd, TokenStream.length_upcoming]
  have hthrough : d.leaves = TokenStream.throughEnd ts :=
    hleaves.trans (TokenStream.eq_throughEnd_of_upcoming (hd.symm.trans hleaves) hl hls)
  -- the program ends with the first end of the stream, so it is among the first tokens
  have hn : n ≤ k := by
    have hle := TokenStream.length_throughEnd_le hend
    rw [← TokenStream.throughEnd_append_of_mem hend (ts.drop k), List.take_append_drop,
      ← hthrough, hlength, List.length_take] at hle
    omega
  have hother : (TokenStream.ofTokens us).upcoming n = d.leaves := by
    rw [← Nat.add_sub_of_le hn, TokenStream.upcoming_add, TokenStream.upcoming_add] at hsame
    exact (List.append_inj hsame (by simp)).1.symm.trans hd.symm
  rw [← hlength] at hd hother
  rw [d.analyze_eq title first hother, d.analyze_eq title first hd.symm]
  exact ⟨rfl, rfl⟩

end

/-! ## Recorded analyses -/

namespace Session

/-- The session of one analysis over some tokens, with a new recorder. -/
def recording (title : String) (ts : List Token) : Session Recorder × Option Diagnosis × Log :=
  (⟨.ofTokens ts, Recorder.new⟩ : Session Recorder).analyze title

/-- The analysis is over before it has gone beyond the first `k` tokens: it has failed at one of
them, or it has taken one of them for the end of the stream. -/
def EndsWithin (title : String) (ts : List Token) (k : Nat) : Prop :=
  ∃ n, n < k ∧
    ((recording title ts).2.1.isSome ∧ HasRead ts n (recording title ts).1 ∨
      (recording title ts).2.1 = none ∧ (∃ t, ts[n]? = some t ∧ t.kind = .endOfStream) ∧
        HasRead ts (n + 1) (recording title ts).1)

variable {title : String} {ts us : List Token} {k n p : Nat} {u : Analysis}

/-- The call that ends an analysis does not tell a position. -/
theorem lastCall_congr {d e : Option Diagnosis}
    (h : d.map Diagnosis.unplaced = e.map Diagnosis.unplaced) : lastCall d = lastCall e := by
  have hunplaced : ∀ d : Option Diagnosis, lastCall d = lastCall (d.map Diagnosis.unplaced) := by
    intro d
    cases d <;> rfl
  rw [hunplaced d, hunplaced e, h]

theorem events_recording (title : String) (ts : List Token) :
    (recording title ts).1.builder.events =
      eventsOf 0 (calls (WhileSyntax.analyze title ⟨0⟩ (.ofTokens ts)).trace) :=
  events_analyze title (.ofTokens ts)

/-- How many tokens have been read can be told from those that are left. -/
theorem HasRead.eq_of_stream {s : Session Recorder} (h : HasRead ts p s) (hn : n ≤ ts.length)
    (hstream : s.stream = .ofTokens (ts.drop n)) : p = n := by
  have hdrop : ts.drop p = ts.drop n :=
    congrArg TokenStream.remaining (h.stream.symm.trans hstream)
  have hlength := congrArg List.length hdrop
  rw [List.length_drop, List.length_drop] at hlength
  have hp := h.le_length
  omega

/-- Where an analysis has come is where the session is left, or before. -/
theorem le_of_takes (h : Analysis.Takes k (.start title ⟨0⟩ (.ofTokens ts)) u)
    (hk : k ≤ ts.length) (hread : HasRead ts p (recording title ts).1) : k ≤ p := by
  -- the session is left where the run ends that goes on from there
  rcases u.exists_stream_run with ⟨m, hstream⟩
  rw [← h.run_eq, h.stream_eq, ← TokenStream.skip_add] at hstream
  have hrest : (recording title ts).1.stream = .ofTokens (ts.drop (k + m)) :=
    hstream.trans (TokenStream.skip_ofTokens ts (k + m))
  rw [hread.stream] at hrest
  have hlength := congrArg (List.length ∘ TokenStream.remaining) hrest
  have hp := hread.le_length
  simp only [Function.comp_apply, TokenStream.ofTokens, List.length_drop] at hlength
  omega

/-- What has been told on the way has been recorded in the end. -/
theorem events_prefix (h : Analysis.Takes k (.start title ⟨0⟩ (.ofTokens ts)) u) :
    eventsOf 0 (calls u.trace.reverse) <+: (recording title ts).1.builder.events := by
  rcases u.trace_suffix_run with ⟨more, hmore⟩
  rw [events_recording, calls_analyze_eq_run, h.run_eq, ← hmore, List.reverse_append,
    calls_append, List.append_assoc, eventsOf_append]
  exact List.prefix_append ..

theorem seesSame_start (title : String) (hts : k ≤ ts.length) (hus : k ≤ us.length)
    (hsame : (ts.take k).map Token.leaf = (us.take k).map Token.leaf) :
    Analysis.SeesSame k (.start title ⟨0⟩ (.ofTokens ts)) (.start title ⟨0⟩ (.ofTokens us)) where
  upcoming := by
    show (TokenStream.ofTokens ts).upcoming k = (TokenStream.ofTokens us).upcoming k
    rw [TokenStream.upcoming_ofTokens hts, TokenStream.upcoming_ofTokens hus, hsame]
  next := rfl
  goals := rfl
  trace := rfl

/-- A run that ends together with another one ends within the tokens that both have seen. -/
theorem endsWithin_of_endTogether {t : Analysis} (hk : k ≤ ts.length)
    (h : Analysis.EndTogether k (.start title ⟨0⟩ (.ofTokens ts)) t) : EndsWithin title ts k := by
  rcases h.takes with ⟨n, hn, htakes, hfails⟩
  have hstream : (recording title ts).1.stream = .ofTokens (ts.drop n) :=
    htakes.stream_eq.trans (TokenStream.skip_ofTokens ts n)
  rcases exists_hasRead title ts 1 with ⟨p, hread⟩
  have hp : p = n := HasRead.eq_of_stream hread (hn.trans hk) hstream
  subst hp
  cases herror : (recording title ts).2.1 with
  | some e =>
    refine ⟨p, hfails (Option.isSome_of_eq_some herror), .inl ⟨?_, hread⟩⟩
    rw [herror]
    rfl
  | none =>
    -- the last token that was taken stood for the end
    rcases exists_end_of_takes htakes (Analysis.goals_of_run_eq_none herror) (hn.trans hk) with
      ⟨m, t, rfl, ht, hkind⟩
    exact ⟨m, hn, .inr ⟨herror, ⟨t, ht, hkind⟩, hread⟩⟩

/-- Runs that end alike are recorded alike. -/
theorem events_recording_congr
    (htrace : (Analysis.start title ⟨0⟩ (.ofTokens ts)).run.1.trace =
      (Analysis.start title ⟨0⟩ (.ofTokens us)).run.1.trace)
    (herror : (recording title ts).2.1.map Diagnosis.unplaced =
      (recording title us).2.1.map Diagnosis.unplaced) :
    (recording title ts).1.builder.events = (recording title us).1.builder.events := by
  have hlast : lastCall (WhileSyntax.analyze title ⟨0⟩ (.ofTokens ts)).error =
      lastCall (WhileSyntax.analyze title ⟨0⟩ (.ofTokens us)).error := lastCall_congr herror
  rw [events_recording, events_recording, calls_analyze_eq_run, calls_analyze_eq_run, htrace,
    hlast]

/-- An analysis that ends within the first tokens is the same before any others. -/
theorem recording_eq_of_endsWithin (hts : k ≤ ts.length) (hus : k ≤ us.length)
    (hsame : (ts.take k).map Token.leaf = (us.take k).map Token.leaf)
    (h : EndsWithin title ts k) :
    (recording title us).1.builder.events = (recording title ts).1.builder.events ∧
      (recording title us).2.1.map Diagnosis.unplaced =
        (recording title ts).2.1.map Diagnosis.unplaced := by
  rcases (seesSame_start title hts hus hsame).run with hend | ⟨u, v, hgo⟩
  · exact ⟨(events_recording_congr hend.trace hend.error).symm, hend.error.symm⟩
  · rcases h with ⟨n, hn, ⟨-, hread⟩ | ⟨herror, ⟨t, ht, hkind⟩, -⟩⟩
    · have hle := le_of_takes hgo.left hts hread
      omega
    · -- the last token of those that both have seen is the one that was taken for the end
      have hmem : ∃ t ∈ ts.take k, t.kind = .endOfStream :=
        ⟨t, List.mem_of_getElem? ((List.getElem?_take_of_lt hn).trans ht), hkind⟩
      have haccepted : (WhileSyntax.analyze title ⟨0⟩ (.ofTokens ts)).error = none := herror
      rcases analyze_eq_of_accepted haccepted hmem
        (seesSame_start title hts hus hsame).upcoming with ⟨htrace, hnone⟩
      refine ⟨?_, ?_⟩
      · rw [events_recording, events_recording, htrace]
      · exact congrArg (Option.map Diagnosis.unplaced) (hnone.trans herror.symm)

/-- Where an analysis does not end within the first tokens, it takes them, whatever is behind them,
and records the same up to the last one. -/
theorem records_of_not_endsWithin (hts : k ≤ ts.length) (hus : k ≤ us.length)
    (hsame : (ts.take k).map Token.leaf = (us.take k).map Token.leaf)
    (h : ¬ EndsWithin title ts k) :
    (∃ p, k ≤ p ∧ HasRead ts p (recording title ts).1) ∧
      (∃ p, k ≤ p ∧ HasRead us p (recording title us).1) ∧
      ∃ es, es <+: (recording title ts).1.builder.events ∧
        es <+: (recording title us).1.builder.events ∧
        Records es ((ts.take k).map Token.leaf) ∧
        (0 < k → ∃ h text, es.getLast? = some (.leaf h text)) := by
  rcases (seesSame_start title hts hus hsame).run with hend | ⟨u, v, hgo⟩
  · exact absurd (endsWithin_of_endTogether hts hend) h
  · rcases exists_hasRead title ts 1 with ⟨p, hp⟩
    rcases exists_hasRead title us 1 with ⟨q, hq⟩
    refine ⟨⟨p, le_of_takes hgo.left hts hp, hp⟩, ⟨q, le_of_takes hgo.right hus hq, hq⟩,
      eventsOf 0 (calls u.trace.reverse), events_prefix hgo.left, ?_, ?_, ?_⟩
    · rw [hgo.trace]
      exact events_prefix hgo.right
    · have htold := hgo.left.hasTold (Analysis.hasTold_start title ⟨0⟩ (.ofTokens ts))
      rw [Nat.zero_add] at htold
      rw [← TokenStream.upcoming_ofTokens hts]
      exact htold.tells.records
    · intro hk
      rcases hgo.leaf hk with ⟨h, text, hlast⟩
      -- the latest action is the last of the events
      rcases List.head?_eq_some_iff.1 hlast with ⟨before, htrace⟩
      refine ⟨h, text, ?_⟩
      rw [htrace, List.reverse_cons, calls_append, eventsOf_append]
      exact List.getLast?_concat

end Session

/-- Let the first `k` tokens of two lists be of the same kinds and texts. If the analysis of the one
fails at one of them, or takes one of them for the end of the stream, then the analysis of the other
records the same events and returns the same, but for the position of the error. Otherwise both
analyses read these tokens, and up to the leaf of the last one they record the same events. -/
theorem one_token_of_lookahead (title : String) (ts us : List Token) (k : Nat)
    (hts : k ≤ ts.length) (hus : k ≤ us.length)
    (hsame : (ts.take k).map Token.leaf = (us.take k).map Token.leaf) :
    let a := Session.recording title ts
    let b := Session.recording title us
    (Session.EndsWithin title ts k →
      b.1.builder.events = a.1.builder.events ∧
        b.2.1.map Diagnosis.unplaced = a.2.1.map Diagnosis.unplaced) ∧
    (¬ Session.EndsWithin title ts k →
      (∃ p, k ≤ p ∧ Session.HasRead ts p a.1) ∧ (∃ p, k ≤ p ∧ Session.HasRead us p b.1) ∧
        ∃ es, es <+: a.1.builder.events ∧ es <+: b.1.builder.events ∧
          Records es ((ts.take k).map Token.leaf) ∧
          (0 < k → ∃ h text, es.getLast? = some (.leaf h text))) := by
  intro a b
  exact ⟨Session.recording_eq_of_endsWithin hts hus hsame,
    Session.records_of_not_endsWithin hts hus hsame⟩

/-- An analysis that fails at its second token is the same if this one stands elsewhere and
something else follows. -/
theorem one_token_of_lookahead_wrongKeyword :
    let ts : List Token := [⟨.readWord, "read", ⟨0, 4⟩, ⟨1, 1⟩⟩, ⟨.ifWord, "if", ⟨5, 7⟩, ⟨1, 6⟩⟩]
    let us : List Token := [⟨.readWord, "read", ⟨0, 4⟩, ⟨1, 1⟩⟩, ⟨.ifWord, "if", ⟨6, 8⟩, ⟨2, 2⟩⟩,
      ⟨.identifier, "x", ⟨9, 10⟩, ⟨2, 5⟩⟩]
    Session.EndsWithin "T" ts 2 ∧
      (Session.recording "T" us).1.builder.events = (Session.recording "T" ts).1.builder.events ∧
      (Session.recording "T" us).2.1 ≠ (Session.recording "T" ts).2.1 := by
  intro ts us
  have hends : Session.EndsWithin "T" ts 2 := by
    rcases Session.exists_hasRead "T" ts 1 with ⟨p, hread⟩
    have hp : p = 1 := Session.HasRead.eq_of_stream hread (by decide) (by decide +kernel)
    subst hp
    exact ⟨1, by decide, .inl ⟨by decide +kernel, hread⟩⟩
  refine ⟨hends, ?_, by decide +kernel⟩
  exact ((one_token_of_lookahead "T" ts us 2 (by decide) (by decide) (by decide)).1 hends).1

end WhileSyntax
