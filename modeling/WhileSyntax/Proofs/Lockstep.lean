import WhileSyntax.Proofs.Calls
import WhileSyntax.Proofs.Progress
namespace WhileSyntax

/-! # Analyses in lockstep

Of a token an analysis sees the kind and the lexeme. It looks at a position only where it fails, and
then takes no further step. So two analyses whose streams hold the same leaves stay in lockstep to
their ends (`Lockstep.run`); they make the same calls, and end with the same error but for its
position (`analyze_alike`).
-/

/-! ## Streams with the same leaves -/

/-- The tokens to come are of the same kinds and texts. -/
def TokenStream.Alike (s t : TokenStream) : Prop :=
  s.remaining.map Token.leaf = t.remaining.map Token.leaf

namespace TokenStream.Alike

variable {s t : TokenStream}

theorem advance (h : s.Alike t) : s.advance.Alike t.advance := by
  have htail := congrArg List.tail h
  rwa [← List.map_tail, ← List.map_tail] at htail

/-- The current tokens look the same. -/
theorem leaf_eq (h : s.Alike t) : s.leaf = t.leaf := by
  unfold Alike at h
  cases hs : s.remaining with
  | nil =>
    rw [hs, List.map_nil, eq_comm, List.map_eq_nil_iff] at h
    rw [leaf_of_remaining_eq_nil hs, leaf_of_remaining_eq_nil h]
  | cons u us =>
    rw [hs, List.map_cons, eq_comm, List.map_eq_cons_iff] at h
    obtain ⟨v, vs, ht, hleaf, -⟩ := h
    rw [leaf_of_remaining_eq_cons hs, leaf_of_remaining_eq_cons ht, hleaf]

theorem kind_eq (h : s.Alike t) : s.kind = t.kind :=
  congrArg Leaf.kind h.leaf_eq

theorem lexeme_eq (h : s.Alike t) : s.lexeme = t.lexeme :=
  congrArg Leaf.text h.leaf_eq

end TokenStream.Alike

/-- The error without its position. -/
def Diagnosis.unplaced (e : Diagnosis) : Diagnosis :=
  { e with position := none }

/-! ## Steps -/

namespace Analysis

section

variable {s t : Analysis}

/-- Of the current token a step that consumes it tells the lexeme. -/
theorem trace_consume_congr (hnext : s.next = t.next) (htrace : s.trace = t.trace)
    (hlexeme : s.stream.lexeme = t.stream.lexeme) (parent : Handle) (k : TokenKind)
    (rest : List Goal) : (s.consume parent k rest).trace = (t.consume parent k rest).trace := by
  simp only [Analysis.consume, hnext, hlexeme, htrace]

/-- A step that expands a rule looks at the kind of the current token. -/
theorem expand_congr (hnext : s.next = t.next) (htrace : s.trace = t.trace)
    (hkind : s.stream.kind = t.stream.kind) (parent : Handle) (r : Rule) (rest : List Goal) :
    (s.expand parent r rest).next = (t.expand parent r rest).next ∧
      (s.expand parent r rest).goals = (t.expand parent r rest).goals ∧
      (s.expand parent r rest).trace = (t.expand parent r rest).trace := by
  rw [expand_eq (congrArg r.predict hkind), expand_eq rfl, hnext, htrace]
  exact ⟨rfl, rfl, rfl⟩

/-- A failure tells the lexeme, and the position that is left out here. -/
theorem mismatch_congr (hlexeme : s.stream.lexeme = t.stream.lexeme) (parent : Handle)
    (k : TokenKind) : (s.mismatch parent k).unplaced = (t.mismatch parent k).unplaced := by
  simp only [Analysis.mismatch, Diagnosis.unplaced, hlexeme]

end

/-- Two analyses that have done the same and have the same to do, with the same leaves to come. -/
structure Lockstep (s t : Analysis) : Prop where
  stream : s.stream.Alike t.stream
  next : s.next = t.next
  goals : s.goals = t.goals
  trace : s.trace = t.trace

namespace Lockstep

variable {s t : Analysis}

theorem consume (h : Lockstep s t) (parent : Handle) (k : TokenKind) (rest : List Goal) :
    Lockstep (s.consume parent k rest) (t.consume parent k rest) where
  stream := h.stream.advance
  next := congrArg Nat.succ h.next
  goals := rfl
  trace := trace_consume_congr h.next h.trace h.stream.lexeme_eq parent k rest

theorem expand (h : Lockstep s t) (parent : Handle) (r : Rule) (rest : List Goal) :
    Lockstep (s.expand parent r rest) (t.expand parent r rest) := by
  rcases expand_congr h.next h.trace h.stream.kind_eq parent r rest with ⟨hnext, hgoals, htrace⟩
  refine ⟨?_, hnext, hgoals, htrace⟩
  rw [stream_expand, stream_expand]
  exact h.stream

/-- Analyses in lockstep end in lockstep, and with the same error but for its position. -/
theorem run (h : Lockstep s t) :
    Lockstep s.run.1 t.run.1 ∧
      s.run.2.map Diagnosis.unplaced = t.run.2.map Diagnosis.unplaced := by
  have hpair : Lockstep s.run.1 t.run.1 ∧ s.run.2.isSome = t.run.2.isSome := by
    refine run_pair_induction ?_ ?_ ?_ ?_ h
    · intro s t h
      rw [h.goals]
    · intro s t h
      exact h.stream.kind_eq
    · intro s t p q k srest trest hs ht h
      cases hs.symm.trans (h.goals.trans ht)
      exact h.consume p k srest
    · intro s t p q r srest trest hs ht h
      cases hs.symm.trans (h.goals.trans ht)
      exact h.expand p r srest
  rcases hpair with ⟨hend, hsome⟩
  refine ⟨hend, ?_⟩
  cases hs : s.run.2 with
  | none =>
    rw [hs, Option.isSome_none, eq_comm, Option.isSome_eq_false_iff,
      Option.isNone_iff_eq_none] at hsome
    rw [hsome]
  | some e =>
    rw [hs, Option.isSome_some, eq_comm, Option.isSome_iff_exists] at hsome
    rcases hsome with ⟨f, hf⟩
    -- both fail at the first goal of the last state
    rcases goals_of_run_eq_some hs with ⟨p, k, srest, hsgoals, -, rfl⟩
    rcases goals_of_run_eq_some hf with ⟨q, j, trest, htgoals, -, rfl⟩
    cases hsgoals.symm.trans (hend.goals.trans htgoals)
    rw [hf]
    exact congrArg some (mismatch_congr hend.stream.lexeme_eq p k)

end Lockstep

end Analysis

/-! ## Whole analyses -/

/-- The error of a failure is called out without its position. -/
theorem calls_failing_unplaced (e : Diagnosis) :
    calls (Analysis.failing e) = [.error e.unplaced.node e.unplaced.message] :=
  rfl

/-- Over streams with the same leaves, analyses make the same calls, end with the same error but
for its position, and leave the same leaves. -/
theorem analyze_alike (title : String) (first : Handle) {s t : TokenStream} (h : s.Alike t) :
    calls (analyze title first s).trace = calls (analyze title first t).trace ∧
      (analyze title first s).error.map Diagnosis.unplaced =
        (analyze title first t).error.map Diagnosis.unplaced ∧
      (analyze title first s).rest.Alike (analyze title first t).rest := by
  have hstart : Analysis.Lockstep (.start title first s) (.start title first t) :=
    ⟨h, rfl, rfl, rfl⟩
  obtain ⟨hend, herror⟩ := hstart.run
  refine ⟨?_, herror, hend.stream⟩
  -- the runs have made the same calls, and the closing one says nothing of positions
  rw [analyze_trace, analyze_trace, calls_append, calls_append, hend.trace]
  cases hs : (Analysis.start title first s).run.2 with
  | none =>
    rw [hs, Option.map_none, eq_comm, Option.map_eq_none_iff] at herror
    rw [herror]
  | some e =>
    rw [hs, Option.map_some, eq_comm, Option.map_eq_some_iff] at herror
    obtain ⟨f, ht, hsame⟩ := herror
    rw [ht]
    show _ ++ calls (Analysis.failing e) = _ ++ calls (Analysis.failing f)
    rw [calls_failing_unplaced, calls_failing_unplaced, hsame]

end WhileSyntax
