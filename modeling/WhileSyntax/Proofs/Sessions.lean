import WhileSyntax.Proofs.Driving
namespace WhileSyntax

/-! # Sessions

An analysis cannot tell a recorder from an assembler, on whatever source of tokens and however often
it is repeated; and calls that name no nodes but those they were told of are fully described by
their events.
-/

/-! ## Analyses in a row -/

/-- So many analyses in a row: the session after them, and the error of each. -/
def Session.analyses {β : Type} [Builder β] (title : String) :
    Nat → Session β → Session β × List (Option Diagnosis)
  | 0, s => (s, [])
  | m + 1, s =>
    let (t, error, _) := s.analyze title
    let (u, errors) := t.analyses title m
    (u, error :: errors)

namespace Session

variable {β γ : Type} [Builder β] [Builder γ] [Builder.Lawful β] [Builder.Lawful γ]

/-- What an analysis returns, and how far it goes, depends on the builder only through the handle
that is issued next. -/
theorem analyze_congr (title : String) {s : Session β} {t : Session γ}
    (hstream : s.stream = t.stream) (hnext : Builder.next s.builder = Builder.next t.builder) :
    (s.analyze title).2.1 = (t.analyze title).2.1 ∧
      (s.analyze title).1.stream = (t.analyze title).1.stream ∧
      Builder.next (s.analyze title).1.builder = Builder.next (t.analyze title).1.builder := by
  have houtcome : WhileSyntax.analyze title (Builder.next s.builder) s.stream =
      WhileSyntax.analyze title (Builder.next t.builder) t.stream := by
    rw [hnext, hstream]
  refine ⟨congrArg Outcome.error houtcome, congrArg Outcome.rest houtcome, ?_⟩
  rw [builder_analyze, builder_analyze, houtcome, Builder.next_told_congr hnext]

theorem errors_analyses_congr (title : String) (m : Nat) {s : Session β} {t : Session γ}
    (hstream : s.stream = t.stream) (hnext : Builder.next s.builder = Builder.next t.builder) :
    (s.analyses title m).2 = (t.analyses title m).2 := by
  induction m generalizing s t with
  | zero => rfl
  | succ m ih =>
    obtain ⟨herror, hstream', hnext'⟩ := analyze_congr title hstream hnext
    calc (s.analyses title (m + 1)).2
        = (s.analyze title).2.1 :: ((s.analyze title).1.analyses title m).2 := rfl
      _ = (t.analyze title).2.1 :: ((t.analyze title).1.analyses title m).2 := by
        rw [herror, ih hstream' hnext']
      _ = (t.analyses title (m + 1)).2 := rfl

end Session

/-! ## Recording makes no difference -/

/-- Calls that name only nodes they were told of are made to a recorder and replayed as if they were
made directly, and they are answered alike. So on any source of tokens, analyses in a row return the
same errors over a recorder and over an assembler, if they return. On a stream they do. -/
theorem recording_makes_no_difference :
    (∀ cs : List Call, Builder.NamesAnswers Recorder.new cs →
      (Builder.replay Assembler.new (Builder.told Recorder.new cs).events).1.finish =
          (Builder.told Assembler.new cs).finish ∧
        Builder.answers Recorder.new cs = Builder.answers Assembler.new cs) ∧
    (∀ {σ : Type} [TokenSource σ] (source : σ) (title : String) (fuel m : Nat),
      Driver.errors fuel title m source Recorder.new =
        Driver.errors fuel title m source Assembler.new) ∧
    (∀ {β : Type} [Builder β] [Builder.Lawful β] (title : String) (s : Session β),
      ∃ fuel, Driver.analyze fuel title s.stream s.builder =
        some ⟨(s.analyze title).1.stream, (s.analyze title).1.builder, (s.analyze title).2.1⟩) ∧
    ∀ (title : String) (stream : TokenStream) (m : Nat),
      ((⟨stream, Recorder.new⟩ : Session Recorder).analyses title m).2 =
        ((⟨stream, Assembler.new⟩ : Session Assembler).analyses title m).2 := by
  refine ⟨?_, ?_, Driver.exists_analyze_eq, ?_⟩
  · intro cs hcs
    -- handles that answered earlier calls are handles below the counter
    have hscoped : Scoped 0 cs := (Builder.namesAnswers_iff_scoped rfl).1 hcs
    refine ⟨?_, Builder.answers_congr (n := 0) rfl rfl cs⟩
    rw [Recorder.events_told_new, Builder.replay_eventsOf rfl hscoped]
  · intro σ _ source title fuel m
    exact Driver.errors_congr fuel title m source rfl
  · intro title stream m
    exact Session.errors_analyses_congr title m rfl rfl

/-- A second header, an addition to a tree that is complete, and one to a node that was refused. -/
theorem recording_makes_no_difference_outOfTurn :
    let cs : List Call := [.header "T", .node ⟨0⟩ (.rule .stmt), .header "U", .leaf ⟨1⟩ "x",
      .footer, .node ⟨2⟩ (.rule .expr), .empty ⟨3⟩]
    Builder.NamesAnswers Recorder.new cs ∧
      (Builder.replay Assembler.new (Builder.told Recorder.new cs).events).1.finish =
        (Builder.told Assembler.new cs).finish ∧
      Builder.answers Recorder.new cs = Builder.answers Assembler.new cs := by
  intro cs
  have hnames : Builder.NamesAnswers Recorder.new cs :=
    (Builder.namesAnswers_iff_scoped rfl).2
      (by simp [cs, Scoped, Call.target?, Call.issued, Call.issues])
  exact ⟨hnames, recording_makes_no_difference.1 cs hnames⟩

end WhileSyntax
