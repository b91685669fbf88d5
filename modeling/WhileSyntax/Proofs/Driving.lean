import WhileSyntax.Proofs.Answers
import WhileSyntax.Proofs.Handles
import WhileSyntax.Proofs.Recording
namespace WhileSyntax

/-! # Driving a builder

An analysis numbers the nodes of its tree itself. A driver does not: it asks the builder what each
node is called, and it works on any source of tokens, which need not have an end. Over a stream and
a builder that numbers its handles, the two are the same (`Driver.exists_analyze_eq`). Over any
source, two builders that number their handles drive alike (`Driver.analyze_congr`).
-/

/-- A source of tokens, of which only the current one can be seen and which moves only forward. -/
class TokenSource (σ : Type) where
  kind : σ → TokenKind
  /-- Whether the current token is of the kind. -/
  shows : σ → TokenKind → Bool
  lexeme : σ → String
  position? : σ → Option Position
  advance : σ → σ

instance : TokenSource TokenStream where
  kind := TokenStream.kind
  shows s k := s.kind = k
  lexeme := TokenStream.lexeme
  position? := TokenStream.position?
  advance := TokenStream.advance

/-- A driver at work: its source, its builder, and the goals from the first to the last. -/
structure Driver (σ β : Type) where
  source : σ
  builder : β
  goals : List Goal

namespace Driver

variable {σ β γ : Type} [TokenSource σ] [Builder β] [Builder γ]

/-- Consumes the current token as a terminal under `parent`, in the node that the builder makes. -/
def consume (d : Driver σ β) (parent : Handle) (k : TokenKind) (rest : List Goal) :
    Driver σ β where
  source := TokenSource.advance d.source
  builder := Builder.told d.builder
    [.node parent (.terminal k), .leaf (Builder.next d.builder) (TokenSource.lexeme d.source)]
  goals := rest

/-- Makes a rule's node under `parent` and replaces the rule by what is predicted for it. -/
def expand (d : Driver σ β) (parent : Handle) (r : Rule) (rest : List Goal) : Driver σ β :=
  let node := Builder.next d.builder
  let rhs := r.predict (TokenSource.kind d.source)
  { d with
    builder := Builder.told d.builder (.node parent (.rule r) :: markOf node rhs)
    goals := rhs.map (⟨node, ·⟩) ++ rest }

/-- The error when the current token is not of the kind that the first goal asks for. -/
def mismatch (d : Driver σ β) (parent : Handle) (k : TokenKind) : Diagnosis :=
  ⟨k, TokenSource.lexeme d.source, parent, TokenSource.position? d.source⟩

structure Result (σ β : Type) where
  source : σ
  builder : β
  error : Option Diagnosis

/-- The end of an analysis, of which the builder is told by one more call. -/
def close (d : Driver σ β) (last : Call) (error : Option Diagnosis) : Result σ β :=
  ⟨d.source, Builder.told d.builder [last], error⟩

/-- Steps until no goal is left or one fails; nothing if `fuel` steps are not enough. -/
def run : Nat → Driver σ β → Option (Result σ β)
  | 0, _ => none
  | fuel + 1, d =>
    match d.goals with
    | [] => some (d.close .footer none)
    | ⟨parent, .terminal k⟩ :: rest =>
      if TokenSource.shows d.source k then run fuel (d.consume parent k rest)
      else
        let e := d.mismatch parent k
        some (d.close (.error parent e.message) (some e))
    | ⟨parent, .rule r⟩ :: rest => run fuel (d.expand parent r rest)

/-- One analysis; nothing if `fuel` steps are not enough. -/
def analyze (fuel : Nat) (title : String) (source : σ) (b : β) : Option (Result σ β) :=
  run fuel ⟨source, Builder.told b [.header title], [⟨Builder.next b, .rule .program⟩]⟩

/-- The errors of so many analyses in a row; nothing if one of them takes more than `fuel` steps. -/
def errors (fuel : Nat) (title : String) : Nat → σ → β → Option (List (Option Diagnosis))
  | 0, _, _ => some []
  | m + 1, source, b =>
    (analyze fuel title source b).bind fun r =>
      (errors fuel title m r.source r.builder).map (r.error :: ·)

/-! ## Builders that number their handles -/

/-- What can be seen of an analysis without looking into its builder. -/
def Result.view (r : Result σ β) : σ × Handle × Option Diagnosis :=
  (r.source, Builder.next r.builder, r.error)

variable [Builder.Lawful β] [Builder.Lawful γ]

/-- Drivers at the same source with the same goals, whose builders issue the same handle next, see
the same. -/
theorem run_congr (fuel : Nat) {d : Driver σ β} {t : Driver σ γ} (hsource : d.source = t.source)
    (hgoals : d.goals = t.goals) (hnext : Builder.next d.builder = Builder.next t.builder) :
    (run fuel d).map Result.view = (run fuel t).map Result.view := by
  induction fuel generalizing d t with
  | zero => rfl
  | succ fuel ih =>
    -- both builders answer with the same handle, so both drivers make the same calls
    have hclose : ∀ last error, (d.close last error).view = (t.close last error).view := by
      intro last error
      simp only [close, Result.view, hsource, Builder.next_told_congr hnext]
    rw [run, run, ← hgoals]
    rcases d.goals with _ | ⟨⟨parent, k | r⟩, rest⟩
    · exact congrArg some (hclose .footer none)
    · have hmismatch : d.mismatch parent k = t.mismatch parent k := by
        simp only [mismatch, hsource]
      have hconsume := ih (d := d.consume parent k rest) (t := t.consume parent k rest)
        (by simp only [consume, hsource]) rfl
        (by simp only [consume, hsource, hnext, Builder.next_told_congr hnext])
      simp only [← hsource, hmismatch]
      split
      · exact hconsume
      · exact congrArg some (hclose _ _)
    · exact ih (by simp only [expand, hsource]) (by simp only [expand, hsource, hnext])
        (by simp only [expand, hsource, hnext, Builder.next_told_congr hnext])

theorem analyze_congr (fuel : Nat) (title : String) (source : σ) {b : β} {b' : γ}
    (hnext : Builder.next b = Builder.next b') :
    (analyze fuel title source b).map Result.view =
      (analyze fuel title source b').map Result.view :=
  run_congr fuel rfl (by simp only [hnext]) (Builder.next_told_congr hnext _)

/-- Analyses in a row give the same errors. -/
theorem errors_congr (fuel : Nat) (title : String) (m : Nat) (source : σ) {b : β} {b' : γ}
    (hnext : Builder.next b = Builder.next b') :
    errors fuel title m source b = errors fuel title m source b' := by
  induction m generalizing source b b' with
  | zero => rfl
  | succ m ih =>
    -- the first analyses see the same, and leave builders that issue the same handle next
    have hview := analyze_congr fuel title source hnext
    rw [errors, errors]
    cases hr : analyze fuel title source b with
    | none =>
      cases hr' : analyze fuel title source b' with
      | none => rfl
      | some r' => simp [hr, hr'] at hview
    | some r =>
      cases hr' : analyze fuel title source b' with
      | none => simp [hr, hr'] at hview
      | some r' =>
        simp only [hr, hr', Option.map_some, Option.some.injEq, Result.view, Prod.mk.injEq] at hview
        obtain ⟨hsource, hnext', herror⟩ := hview
        simp only [Option.bind_some, hsource, herror, ih r'.source hnext']

/-! ## Over a stream -/

omit [Builder.Lawful γ] in
/-- A driver over a stream takes the steps of the analysis that has made the calls which its builder
was told of. -/
theorem exists_run_eq (b : β) (s : Analysis)
    (hnext : Builder.next (Builder.told b (calls s.trace.reverse)) = ⟨s.next⟩) :
    ∃ fuel, run fuel ⟨s.stream, Builder.told b (calls s.trace.reverse), s.goals⟩ =
      some ⟨s.run.1.stream,
        Builder.told b (calls s.run.1.trace.reverse ++ [lastCall s.run.2]), s.run.2⟩ := by
  -- each step of the analysis lowers its potential, so the fuel is counted off it
  induction hn : s.potential using Nat.strong_induction_on generalizing s with
  | _ n ih =>
    subst hn
    rcases s.step_cases with ⟨hg, hstep⟩ | ⟨parent, k, rest, hg, hk, hstep⟩ |
      ⟨parent, k, rest, hg, hk, hstep⟩ | ⟨parent, r, rest, hg, hstep⟩
    · refine ⟨1, ?_⟩
      rw [Analysis.run_of_succeeds hstep, run, hg, Builder.told_append]
      rfl
    · have hcalls : calls (s.consume parent k rest).trace.reverse = calls s.trace.reverse ++
          [.node parent (.terminal k), .leaf ⟨s.next⟩ s.stream.lexeme] := by
        simp [Analysis.consume]
      obtain ⟨fuel, hrun⟩ := ih _ (Analysis.potential_step hstep) (s.consume parent k rest)
        (by rw [hcalls, Builder.told_append, Builder.next_told hnext]; rfl) rfl
      refine ⟨fuel + 1, ?_⟩
      rw [hcalls, Builder.told_append] at hrun
      -- the handle that the builder answers with is the number that the analysis gives the node
      rw [Analysis.run_of_continues hstep, run, hg, ← hrun, ← hnext]
      simp [consume, TokenSource.shows, TokenSource.advance, TokenSource.lexeme, hk,
        Analysis.consume]
    · refine ⟨1, ?_⟩
      rw [Analysis.run_of_fails hstep, run, hg, Builder.told_append]
      simp [TokenSource.shows, hk, close, mismatch, Analysis.mismatch, lastCall,
        TokenSource.lexeme, TokenSource.position?]
    · obtain ⟨rhs, hrhs⟩ : ∃ rhs, r.predict s.stream.kind = rhs := ⟨_, rfl⟩
      have hexpand : s.expand parent r rest = ⟨s.stream, s.next + 1,
          rhs.map (⟨⟨s.next⟩, ·⟩) ++ rest, Analysis.emptyMark ⟨s.next⟩ rhs ++
            .call (.node parent (.rule r)) :: s.trace⟩ := Analysis.expand_eq hrhs
      have hcalls : calls (s.expand parent r rest).trace.reverse = calls s.trace.reverse ++
          .node parent (.rule r) :: markOf ⟨s.next⟩ rhs := by
        rw [hexpand]
        simp
      obtain ⟨fuel, hrun⟩ := ih _ (Analysis.potential_step hstep) (s.expand parent r rest)
        (by rw [hcalls, Builder.told_append, Builder.next_told hnext, issuedBy_cons,
          issuedBy_markOf, hexpand]; rfl) rfl
      refine ⟨fuel + 1, ?_⟩
      rw [hcalls, Builder.told_append] at hrun
      rw [Analysis.run_of_continues hstep, run, hg, ← hrun]
      simp [expand, TokenSource.kind, hnext, hexpand, hrhs]

omit [Builder.Lawful γ] in
/-- A driver over a stream comes to an end, and it does to the stream and to the builder what an
analysis of their session does. -/
theorem exists_analyze_eq (title : String) (s : Session β) :
    ∃ fuel, analyze fuel title s.stream s.builder =
      some ⟨(s.analyze title).1.stream, (s.analyze title).1.builder, (s.analyze title).2.1⟩ := by
  -- the header takes the first handle
  have hnext : Builder.next (Builder.told s.builder [.header title]) =
      ⟨(Builder.next s.builder).index + 1⟩ :=
    Builder.next_told rfl [.header title]
  obtain ⟨fuel, hrun⟩ := exists_run_eq s.builder
    (Analysis.start title (Builder.next s.builder) s.stream) hnext
  refine ⟨fuel, ?_⟩
  rw [Session.builder_analyze, calls_analyze_eq_run]
  exact hrun

end Driver

end WhileSyntax
