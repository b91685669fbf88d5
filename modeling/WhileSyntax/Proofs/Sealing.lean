import WhileSyntax.Proofs.Consumption
import WhileSyntax.Proofs.Rightmost
namespace WhileSyntax

/-! # Sealed trees

An analysis writes a header and ends with a footer or an error. So it leaves the tree of an
assembler sealed, whatever the assembler has heard before (`Assembler.isSealed_told`). A sealed tree
stays as it is: every call is refused with one warning, and all that it changes is the number of
handles that were issued (`Assembler.IsSealed.apply_eq`). Further analyses consist of such calls.
-/

namespace Assembler

/-! ## What is refused -/

/-- The tree is complete, or ended by an error. -/
def IsSealed (a : Assembler) : Prop :=
  ∃ title g, a.assembly = .sealed title g

/-- There has been a header. -/
def HasBegun (a : Assembler) : Prop :=
  a.assembly ≠ .blank

/-- What an assembler says of a call when its tree is sealed. -/
def objection : Call → LogRecord
  | .header again => ⟨.warn, "header already written; ignoring " ++ Text.quote again⟩
  | c => refusal c

theorem level_objection (c : Call) : (objection c).level = .warn := by
  cases c <;> rfl

variable {a : Assembler}

/-- A sealed tree stays as it is; a call only issues the handle that is due. -/
theorem IsSealed.apply_eq (h : a.IsSealed) (c : Call) :
    Builder.apply a c = (⟨a.assembly, c.issued a.issued⟩, [objection c]) := by
  rcases a with ⟨assembly, n⟩
  rcases h with ⟨title, g, rfl⟩
  cases c <;> rfl

theorem IsSealed.told_eq (h : a.IsSealed) (cs : List Call) :
    Builder.told a cs = ⟨a.assembly, issuedBy a.issued cs⟩ := by
  induction cs generalizing a with
  | nil => rfl
  | cons c cs ih =>
    have hnext : IsSealed ⟨a.assembly, c.issued a.issued⟩ := h
    rw [Builder.told_cons, h.apply_eq, ih hnext]
    rfl

/-- Each of the calls, made one after the other, leaves the tree and its title as they are, is
answered with one warning, and gets the next handle where it is due one. -/
def Refuses (a : Assembler) (cs : List Call) : Prop :=
  ∀ before c after, cs = before ++ c :: after →
    let b := Builder.told a before
    (Builder.apply b c).1.finish = a.finish ∧
      (∃ message, (Builder.apply b c).2 = [⟨.warn, message⟩]) ∧
      Builder.answer? b c = if c.issues then some ⟨issuedBy a.issued before⟩ else none

theorem IsSealed.refuses (h : a.IsSealed) (cs : List Call) : a.Refuses cs := by
  rintro before c after - b
  have hb : b = ⟨a.assembly, issuedBy a.issued before⟩ := h.told_eq before
  have hsealed : b.IsSealed := by
    rw [hb]
    exact h
  rw [hsealed.apply_eq, hb]
  refine ⟨rfl, ⟨(objection c).message, ?_⟩, rfl⟩
  rw [← level_objection c]

/-! ## What seals a tree -/

theorem HasBegun.apply (h : a.HasBegun) (c : Call) : (Builder.apply a c).1.HasBegun := by
  rcases a with ⟨_ | ⟨title, g⟩ | ⟨title, g⟩, n⟩
  · exact absurd rfl h
  · cases c <;> exact nofun
  · cases c <;> exact nofun

theorem HasBegun.told (h : a.HasBegun) (cs : List Call) : (Builder.told a cs).HasBegun := by
  induction cs generalizing a with
  | nil => exact h
  | cons c cs ih => exact ih (h.apply c)

theorem HasBegun.isSealed_apply (h : a.HasBegun) {c : Call} (hc : c.seals = true) :
    (Builder.apply a c).1.IsSealed := by
  rcases a with ⟨_ | ⟨title, g⟩ | ⟨title, g⟩, n⟩
  · exact absurd rfl h
  · cases c with
    | error parent message => exact ⟨title, _, rfl⟩
    | footer => exact ⟨title, _, rfl⟩
    | _ => cases hc
  · exact ⟨title, g, by cases c <;> rfl⟩

theorem hasBegun_header (a : Assembler) (title : String) :
    (Builder.apply a (.header title)).1.HasBegun := by
  rcases a with ⟨_ | ⟨title, g⟩ | ⟨title, g⟩, n⟩ <;> exact nofun

/-- Calls that begin with a header and end as an analysis ends seal the tree. -/
theorem isSealed_told (a : Assembler) (title : String) (body : List Call)
    (error : Option Diagnosis) :
    (Builder.told a (.header title :: (body ++ [lastCall error]))).IsSealed := by
  have hlast : (lastCall error).seals = true := by cases error <;> rfl
  rw [Builder.told_cons, Builder.told_append]
  exact ((a.hasBegun_header title).told body).isSealed_apply hlast

end Assembler

/-! ## Analyses of any source -/

namespace Driver

variable {σ β : Type} [TokenSource σ] [Builder β]

/-- So many analyses in a row: the source and the builder after them; nothing if one of them takes
more than `fuel` steps. -/
def analyses (fuel : Nat) (title : String) : Nat → σ → β → Option (σ × β)
  | 0, source, b => some (source, b)
  | m + 1, source, b =>
    (analyze fuel title source b).bind fun r => analyses fuel title m r.source r.builder

/-- A driver that comes to an end has made calls, the last of which tells how it ended. -/
theorem exists_told_run {fuel : Nat} {d : Driver σ β} {r : Result σ β} (h : run fuel d = some r) :
    ∃ body, r.builder = Builder.told d.builder (body ++ [lastCall r.error]) := by
  induction fuel generalizing d with
  | zero => cases h
  | succ fuel ih =>
    -- what the next step makes comes before what the rest of the run makes
    have hstep : ∀ {d' : Driver σ β} {made : List Call}, run fuel d' = some r →
        d'.builder = Builder.told d.builder made →
        ∃ body, r.builder = Builder.told d.builder (body ++ [lastCall r.error]) := by
      intro d' made hrun hmade
      rcases ih hrun with ⟨body, hbody⟩
      refine ⟨made ++ body, ?_⟩
      rw [hbody, hmade, List.append_assoc, Builder.told_append d.builder made]
    rw [run] at h
    split at h
    · cases h
      exact ⟨[], rfl⟩
    · split at h
      · exact hstep h rfl
      · cases h
        exact ⟨[], rfl⟩
    · exact hstep h rfl

theorem exists_told_analyze {fuel : Nat} {title : String} {source : σ} {b : β} {r : Result σ β}
    (h : analyze fuel title source b = some r) :
    ∃ body, r.builder = Builder.told b (.header title :: (body ++ [lastCall r.error])) := by
  rcases exists_told_run h with ⟨body, hbody⟩
  exact ⟨body, hbody⟩

theorem exists_told_analyses {fuel : Nat} {title : String} {m : Nat} {source : σ} {b : β}
    {last : σ × β} (h : analyses fuel title m source b = some last) :
    ∃ cs, last.2 = Builder.told b cs := by
  induction m generalizing source b with
  | zero =>
    cases h
    exact ⟨[], rfl⟩
  | succ m ih =>
    rcases Option.bind_eq_some_iff.1 h with ⟨r, hr, hrest⟩
    -- the first analysis is one list of calls, the others another
    rcases exists_told_analyze hr with ⟨body, hbody⟩
    rcases ih hrest with ⟨cs, hcs⟩
    refine ⟨.header title :: (body ++ [lastCall r.error]) ++ cs, ?_⟩
    rw [hcs, hbody, Builder.told_append]

/-- An analysis leaves the tree sealed. -/
theorem isSealed_analyze {fuel : Nat} {title : String} {source : σ} {a : Assembler}
    {r : Result σ Assembler} (h : analyze fuel title source a = some r) : r.builder.IsSealed := by
  rcases exists_told_analyze h with ⟨body, hbody⟩
  rw [hbody]
  exact a.isSealed_told title body r.error

end Driver

/-! ## Analyses of a stream -/

/-- What is logged of an action on a sealed tree: a note as it is, and a call as the objection to
it. -/
def Action.objected : Action → LogRecord
  | .call c => Assembler.objection c
  | .note r => r

/-- On a sealed tree every call of a trace is logged among the notes, in its place. -/
theorem Assembler.IsSealed.perform_snd {a : Assembler} (h : a.IsSealed) (trace : List Action) :
    (Builder.perform a trace).2 = trace.map Action.objected := by
  have hfold : ∀ log, (trace.foldl Builder.act (a, log)).2 =
      (trace.map Action.objected).reverse ++ log := by
    induction trace generalizing a with
    | nil => exact fun log => rfl
    | cons action trace ih =>
      intro log
      -- an action leaves the assembly alone, moves at most the counter and logs its complaint
      have hact : ∃ n, Builder.act (a, log) action =
          ((⟨a.assembly, n⟩ : Assembler), action.objected :: log) := by
        cases action with
        | call c =>
          refine ⟨c.issued a.issued, ?_⟩
          show ((Builder.apply a c).1, (Builder.apply a c).2.reverse ++ log) = _
          rw [h.apply_eq]
          rfl
        | note r => exact ⟨a.issued, rfl⟩
      rcases hact with ⟨n, hact⟩
      have hsealed : IsSealed ⟨a.assembly, n⟩ := h
      rw [List.foldl_cons, hact, ih hsealed, List.map_cons, List.reverse_cons, List.append_assoc]
      rfl
  show (trace.foldl Builder.act (a, [])).2.reverse = _
  rw [hfold, List.append_nil, List.reverse_reverse]

namespace Session

variable (title : String) (s : Session Assembler)

theorem isSealed_analyze : (s.analyze title).1.builder.IsSealed := by
  rcases Driver.exists_analyze_eq title s with ⟨fuel, hfuel⟩
  exact Driver.isSealed_analyze hfuel

/-- After the first of some analyses the tree is sealed, and it is the same after the last. -/
theorem isSealed_analyses (m : Nat) :
    (s.analyses title (m + 1)).1.builder.IsSealed ∧
      (s.analyses title (m + 1)).1.builder.finish = (s.analyze title).1.builder.finish := by
  induction m with
  | zero => exact ⟨isSealed_analyze title s, rfl⟩
  | succ m ih =>
    rcases ih with ⟨hsealed, htree⟩
    rw [session_analyses_succ title (m + 1)]
    refine ⟨isSealed_analyze title _, ?_⟩
    rw [builder_analyze, hsealed.told_eq, ← htree]
    rfl

end Session

/-- However often an analysis is run again over an assembler, the tree and the title are those of
the first time. Each call of the later analyses leaves them as they are, is logged by one warning,
and gets the next handle where it is due one. This holds on any source of tokens as far as the
analyses return; on a stream they do. -/
theorem first_analysis_decides_tree (title : String) :
    (∀ {σ : Type} [TokenSource σ] (source : σ) (fuel : Nat) (first : Driver.Result σ Assembler),
      Driver.analyze fuel title source Assembler.new = some first →
        (∀ later, first.builder.Refuses later) ∧
        ∀ fuel' m last, Driver.analyses fuel' title m first.source first.builder = some last →
          last.2.finish = first.builder.finish ∧
            ∃ later, last.2 = Builder.told first.builder later) ∧
    ∀ (stream : TokenStream) (m : Nat),
      let start : Session Assembler := ⟨stream, Assembler.new⟩
      let seen := (start.analyses title (m + 1)).1
      let outcome := analyze title (Builder.next seen.builder) seen.stream
      seen.builder.finish = (start.analyze title).1.builder.finish ∧
        seen.builder.Refuses (calls outcome.trace) ∧
        (seen.analyze title).2.2 = outcome.trace.map Action.objected := by
  constructor
  · intro σ _ source fuel first hfirst
    -- every analysis ends with a call that seals
    have hsealed := Driver.isSealed_analyze hfirst
    refine ⟨hsealed.refuses, ?_⟩
    intro fuel' m last hlast
    rcases Driver.exists_told_analyses hlast with ⟨later, hlater⟩
    refine ⟨?_, later, hlater⟩
    rw [hlater, hsealed.told_eq]
    rfl
  · intro stream m start seen outcome
    rcases Session.isSealed_analyses title start m with ⟨hsealed, htree⟩
    exact ⟨htree, hsealed.refuses _, hsealed.perform_snd outcome.trace⟩

/-- The first analysis takes a token that looks like the end of the stream, and so its tree is
complete. The second one fails behind it. -/
theorem first_analysis_decides_tree_failedLater :
    let stream := TokenStream.ofTokens [⟨.endOfStream, "\u00a0", ⟨0, 2⟩, ⟨1, 1⟩⟩,
      ⟨.readWord, "read", ⟨2, 6⟩, ⟨1, 2⟩⟩, ⟨.readWord, "read", ⟨7, 11⟩, ⟨1, 7⟩⟩]
    let tree : ParseTree := ⟨"T", [.node (.rule .program) [.node (.rule .stmtList) [.empty],
      .node (.terminal .endOfStream) [.lexeme "\u00a0"]]]⟩
    ∃ first last, Driver.analyze 10 "T" stream Assembler.new = some first ∧
      Driver.analyses 10 "T" 1 first.source first.builder = some last ∧
      first.builder.finish = tree ∧ last.2.finish = tree ∧ last.2.issued = 9 ∧
      first.builder.Refuses [.header "T", .node ⟨4⟩ (.rule .program)] := by
  intro stream tree
  have hkept := (first_analysis_decides_tree "T").1 stream 10 _
    (rfl : Driver.analyze 10 "T" stream Assembler.new = some _)
  have hagain := hkept.2 10 1 _ rfl
  exact ⟨_, _, rfl, rfl, rfl, hagain.1.trans rfl, rfl, hkept.1 _⟩

end WhileSyntax
