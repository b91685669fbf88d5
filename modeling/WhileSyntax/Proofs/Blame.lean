import WhileSyntax.Proofs.Consumption
import WhileSyntax.Proofs.Shape
namespace WhileSyntax

/-! # What an error can be about

A statement is a loop where nothing else fits, and a factor an identifier. So it might seem that a
wrong token is reported as a missing `while`. It is not: a statement is only ever predicted where
the current token begins one, and the token does not move before the statement's first terminal is
matched. In every state of a run the first goal is sure to match the current token, or it is one
that may fail; and all the goals behind it are such ones (`Poised`). Which terminals may
fail is a table, rule by rule (`Rule.missable`).
-/

/-! ## The table -/

/-- The terminals that an analysis can miss under a node of the rule. -/
def Rule.missable : Rule → List TokenKind
  | .program => [.endOfStream]
  | .stmt => [.identifier, .assign, .thenWord, .fiWord, .doWord, .odWord]
  | .condition => [.relation]
  | .factor => [.identifier, .rightParen]
  | .stmtList | .expr | .termTail | .term | .factorTail => []

/-- Whether the symbol can be dealt with under a node of the rule without knowing that the current
token begins it. -/
def Symbol.mayFail (r : Rule) : Symbol → Bool
  | .terminal k => k ∈ r.missable
  | .rule s => s ≠ .stmt

/-- What is predicted for a rule begins with a symbol that is sure to match the token, or that may
fail; and all the other symbols may. For a statement this holds where the token begins one. -/
theorem mayFail_of_predict : ∀ (r : Rule) (k : TokenKind),
    (r = .stmt → k.startsStatement = true) →
      (∀ x ∈ (r.predict k).head?, Analysis.claims k x = true ∨ x.mayFail r = true) ∧
        ∀ x ∈ (r.predict k).tail, x.mayFail r = true := by
  decide

/-- Of the terminals that a production may begin with, only identifiers can be missed. -/
theorem notMem_missable (r : Rule) : ∀ k ∈ ([.whileWord, .ifWord, .readWord, .writeWord, .number,
    .leftParen, .addOp, .multOp, .empty] : List TokenKind), k ∉ r.missable := by
  cases r <;> decide

/-! ## Labels in a record -/

/-- The label that the event gives to the node `h`, if it makes this node. -/
def Event.label? (h : Handle) : Event → Option Symbol
  | .node _ child label => if child = h then some label else none
  | _ => none

/-- The labels with which the node `h` has been made. -/
def labelsOf (events : List Event) (h : Handle) : List Symbol :=
  events.filterMap (Event.label? h)

theorem labelsOf_eq_nil {events : List Event} {h : Handle}
    (hh : h ∉ events.filterMap Event.made?) : labelsOf events h = [] := by
  rw [labelsOf, List.filterMap_eq_nil_iff]
  intro e he
  rw [List.mem_filterMap, not_exists] at hh
  cases e with
  | node parent child label =>
    refine if_neg ?_
    rintro rfl
    exact hh _ ⟨he, rfl⟩
  | _ => rfl

/-- Where no two nodes have the same handle, a node has the label that it was made with. -/
theorem labelsOf_eq_of_mem {events : List Event} (hnodup : (events.filterMap Event.made?).Nodup)
    {parent h : Handle} {label : Symbol} (hmem : .node parent h label ∈ events) :
    labelsOf events h = [label] := by
  rcases List.append_of_mem hmem with ⟨before, behind, rfl⟩
  have hmade : Event.made? (.node parent h label) = some h := rfl
  have hlabel : Event.label? h (.node parent h label) = some label := if_pos rfl
  rw [List.filterMap_append, List.filterMap_cons_some hmade, List.nodup_middle,
    List.nodup_cons, List.mem_append, not_or] at hnodup
  -- the node is made once, so no event before or behind gives it a label
  rcases hnodup with ⟨⟨hbefore, hbehind⟩, -⟩
  have hfront := labelsOf_eq_nil hbefore
  have hback := labelsOf_eq_nil hbehind
  unfold labelsOf at hfront hback ⊢
  rw [List.filterMap_append, List.filterMap_cons_some hlabel, hfront, hback, List.nil_append]

/-! ## The goals of a run -/

/-- The goal can be dealt with whatever the current token is; a terminal goes under the node of a
rule that can miss it. -/
def Goal.MayFail (events : List Event) (g : Goal) : Prop :=
  match g.symbol with
  | .terminal k => ∃ q r, .node q g.parent (.rule r) ∈ events ∧ k ∈ r.missable
  | .rule s => s ≠ .stmt

theorem Goal.MayFail.mono {events more : List Event} {g : Goal} (h : g.MayFail events)
    (hmore : events ⊆ more) : g.MayFail more := by
  rcases g with ⟨parent, k | s⟩
  · rcases h with ⟨q, r, hmem, hk⟩
    exact ⟨q, r, hmore hmem, hk⟩
  · exact h

/-- Under the node of a rule, the symbols that may fail there do so as goals. -/
theorem Goal.mayFail_of_mem {events : List Event} {q h : Handle} {r : Rule} {x : Symbol}
    (hmem : .node q h (.rule r) ∈ events) (hx : x.mayFail r = true) :
    Goal.MayFail events ⟨h, x⟩ := by
  rcases x with k | s
  · exact ⟨q, r, hmem, of_decide_eq_true hx⟩
  · have hs : s ≠ .stmt := of_decide_eq_true hx
    exact hs

/-- The first goal is sure to match a token of the kind `k`, or it may fail; and the goals behind it
may. -/
def Poised (events : List Event) (k : TokenKind) : List Goal → Prop
  | [] => True
  | g :: rest =>
    (Analysis.claims k g.symbol = true ∨ g.MayFail events) ∧ ∀ x ∈ rest, x.MayFail events

theorem poised_of_mayFail {events : List Event} {goals : List Goal}
    (h : ∀ g ∈ goals, g.MayFail events) (k : TokenKind) : Poised events k goals := by
  cases goals with
  | nil => trivial
  | cons g rest =>
    rw [List.forall_mem_cons] at h
    exact ⟨.inr h.1, h.2⟩

namespace Analysis

variable {s : Analysis} {first : Nat} {parent : Handle} {rest : List Goal}

/-- What has been recorded so far, when `first` handles were issued before. -/
def record (first : Nat) (s : Analysis) : List Event :=
  eventsOf first (calls s.trace.reverse)

/-- The goals are poised for the current token. -/
def IsPoised (first : Nat) (s : Analysis) : Prop :=
  Poised (s.record first) s.stream.kind s.goals

theorem isPoised_start (title : String) (first : Handle) (stream : TokenStream) :
    IsPoised first.index (start title first stream) := by
  have hprogram : Rule.program ≠ .stmt := by decide
  exact ⟨.inr hprogram, nofun⟩

/-- Behind a terminal there are only goals that may fail. -/
theorem IsPoised.consume {k : TokenKind} (h : IsPoised first s)
    (hg : s.goals = ⟨parent, .terminal k⟩ :: rest) :
    IsPoised first (s.consume parent k rest) := by
  unfold IsPoised at h
  rw [hg] at h
  refine poised_of_mayFail ?_ _
  intro g hmem
  refine (h.2 g hmem).mono ?_
  rw [record, record, calls_consume, eventsOf_append]
  exact List.subset_append_left ..

theorem IsPoised.expand {r : Rule} (h : IsPoised first s)
    (hissued : issuedBy first (calls s.trace.reverse) = s.next)
    (hg : s.goals = ⟨parent, .rule r⟩ :: rest) : IsPoised first (s.expand parent r rest) := by
  unfold IsPoised at h ⊢
  rw [hg] at h
  rcases h with ⟨hfirst, hrest⟩
  have hrecord : (s.expand parent r rest).record first = s.record first ++
      .node parent ⟨s.next⟩ (.rule r) :: eventsOf (s.next + 1)
        (markOf ⟨s.next⟩ (r.predict s.stream.kind)) := by
    rw [record, record, calls_expand, eventsOf_append, hissued]
    rfl
  have hkeep : ∀ g ∈ rest, g.MayFail ((s.expand parent r rest).record first) := by
    intro g hmem
    refine (hrest g hmem).mono ?_
    rw [hrecord]
    exact List.subset_append_left ..
  have hnode : .node parent ⟨s.next⟩ (.rule r) ∈ (s.expand parent r rest).record first := by
    rw [hrecord]
    exact List.mem_append_right _ List.mem_cons_self
  -- a statement is not a goal that may fail, so the current token begins it
  have hbegins : r = .stmt → s.stream.kind.startsStatement = true := by
    rintro rfl
    rcases hfirst with hclaims | hfail
    · exact hclaims
    · exact absurd rfl hfail
  have hpredict := mayFail_of_predict r s.stream.kind hbegins
  rw [stream_expand, goals_expand]
  cases hpredicted : r.predict s.stream.kind with
  | nil => exact poised_of_mayFail hkeep _
  | cons x xs =>
    rw [hpredicted] at hpredict
    rcases hpredict with ⟨hx, hxs⟩
    constructor
    · rcases hx x rfl with hclaims | hfail
      · exact .inl hclaims
      · exact .inr (Goal.mayFail_of_mem hnode hfail)
    · intro g hmem
      rcases List.mem_append.1 hmem with hnew | hold
      · rcases List.mem_map.1 hnew with ⟨y, hy, rfl⟩
        exact Goal.mayFail_of_mem hnode (hxs y hy)
      · exact hkeep g hold

theorem isPoised_run (title : String) (first : Handle) (stream : TokenStream) :
    IsPoised first.index (start title first stream).run.1 := by
  have hboth : InScope first.index (start title first stream).run.1 ∧
      IsPoised first.index (start title first stream).run.1 := by
    refine run_induction (P := fun s => InScope first.index s ∧ IsPoised first.index s) ?_ ?_ ?_
    · rintro s parent k rest hg - ⟨hscope, hpoised⟩
      exact ⟨hscope.consume hg, hpoised.consume hg⟩
    · rintro s parent r rest hg ⟨hscope, hpoised⟩
      exact ⟨hscope.expand hg, hpoised.expand hscope.issued hg⟩
    · exact ⟨inScope_start title first stream, isPoised_start title first stream⟩
  exact hboth.2

end Analysis

/-! ## Errors -/

/-- An analysis that fails has made the node that its error is about, and it can miss there what it
has missed. -/
theorem exists_node_of_error {title : String} {first : Handle} {stream : TokenStream}
    {e : Diagnosis} (h : (analyze title first stream).error = some e) :
    ∃ q r, .node q e.node (.rule r) ∈
        eventsOf first.index (calls (analyze title first stream).trace) ∧
      e.expected ∈ r.missable := by
  have hpoised := Analysis.isPoised_run title first stream
  rcases Analysis.goals_of_run_eq_some h with ⟨parent, k, rest, hgoals, hkind, rfl⟩
  unfold Analysis.IsPoised at hpoised
  rw [hgoals] at hpoised
  -- the terminal does not match the current token, so it is a goal that may fail
  rcases hpoised.1 with hclaims | ⟨q, r, hnode, hmissable⟩
  · exact absurd (of_decide_eq_true hclaims) hkind
  · refine ⟨q, r, ?_, hmissable⟩
    rw [calls_analyze_eq_run, eventsOf_append]
    exact List.mem_append_left _ hnode

namespace Session

variable (title : String)

theorem events_analyze_append (s : Session Recorder) :
    (s.analyze title).1.builder.events = s.builder.events ++ eventsOf s.builder.issued
      (calls (WhileSyntax.analyze title ⟨s.builder.issued⟩ s.stream).trace) := by
  rw [builder_analyze, Recorder.told_eq]
  simp [Recorder.events, Builder.next]

/-- Further analyses only add to a record. -/
theorem events_prefix_analyses (m : Nat) (s : Session Recorder) :
    s.builder.events <+: (s.analyses title m).1.builder.events := by
  induction m generalizing s with
  | zero => exact List.prefix_rfl
  | succ m ih =>
    have hfirst : s.builder.events <+: (s.analyze title).1.builder.events := by
      rw [events_analyze_append]
      exact List.prefix_append ..
    exact hfirst.trans (ih (s.analyze title).1)

theorem exists_node_of_error_analyses {m i : Nat} {e : Diagnosis} {s : Session Recorder}
    (h : (s.analyses title m).2[i]? = some (some e)) :
    ∃ q r, .node q e.node (.rule r) ∈ (s.analyses title m).1.builder.events ∧
      e.expected ∈ r.missable := by
  induction m generalizing s i with
  | zero => cases h
  | succ m ih =>
    cases i with
    | zero =>
      -- the error of the first analysis: what it recorded stays in front
      rcases exists_node_of_error (Option.some.inj h) with ⟨q, r, hnode, hmissable⟩
      refine ⟨q, r, (events_prefix_analyses title m (s.analyze title).1).subset ?_, hmissable⟩
      rw [events_analyze_append]
      exact List.mem_append_right _ hnode
    | succ i => exact ih (s := (s.analyze title).1) h

/-- In the record of analyses in a row no two nodes have the same handle. -/
theorem nodup_made_analyses (ts : List Token) (m : Nat) :
    (((⟨.ofTokens ts, Recorder.new⟩ : Session Recorder).analyses title m).1.builder.events.filterMap
      Event.made?).Nodup := by
  rcases exists_tells_analyses title m (⟨.ofTokens ts, Recorder.new⟩ : Session Recorder) with
    ⟨cs, -, htold, -, -⟩
  rw [htold, Recorder.events_told_new]
  exact nodup_made 0 cs

end Session

/-- Whatever the tokens and the number of analyses, an error is about a node of a rule and names a
terminal that can be missed there. So no error is ever about a missing `while`, or about any other
terminal that a statement or an operand may begin with, but for identifiers; and none is about an
operator. -/
theorem error_names_missable (title : String) (ts : List Token) (m : Nat) :
    let start : Session Recorder := ⟨.ofTokens ts, Recorder.new⟩
    ∀ e, some e ∈ (start.analyses title m).2 →
      (∃ r, labelsOf (start.analyses title m).1.builder.events e.node = [.rule r] ∧
        e.expected ∈ r.missable) ∧
      e.expected ∉ ([.whileWord, .ifWord, .readWord, .writeWord, .number, .leftParen, .addOp,
        .multOp, .empty] : List TokenKind) := by
  intro start e he
  rcases List.mem_iff_getElem?.1 he with ⟨i, hi⟩
  rcases Session.exists_node_of_error_analyses title hi with ⟨q, r, hnode, hmissable⟩
  constructor
  · have hnodup := Session.nodup_made_analyses title ts m
    exact ⟨r, labelsOf_eq_of_mem hnodup hnode, hmissable⟩
  · intro hnever
    exact notMem_missable r e.expected hnever hmissable

/-- The first analysis misses a parenthesis at a factor. The second one begins at the keyword that
was found there, which begins no statement, and misses the end of the stream at its program. -/
theorem error_names_missable_twice :
    let ts : List Token := [⟨.whileWord, "while", ⟨0, 5⟩, ⟨1, 1⟩⟩, ⟨.leftParen, "(", ⟨6, 7⟩, ⟨1, 7⟩⟩,
      ⟨.identifier, "x", ⟨7, 8⟩, ⟨1, 8⟩⟩, ⟨.thenWord, "then", ⟨9, 13⟩, ⟨1, 10⟩⟩]
    let start : Session Recorder := ⟨.ofTokens ts, Recorder.new⟩
    let e : Diagnosis := ⟨.rightParen, "then", ⟨8⟩, some ⟨1, 10⟩⟩
    let f : Diagnosis := ⟨.endOfStream, "then", ⟨17⟩, some ⟨1, 10⟩⟩
    (start.analyses "T" 2).2 = [some e, some f] ∧
      (∃ r, labelsOf (start.analyses "T" 2).1.builder.events e.node = [.rule r] ∧
        e.expected ∈ r.missable) ∧
      ∃ r, labelsOf (start.analyses "T" 2).1.builder.events f.node = [.rule r] ∧
        f.expected ∈ r.missable := by
  intro ts start e f
  have herrors : (start.analyses "T" 2).2 = [some e, some f] := by decide +kernel
  have hnames := error_names_missable "T" ts 2
  refine ⟨herrors, (hnames e ?_).1, (hnames f ?_).1⟩
  · rw [herrors]
    exact List.mem_cons_self
  · rw [herrors]
    exact List.mem_cons_of_mem _ List.mem_cons_self

end WhileSyntax
