import WhileSyntax.Proofs.Growth
namespace WhileSyntax

/-! # The log of a parse

An assembler has nothing to say about the calls of an analysis, since each of them adds to a node
that is open (`said_analyze`). So the log of a parse consists of the notes of the analysis
(`parseTitled_log`), and none of these is a warning.
-/

/-! ## Notes -/

def Action.note? : Action → Option LogRecord
  | .call _ => none
  | .note r => some r

def notes (trace : List Action) : Log :=
  trace.filterMap Action.note?

@[simp] theorem notes_nil : notes [] = [] := rfl

@[simp] theorem notes_call (c : Call) (trace : List Action) :
    notes (.call c :: trace) = notes trace := rfl

@[simp] theorem notes_note (r : LogRecord) (trace : List Action) :
    notes (.note r :: trace) = r :: notes trace := rfl

@[simp] theorem notes_append (trace rest : List Action) :
    notes (trace ++ rest) = notes trace ++ notes rest :=
  List.filterMap_append

@[simp] theorem notes_emptyMark (h : Handle) (rhs : List Symbol) :
    notes (Analysis.emptyMark h rhs) = [] := by
  by_cases hrhs : rhs = [] <;> simp [Analysis.emptyMark, hrhs]

theorem Recorder.foldl_act_snd (r : Recorder) (log : Log) (trace : List Action) :
    (trace.foldl Builder.act (r, log)).2 = (notes trace).reverse ++ log := by
  induction trace generalizing r log with
  | nil => rfl
  | cons a trace ih =>
    rw [List.foldl_cons]
    cases a with
    | call c => exact ih _ _
    | note note =>
      show (trace.foldl Builder.act (r, note :: log)).2 = _
      rw [ih]
      simp

/-- Over a recorder, which questions no call, the notes are all that is logged. -/
theorem Recorder.perform_snd (r : Recorder) (trace : List Action) :
    (Builder.perform r trace).2 = notes trace := by
  show (trace.foldl Builder.act (r, [])).2.reverse = _
  rw [foldl_act_snd]
  simp

/-! ## Calls that add to open nodes -/

variable {spine outer : List Branch} {p root : Handle} {label : Symbol} {kids top : List Tree}
  {n : Nat} {title : String} {xs : List Symbol}

/-- An addition to an open node is made without a word. -/
theorem Assembler.says_nothing (h : Opens spine p label kids outer) {c : Call}
    (hc : c.target? = some p) :
    (Builder.apply (⟨.growing title ⟨root, top, spine⟩, n⟩ : Assembler) c).2 = [] := by
  cases c with
  | header _ => simp [Call.target?] at hc
  | footer => simp [Call.target?] at hc
  | node q x =>
    -- the node is open, so the addition is in its place
    obtain rfl := Option.some.inj hc
    simp [Builder.apply, build, grow, h.reach]
  | leaf q text =>
    obtain rfl := Option.some.inj hc
    simp [Builder.apply, build, grow, h.reach]
  | empty q =>
    obtain rfl := Option.some.inj hc
    simp [Builder.apply, build, grow, h.reach]
  | error q message =>
    obtain rfl := Option.some.inj hc
    simp [Builder.apply, build, grow, h.reach]

/-- Nor is there anything to say about the mark of an empty production at a new node. -/
theorem Assembler.said_markOf (rhs : List Symbol) :
    Builder.said (⟨.growing title ⟨root, top, ⟨⟨n⟩, label, []⟩ :: outer⟩, n + 1⟩ : Assembler)
      (markOf ⟨n⟩ rhs) = [] := by
  unfold markOf
  split
  · rw [Builder.said_cons, says_nothing (.innermost ..) rfl]
    rfl
  · rfl

namespace Derivation

/-- An assembler has nothing to say about a derivation under an open node. -/
theorem said_calls (d : Derivation xs) (h : Opens spine p label kids outer) (hp : p.index < n) :
    Builder.said (⟨.growing title ⟨root, top, spine⟩, n⟩ : Assembler) (d.calls p n) = [] := by
  induction d generalizing p kids spine outer label n with
  | nil => rfl
  | terminal l rest ih =>
    -- the terminal's node is closed again before the next call under `p`
    have hleaf := (Opens.innermost ⟨n⟩ (.terminal l.kind) [.lexeme l.text]
      (⟨p, label, kids⟩ :: outer)).close hp
    rw [calls_terminal, Builder.said_cons, Builder.said_cons, Assembler.says_nothing h rfl,
      Assembler.apply_node h, Assembler.says_nothing (.innermost ..) rfl,
      Assembler.apply_leaf (.innermost ..), ih hleaf (Nat.lt_succ_of_lt hp)]
    rfl
  | @rule xs r rhs hr below rest ihb ihr =>
    -- the calls below are made while the rule's node is innermost
    have hnode := Opens.innermost ⟨n⟩ (.rule r) (if rhs = [] then [.empty] else [])
      (⟨p, label, kids⟩ :: outer)
    obtain ⟨spine', hbelow, hspine⟩ := below.told_calls title root top hnode (Nat.lt_succ_self n)
    rw [calls_rule, Builder.said_cons, Builder.said_append, Builder.said_append,
      Builder.told_append, Assembler.says_nothing h rfl, Assembler.apply_node h,
      Assembler.said_markOf, Assembler.told_markOf, hbelow, ihb hnode (Nat.lt_succ_self n),
      ihr (hspine.close hp) (by omega)]
    rfl

end Derivation

/-- Nor about one that stops there, and about the error at which it stops. -/
theorem Stopped.said_calls (d : Stopped xs) (h : Opens spine p label kids outer) (hp : p.index < n)
    (message : String) :
    Builder.said (⟨.growing title ⟨root, top, spine⟩, n⟩ : Assembler)
      (d.calls p n ++ [.error (d.site p n) message]) = [] := by
  induction d generalizing p kids spine outer label n with
  | before left k todo hxs =>
    obtain ⟨spine', htold, hspine⟩ := left.told_calls title root top h hp
    rw [calls_before, Builder.said_append, left.said_calls h hp, htold, Builder.said_cons,
      site, Assembler.says_nothing hspine rfl]
    rfl
  | @within xs done rhs left r hr below todo hxs ih =>
    obtain ⟨spine', htold, hspine⟩ := left.told_calls title root top h hp
    -- what is on the left is finished, and the new node is innermost
    have hbelow := ih (Opens.innermost ⟨n + left.size⟩ (.rule r) []
      (⟨p, label, left.trees.reverse ++ kids⟩ :: outer)) (Nat.lt_succ_self _)
    rw [calls_within, List.append_assoc, List.cons_append, Builder.said_append,
      left.said_calls h hp, htold, Builder.said_cons, Assembler.says_nothing hspine rfl,
      Assembler.apply_node hspine, site, hbelow]
    rfl

/-! ## Whole analyses -/

/-- An assembler has nothing to say about the calls of an analysis. -/
theorem said_analyze (title : String) (stream : TokenStream) :
    Builder.said Assembler.new (calls (analyze title ⟨0⟩ stream).trace) = [] := by
  -- the root is not on the path of open nodes, so the header and the program's node come first
  have hstart : Builder.told Assembler.new [.header title, .node ⟨0⟩ (.rule .program)] =
      ⟨.growing title ⟨⟨0⟩, [], [⟨⟨1⟩, .rule .program, []⟩]⟩, 2⟩ := rfl
  have hquiet : Builder.said Assembler.new [.header title, .node ⟨0⟩ (.rule .program)] = [] := rfl
  have hprogram := Opens.innermost ⟨1⟩ (.rule .program) [] []
  rcases calls_analyze title ⟨0⟩ stream with ⟨_, d, hcalls⟩ | ⟨e, d, _, hnode, hcalls⟩
  · cases d with
    | @rule _ _ rhs hr below rest =>
      cases rest
      have hopen := Opens.innermost ⟨1⟩ (.rule .program) (if rhs = [] then [.empty] else []) []
      obtain ⟨spine, hbelow, _⟩ := below.told_calls title ⟨0⟩ [] hopen (n := 2) (by decide)
      have hshape : calls (analyze title ⟨0⟩ stream).trace =
          [.header title, .node ⟨0⟩ (.rule .program)] ++
            (markOf ⟨1⟩ rhs ++ (below.calls ⟨1⟩ 2 ++ [.footer])) := by
        rw [hcalls, Derivation.calls_rule]
        simp [Derivation.calls, Derivation.actions]
      rw [hshape, Builder.said_append, hquiet, hstart, Builder.said_append, Assembler.said_markOf,
        Assembler.told_markOf, Builder.said_append, below.said_calls hopen (by decide), hbelow]
      rfl
  · obtain ⟨rhs, hr, below, rfl⟩ := d.exists_eq_within
    have hshape : calls (analyze title ⟨0⟩ stream).trace =
        [.header title, .node ⟨0⟩ (.rule .program)] ++
          (below.calls ⟨1⟩ 2 ++ [.error (below.site ⟨1⟩ 2) e.message]) := by
      rw [hcalls, hnode, Stopped.calls_within]
      rfl
    rw [hshape, Builder.said_append, hquiet, hstart, below.said_calls hprogram (by decide)]
    rfl

/-- What a parse logs are the notes of its analysis. -/
theorem parseTitled_log (title source : String) :
    (parseTitled title source).log = notes (traceOf title source) := by
  have hlog : (parseTitled title source).log =
    (Builder.perform Recorder.new (traceOf title source)).2 ++
      (Builder.replay Assembler.new (parseTitled title source).events).2 := rfl
  have hscoped : Scoped 0 (calls (traceOf title source)) := scoped_analyze title ⟨0⟩ _
  rw [hlog, Recorder.perform_snd, parseTitled_events, Builder.replay_eventsOf rfl hscoped, traceOf,
    said_analyze, List.append_nil]

/-! ## What the notes tell -/

/-- The notes of a derivation tell of each terminal that is consumed, and of nothing else. -/
theorem Derivation.notes_actions (d : Derivation xs) (p : Handle) (n : Nat) :
    notes (d.actions p n) = d.leaves.map fun l => Analysis.consumption l.kind l.text := by
  induction d generalizing p n with
  | nil => rfl
  | terminal l rest ih => simp [actions, leaves, ih]
  | rule r hr below rest ihb ihr => simp [actions, leaves, ihb, ihr]

theorem Stopped.notes_actions (d : Stopped xs) (p : Handle) (n : Nat) :
    notes (d.actions p n) = d.leaves.map fun l => Analysis.consumption l.kind l.text := by
  induction d generalizing p n with
  | before left k todo h => simp [actions, leaves, Derivation.notes_actions]
  | within left r hr below todo h ih => simp [actions, leaves, Derivation.notes_actions, ih]

/-- The notes of an analysis: that it starts, what it consumes, and how it ends. -/
theorem notes_analyze (title : String) (first : Handle) (stream : TokenStream) :
    let outcome := analyze title first stream
    ∃ (ls : List Leaf) (last : LogRecord), stream.Shows ls outcome.rest ∧
      notes outcome.trace = ⟨.debug, "analysis started: " ++ title⟩ ::
        (ls.map (fun l => Analysis.consumption l.kind l.text) ++ [last]) ∧
      (outcome.error = none → last = ⟨.debug, "analysis finished"⟩) ∧
      ∀ e, outcome.error = some e → last = e.record := by
  intro outcome
  rcases analyze_cases title first stream with
    ⟨d, rest, hshows, houtcome⟩ | ⟨d, rest, hshows, _, houtcome⟩
  · refine ⟨d.leaves, ⟨.debug, "analysis finished"⟩, ?_⟩
    rw [show outcome = _ from houtcome]
    simpa [Derivation.notes_actions, Analysis.closing] using hshows
  · refine ⟨d.leaves, (d.diagnosis first rest).record, ?_⟩
    rw [show outcome = _ from houtcome]
    simpa [Stopped.notes_actions, Analysis.failing] using hshows

theorem Diagnosis.record_level (e : Diagnosis) : e.record.level = .error := by
  unfold record
  split <;> rfl

/-- A parse warns of nothing. -/
theorem level_ne_warn {title source : String} {r : LogRecord}
    (hr : r ∈ (parseTitled title source).log) : r.level ≠ .warn := by
  obtain ⟨ls, last, _, hnotes, hend, hfailed⟩ := notes_analyze title ⟨0⟩ (.ofSource source)
  -- the last record is information or an error
  have hlast : last.level ≠ .warn := by
    cases herror : (analyze title ⟨0⟩ (.ofSource source)).error with
    | none => simp [hend herror]
    | some e => simp [hfailed e herror, e.record_level]
  rw [parseTitled_log, traceOf, hnotes, List.mem_cons, List.mem_append, List.mem_map,
    List.mem_singleton] at hr
  -- the first record, those of consumed terminals, the last one
  rcases hr with rfl | ⟨l, _, rfl⟩ | rfl
  · simp
  · simp [Analysis.consumption]
  · exact hlast

end WhileSyntax
