import WhileSyntax.Proofs.Sessions
import WhileSyntax.Proofs.Shape
import WhileSyntax.Proofs.Logging
namespace WhileSyntax

/-! # What analyses consume

However many analyses share a stream, each token is consumed once and in order. The calls of an
analysis tell of the terminals that it consumes, each by a node and a leaf for that very node
(`Tells`); the next analysis goes on where the last one stopped, with new handles. So what is
recorded of all of them together are the tokens from the front (`Session.exists_tells_analyses`),
and the token at which an analysis fails is still there.
-/

/-! ## Recorded terminals -/

def Event.lexeme? : Event → Option String
  | .leaf _ lexeme => some lexeme
  | _ => none

/-- The lexeme that an event adds to the node `h`, if it adds one to that node. -/
def Event.lexemeAt? (h : Handle) : Event → Option String
  | .leaf parent lexeme => if parent = h then some lexeme else none
  | _ => none

def lexemesAt (events : List Event) (h : Handle) : List String :=
  events.filterMap (Event.lexemeAt? h)

/-- The kind of the terminal whose node the event makes, with the lexemes of that node. -/
def Event.terminal? (events : List Event) : Event → Option (TokenKind × List String)
  | .node _ child (.terminal k) => some (k, lexemesAt events child)
  | _ => none

/-- The events record these terminals and no others: the nodes of terminals are of their kinds, in
order, and each has the one lexeme of its terminal; and there are no other lexemes. -/
structure Records (events : List Event) (ls : List Leaf) : Prop where
  terminals : events.filterMap (Event.terminal? events) = ls.map fun l => (l.kind, [l.text])
  lexemes : events.filterMap Event.lexeme? = ls.map Leaf.text

@[simp] theorem lexemesAt_nil (h : Handle) : lexemesAt [] h = [] := rfl

@[simp] theorem lexemesAt_append (events more : List Event) (h : Handle) :
    lexemesAt (events ++ more) h = lexemesAt events h ++ lexemesAt more h :=
  List.filterMap_append

@[simp] theorem lexemesAt_node (p q : Handle) (x : Symbol) (events : List Event) (h : Handle) :
    lexemesAt (.node p q x :: events) h = lexemesAt events h := rfl

@[simp] theorem lexemesAt_leaf (p : Handle) (text : String) (events : List Event) (h : Handle) :
    lexemesAt (.leaf p text :: events) h =
      (if p = h then [text] else []) ++ lexemesAt events h := by
  by_cases hp : p = h
  · have hsome : Event.lexemeAt? h (.leaf p text) = some text := if_pos hp
    rw [lexemesAt, List.filterMap_cons_some hsome, if_pos hp]
    rfl
  · have hnone : Event.lexemeAt? h (.leaf p text) = none := if_neg hp
    rw [lexemesAt, List.filterMap_cons_none hnone, if_neg hp]
    rfl

/-! ## Calls that tell of terminals -/

/-- Whether the call is about a terminal. -/
def Call.isTerminal : Call → Bool
  | .node _ (.terminal _) | .leaf .. => true
  | _ => false

section

variable {c : Call} (hc : c.isTerminal = false) (n : Nat) (events : List Event)
include hc

theorem Call.lexemesAt_event (h : Handle) :
    lexemesAt (c.event n :: events) h = lexemesAt events h := by
  cases c with
  | leaf p text => cases hc
  | _ => rfl

theorem Call.terminal?_event : (c.event n).terminal? events = none := by
  rcases c with _ | ⟨p, k | r⟩ | _ | _ | _ | _
  case node.terminal => cases hc
  all_goals rfl

theorem Call.lexeme?_event : (c.event n).lexeme? = none := by
  cases c with
  | leaf p text => cases hc
  | _ => rfl

end

/-- The calls, of which the first is answered with the handle `n`, tell of these terminals: of each
by its node and, right behind, by a leaf for that node. -/
inductive Tells : Nat → List Call → List Leaf → Prop where
  | nil (n : Nat) : Tells n [] []
  | terminal {n : Nat} {cs : List Call} {ls : List Leaf} (p : Handle) (l : Leaf)
      (rest : Tells (n + 1) cs ls) :
      Tells n (.node p (.terminal l.kind) :: .leaf ⟨n⟩ l.text :: cs) (l :: ls)
  | other {n : Nat} {c : Call} {cs : List Call} {ls : List Leaf} (hc : c.isTerminal = false)
      (rest : Tells (c.issued n) cs ls) : Tells n (c :: cs) ls

/-- The events of a terminal that is told of first. -/
theorem eventsOf_terminal (n : Nat) (p : Handle) (l : Leaf) (cs : List Call) :
    eventsOf n (.node p (.terminal l.kind) :: .leaf ⟨n⟩ l.text :: cs) =
      .node p ⟨n⟩ (.terminal l.kind) :: .leaf ⟨n⟩ l.text :: eventsOf (n + 1) cs :=
  rfl

namespace Tells

variable {n : Nat} {cs ds : List Call} {ls ms : List Leaf}

theorem append (hcs : Tells n cs ls) (hds : Tells (issuedBy n cs) ds ms) :
    Tells n (cs ++ ds) (ls ++ ms) := by
  induction hcs with
  | nil n => exact hds
  | terminal p l rest ih => exact .terminal p l (ih hds)
  | other hc rest ih => exact .other hc (ih hds)

theorem concat {c : Call} (hcs : Tells n cs ls) (hc : c.isTerminal = false) :
    Tells n (cs ++ [c]) ls := by
  have happend := hcs.append (.other hc (.nil _))
  rwa [List.append_nil] at happend

theorem markOf (n : Nat) (h : Handle) (rhs : List Symbol) : Tells n (markOf h rhs) [] := by
  unfold WhileSyntax.markOf
  split
  · exact .other rfl (.nil _)
  · exact .nil n

/-- A node that was made before them gets no lexeme. -/
theorem lexemesAt_eq_nil (hcs : Tells n cs ls) {h : Handle} (hh : h.index < n) :
    lexemesAt (eventsOf n cs) h = [] := by
  induction hcs with
  | nil n => rfl
  | @terminal n cs ls p l rest ih =>
    -- the lexeme goes to a node that is numbered from `n` on
    have hne : (⟨n⟩ : Handle) ≠ h := by
      rintro rfl
      exact Nat.lt_irrefl n hh
    rw [eventsOf_terminal, lexemesAt_node, lexemesAt_leaf, if_neg hne, ih (Nat.lt_succ_of_lt hh)]
    rfl
  | @other n c cs ls hc rest ih =>
    rw [eventsOf, c.lexemesAt_event hc, ih (Nat.lt_of_lt_of_le hh (c.le_issued n))]

/-- The events of the calls show the terminals, also behind events that give no lexeme to any node
that is made from then on. -/
theorem filterMap_terminal? (hcs : Tells n cs ls) (before : List Event)
    (hbefore : ∀ h : Handle, n ≤ h.index → lexemesAt before h = []) :
    (eventsOf n cs).filterMap (Event.terminal? (before ++ eventsOf n cs)) =
      ls.map fun l => (l.kind, [l.text]) := by
  induction hcs generalizing before with
  | nil n => rfl
  | @terminal n cs ls p l rest ih =>
    -- the node gets its leaf at once; there is none for it before, and none comes later
    have hlexemes : lexemesAt (before ++ eventsOf n (.node p (.terminal l.kind) ::
        .leaf ⟨n⟩ l.text :: cs)) ⟨n⟩ = [l.text] := by
      have hlater : lexemesAt (eventsOf (n + 1) cs) ⟨n⟩ = [] :=
        rest.lexemesAt_eq_nil (Nat.lt_succ_self n)
      rw [eventsOf_terminal, lexemesAt_append, hbefore ⟨n⟩ le_rfl, lexemesAt_node, lexemesAt_leaf,
        hlater, if_pos rfl]
      rfl
    have hsome : Event.terminal? (before ++ eventsOf n (.node p (.terminal l.kind) ::
        .leaf ⟨n⟩ l.text :: cs)) (.node p ⟨n⟩ (.terminal l.kind)) = some (l.kind, [l.text]) :=
      congrArg (fun texts => some (l.kind, texts)) hlexemes
    have hrest := ih (before ++ [.node p ⟨n⟩ (.terminal l.kind), .leaf ⟨n⟩ l.text])
    rw [List.append_assoc] at hrest
    rw [eventsOf_terminal] at hsome ⊢
    rw [List.filterMap_cons_some hsome, List.filterMap_cons_none rfl, List.map_cons]
    refine congrArg (List.cons _) (hrest ?_)
    intro h hh
    have hne : (⟨n⟩ : Handle) ≠ h := by
      rintro rfl
      exact Nat.not_succ_le_self n hh
    simp [hbefore h (Nat.le_of_succ_le hh), hne]
  | @other n c cs ls hc rest ih =>
    have hrest := ih (before ++ [c.event n])
    rw [List.append_assoc] at hrest
    rw [eventsOf, List.filterMap_cons_none (c.terminal?_event hc n _)]
    refine hrest ?_
    intro h hh
    rw [lexemesAt_append, hbefore h ((c.le_issued n).trans hh), c.lexemesAt_event hc]
    rfl

theorem filterMap_lexeme? (hcs : Tells n cs ls) :
    (eventsOf n cs).filterMap Event.lexeme? = ls.map Leaf.text := by
  induction hcs with
  | nil n => rfl
  | @terminal n cs ls p l rest ih =>
    have hsome : Event.lexeme? (.leaf ⟨n⟩ l.text) = some l.text := rfl
    rw [eventsOf_terminal, List.filterMap_cons_none rfl, List.filterMap_cons_some hsome, ih]
    rfl
  | @other n c cs ls hc rest ih =>
    rw [eventsOf, List.filterMap_cons_none (c.lexeme?_event hc n), ih]

/-- The events of calls record the terminals that the calls tell of. -/
theorem records (hcs : Tells n cs ls) : Records (eventsOf n cs) ls where
  terminals := hcs.filterMap_terminal? [] fun _ _ => rfl
  lexemes := hcs.filterMap_lexeme?

end Tells

/-! ## One analysis -/

theorem Derivation.tells_calls {xs : List Symbol} (d : Derivation xs) (p : Handle) (n : Nat) :
    Tells n (d.calls p n) d.leaves := by
  induction d generalizing p n with
  | nil => exact .nil n
  | terminal l rest ih => exact .terminal p l (ih p (n + 1))
  | @rule xs r rhs hr below rest ihb ihr =>
    -- only the derivations below and to the right tell of terminals
    have hbelow := (Tells.markOf (n + 1) ⟨n⟩ rhs).append
      (by rw [issuedBy_markOf]; exact ihb ⟨n⟩ (n + 1))
    have hissued : issuedBy (n + 1) (WhileSyntax.markOf ⟨n⟩ rhs ++ below.calls ⟨n⟩ (n + 1)) =
        n + 1 + below.size := by
      rw [issuedBy_append, issuedBy_markOf, below.issuedBy_calls]
    rw [calls_rule]
    exact .other rfl (hbelow.append (by rw [hissued]; exact ihr p _))

theorem Stopped.tells_calls {xs : List Symbol} (d : Stopped xs) (p : Handle) (n : Nat) :
    Tells n (d.calls p n) d.leaves := by
  induction d generalizing p n with
  | before left k todo h => exact left.tells_calls p n
  | within left r hr below todo h ih =>
    rw [calls_within]
    refine (left.tells_calls p n).append (.other rfl ?_)
    rw [left.issuedBy_calls]
    exact ih ⟨n + left.size⟩ (n + left.size + 1)

def lastNote : Option Diagnosis → LogRecord
  | none => ⟨.debug, "analysis finished"⟩
  | some e => e.record

/-- The calls of an analysis tell of the tokens that it takes off the stream, and its notes tell of
the same. -/
theorem exists_tells_notes (title : String) (first : Handle) (stream : TokenStream) :
    let outcome := analyze title first stream
    ∃ ls, Tells first.index (calls outcome.trace) ls ∧ stream.Shows ls outcome.rest ∧
      notes outcome.trace = ⟨.debug, "analysis started: " ++ title⟩ ::
        (ls.map (fun l => Analysis.consumption l.kind l.text) ++ [lastNote outcome.error]) := by
  intro outcome
  rcases analyze_cases title first stream with
    ⟨d, rest, hshows, houtcome⟩ | ⟨d, rest, hshows, -, houtcome⟩
  · -- accepted: header and footer tell of no terminal
    have hbody := d.tells_calls first (first.index + 1)
    have hcalls : calls outcome.trace =
        .header title :: (d.calls first (first.index + 1) ++ [.footer]) := by
      rw [show outcome = _ from houtcome, calls_note, calls_call, calls_append]
      rfl
    refine ⟨d.leaves, ?_, ?_, ?_⟩
    · rw [hcalls]
      exact .other rfl (hbody.concat rfl)
    · rw [show outcome = _ from houtcome]
      exact hshows
    · rw [show outcome = _ from houtcome]
      simp [Derivation.notes_actions, Analysis.closing, lastNote]
  · -- failed: nor does the error in place of the footer
    have hbody := d.tells_calls first (first.index + 1)
    have hcalls : calls outcome.trace =
        .header title :: (d.calls first (first.index + 1) ++
          [.error (d.site first (first.index + 1)) (d.diagnosis first rest).message]) := by
      rw [show outcome = _ from houtcome, calls_note, calls_call, calls_append]
      rfl
    refine ⟨d.leaves, ?_, ?_, ?_⟩
    · rw [hcalls]
      exact .other rfl (hbody.concat rfl)
    · rw [show outcome = _ from houtcome]
      exact hshows
    · rw [show outcome = _ from houtcome]
      simp [Stopped.notes_actions, Analysis.failing, lastNote]

/-- The calls of an analysis tell of the tokens that it takes off the stream. If it fails, its error
is about the token that is then the current one. -/
theorem tells_analyze (title : String) (first : Handle) (stream : TokenStream) :
    let outcome := analyze title first stream
    (∃ ls, Tells first.index (calls outcome.trace) ls ∧ stream.Shows ls outcome.rest) ∧
      ∀ e, outcome.error = some e →
        e.found = outcome.rest.lexeme ∧ e.position = outcome.rest.position? := by
  intro outcome
  constructor
  · rcases exists_tells_notes title first stream with ⟨ls, htells, hshows, -⟩
    exact ⟨ls, htells, hshows⟩
  · -- only an analysis that stops has an error, and it is about the token that is left
    intro e he
    rcases analyze_cases title first stream with
      ⟨d, rest, -, houtcome⟩ | ⟨d, rest, -, -, houtcome⟩
    · cases he.symm.trans (congrArg Outcome.error houtcome)
    · cases he.symm.trans (congrArg Outcome.error houtcome)
      exact ⟨congrArg (TokenStream.lexeme ∘ Outcome.rest) houtcome.symm,
        congrArg (TokenStream.position? ∘ Outcome.rest) houtcome.symm⟩

/-! ## Analyses in a row -/

namespace TokenStream

theorem skip_ofTokens (ts : List Token) (n : Nat) :
    (ofTokens ts).skip n = ofTokens (ts.drop n) := by
  induction n generalizing ts with
  | zero => rfl
  | succ n ih =>
    have hadvance : (ofTokens ts).advance = ofTokens ts.tail := rfl
    rw [skip, hadvance, ih, List.drop_tail]

/-- What a stream of tokens shows are its tokens from the front, and only past the last one its end
again and again. -/
theorem Shows.of_tokens {ts : List Token} {ls : List Leaf} {rest : TokenStream}
    (h : (ofTokens ts).Shows ls rest) :
    ∃ p ends, p ≤ ts.length ∧ (0 < ends → p = ts.length) ∧
      ls = (ts.take p).map Token.leaf ++ List.replicate ends endLeaf ∧
      rest = ofTokens (ts.drop p) := by
  obtain ⟨hls, hrest⟩ := h
  have hremaining : (ofTokens ts).remaining = ts := rfl
  rw [upcoming_eq, hremaining] at hls
  rw [skip_ofTokens] at hrest
  rcases Nat.le_total ls.length ts.length with hle | hle
  · -- enough tokens, so no end of the stream is among the leaves
    refine ⟨ls.length, 0, hle, fun h => absurd h (Nat.lt_irrefl 0), ?_, hrest.symm⟩
    rw [Nat.sub_eq_zero_of_le hle] at hls
    exact hls.symm
  · -- all tokens, and the end of the stream as often as leaves are left
    refine ⟨ts.length, ls.length - ts.length, le_rfl, fun _ => rfl, ?_, ?_⟩
    · rw [List.take_length]
      rw [List.take_of_length_le hle] at hls
      exact hls.symm
    · rw [← hrest, List.drop_of_length_le hle, List.drop_length]

end TokenStream

namespace Session

variable {β : Type} [Builder β]

/-- The last of some analyses in a row starts from the session that the others left. -/
theorem session_analyses_succ (title : String) (m : Nat) (s : Session β) :
    (s.analyses title (m + 1)).1 = ((s.analyses title m).1.analyze title).1 := by
  induction m generalizing s with
  | zero => rfl
  | succ m ih => exact ih (s.analyze title).1

/-- The error of each of some analyses in a row. -/
theorem getElem?_errors_analyses (title : String) {i m : Nat} (hi : i < m) (s : Session β) :
    (s.analyses title m).2[i]? = some ((s.analyses title i).1.analyze title).2.1 := by
  induction m generalizing i s with
  | zero => exact absurd hi (Nat.not_lt_zero i)
  | succ m ih =>
    cases i with
    | zero => rfl
    | succ i => exact ih (Nat.lt_of_succ_lt_succ hi) (s.analyze title).1

theorem length_errors_analyses (title : String) (m : Nat) (s : Session β) :
    (s.analyses title m).2.length = m := by
  induction m generalizing s with
  | zero => rfl
  | succ m ih => exact congrArg Nat.succ (ih (s.analyze title).1)

/-- What analyses in a row tell their builder of are the terminals that they take off the stream. -/
theorem exists_tells_analyses [Builder.Lawful β] (title : String) (m : Nat) (s : Session β) :
    ∃ cs ls, (s.analyses title m).1.builder = Builder.told s.builder cs ∧
      Tells (Builder.next s.builder).index cs ls ∧
      s.stream.Shows ls (s.analyses title m).1.stream := by
  induction m generalizing s with
  | zero => exact ⟨[], [], rfl, .nil _, rfl, rfl⟩
  | succ m ih =>
    obtain ⟨⟨ls, htells, hshows⟩, -⟩ :=
      tells_analyze title (Builder.next s.builder) s.stream
    obtain ⟨ds, ms, htold, htells', hshows'⟩ := ih (s.analyze title).1
    rw [builder_analyze] at htold htells'
    -- the next analysis numbers its nodes from where this one has stopped
    rw [Builder.next_told rfl] at htells'
    refine ⟨_, ls ++ ms, ?_, htells.append htells', hshows.append hshows'⟩
    rw [Builder.told_append]
    exact htold

/-- The session has read the first `p` of the tokens. It has recorded them and nothing else, but for
ends of the stream once there are no more tokens; and the next token is the current one. -/
structure HasRead (ts : List Token) (p : Nat) (s : Session Recorder) : Prop where
  le_length : p ≤ ts.length
  stream : s.stream = .ofTokens (ts.drop p)
  recorded : ∃ ends, (0 < ends → p = ts.length) ∧ Records s.builder.events
    ((ts.take p).map Token.leaf ++ List.replicate ends TokenStream.endLeaf)

theorem exists_hasRead (title : String) (ts : List Token) (m : Nat) :
    ∃ p, HasRead ts p ((⟨.ofTokens ts, Recorder.new⟩ : Session Recorder).analyses title m).1 := by
  obtain ⟨cs, ls, htold, htells, hshows⟩ :=
    exists_tells_analyses title m (⟨.ofTokens ts, Recorder.new⟩ : Session Recorder)
  obtain ⟨p, ends, hle, hends, hls, hrest⟩ := TokenStream.Shows.of_tokens hshows
  refine ⟨p, hle, hrest, ends, hends, ?_⟩
  rw [htold, Recorder.events_told_new, ← hls]
  exact htells.records

end Session

/-- Whatever the number of analyses, what they record are the tokens from the front, each once and
in order, and the token behind them is the current one. An analysis that fails is about the token
that is then the current one, which is not recorded; it finds nothing, and at no position, just when
there are no more tokens. -/
theorem tokens_consumed_once_in_order (title : String) (ts : List Token) (m : Nat) :
    let start : Session Recorder := ⟨.ofTokens ts, Recorder.new⟩
    let errors := (start.analyses title m).2
    (∃ p, Session.HasRead ts p (start.analyses title m).1) ∧ errors.length = m ∧
      ∀ i e, errors[i]? = some (some e) →
        ∃ p, Session.HasRead ts p (start.analyses title (i + 1)).1 ∧
          e.found = ((ts[p]?).map Token.text).getD "" ∧
          e.position = (ts[p]?).map Token.position := by
  intro start errors
  have hlength : errors.length = m := Session.length_errors_analyses title m start
  refine ⟨Session.exists_hasRead title ts m, hlength, ?_⟩
  intro i e he
  obtain ⟨hi, -⟩ := List.getElem?_eq_some_iff.1 he
  rw [hlength] at hi
  obtain ⟨p, hread⟩ := Session.exists_hasRead title ts (i + 1)
  refine ⟨p, hread, ?_⟩
  -- the error is about the token that is current when its analysis is over
  have hcurrent := hread.stream
  rw [Session.getElem?_errors_analyses title hi start] at he
  rw [Session.session_analyses_succ] at hcurrent
  obtain ⟨hfound, hposition⟩ :=
    (tells_analyze title _ (start.analyses title i).1.stream).2 e (Option.some.inj he)
  have hrest : (analyze title (Builder.next (start.analyses title i).1.builder)
      (start.analyses title i).1.stream).rest = .ofTokens (ts.drop p) := hcurrent
  rw [hfound, hposition, hrest, ← List.head?_drop]
  cases ts.drop p with
  | nil => exact ⟨rfl, rfl⟩
  | cons t rest => exact ⟨rfl, rfl⟩

theorem Rule.stmtList_mem_productions :
    [.rule .stmtList, .terminal .endOfStream] ∈ Rule.program.productions :=
  List.mem_singleton.2 rfl

theorem Rule.nil_mem_productions : [] ∈ Rule.stmtList.productions := by
  decide

/-- A program without statements; `ending` is the lexeme at which the stream ends. -/
def Derivation.noStatements (ending : String) : Derivation [.rule .program] :=
  rule .program Rule.stmtList_mem_productions
    (rule .stmtList Rule.nil_mem_productions nil (terminal ⟨.endOfStream, ending⟩ nil)) nil

/-- The first analysis takes a token that looks like the end of the stream. The second one starts
behind it, and fails at a keyword that it leaves on the stream. -/
theorem tokens_consumed_once_in_order_twoReads :
    let ts : List Token := [⟨.endOfStream, "\u00a0", ⟨0, 2⟩, ⟨1, 1⟩⟩,
      ⟨.readWord, "read", ⟨2, 6⟩, ⟨1, 2⟩⟩, ⟨.readWord, "read", ⟨7, 11⟩, ⟨1, 7⟩⟩]
    let start : Session Recorder := ⟨.ofTokens ts, Recorder.new⟩
    let e : Diagnosis := ⟨.identifier, "read", ⟨7⟩, some ⟨1, 7⟩⟩
    (start.analyses "T" 2).2[1]? = some (some e) ∧
      ∃ p, Session.HasRead ts p (start.analyses "T" 2).1 ∧
        e.found = ((ts[p]?).map Token.text).getD "" ∧
        e.position = (ts[p]?).map Token.position := by
  intro ts start e
  have hread : start.stream.upcoming 1 = (Derivation.noStatements "\u00a0").leaves := rfl
  -- the first analysis takes the no-break space for the end of its program
  have hfirst : analyze "T" (Builder.next start.builder) start.stream = _ :=
    (Derivation.noStatements "\u00a0").analyze_eq "T" ⟨0⟩ hread
  have hstream : (start.analyze "T").1.stream = .ofTokens ts.tail :=
    congrArg Outcome.rest hfirst
  have hnext : Builder.next (start.analyze "T").1.builder = ⟨4⟩ := by
    rw [Session.builder_analyze, hfirst]
    rfl
  have hsecond : (analyze "T" (Builder.next (start.analyze "T").1.builder)
      (start.analyze "T").1.stream).error = some e := by
    rw [hstream, hnext]
    exact Analysis.run_error_of_endsWithin (n := 10) rfl
  have herror : (start.analyses "T" 2).2[1]? = some (some e) := by
    rw [Session.getElem?_errors_analyses "T" (by decide)]
    exact congrArg some hsecond
  exact ⟨herror, (tokens_consumed_once_in_order "T" ts 2).2.2 1 e herror⟩

end WhileSyntax
