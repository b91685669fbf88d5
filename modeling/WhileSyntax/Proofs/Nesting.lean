import WhileSyntax.Proofs.Foresight
import WhileSyntax.Proofs.Printing
namespace WhileSyntax

/-! # How deep trees get

What bounds the depth of a tree is the number of tokens. A symbol leads a few levels down before it
takes a token (`Symbol.reach`). The longest way there is takes three levels for a token: from one
parenthesis to the next, over an expression, a term and a factor. An analysis has five levels to
begin with and gets three more with each token, and it has always enough of them left for what it
has still to derive (`Analysis.Nests`).
-/

/-! ## How far symbols lead down -/

namespace Symbol

/-- How many levels below its own the symbol can lead before a token is taken. -/
def reach : Symbol → Nat
  | .terminal .endOfStream => 1
  | .terminal _ => 0
  | .rule .factor | .rule .factorTail | .rule .termTail => 1
  | .rule .term | .rule .stmt => 2
  | .rule .expr | .rule .stmtList => 3
  | .rule .condition | .rule .program => 4

/-- How many tokens the symbol takes at least. The end of the stream is none. -/
def leastTokens : Symbol → Nat
  | .terminal .endOfStream => 0
  | .terminal _ => 1
  | .rule .program | .rule .stmtList | .rule .termTail | .rule .factorTail => 0
  | .rule .factor | .rule .term | .rule .expr => 1
  | .rule .stmt => 2
  | .rule .condition => 3

end Symbol

def leastTokensOf : List Symbol → Nat
  | [] => 0
  | x :: xs => x.leastTokens + leastTokensOf xs

/-- Side by side, none of the symbols leads further down than allowed, where each token allows
three levels more. -/
def StaysWithin (allowed : Nat) : List Symbol → Prop
  | [] => True
  | x :: xs => x.reach ≤ allowed ∧ StaysWithin (allowed + 3 * x.leastTokens) xs

instance StaysWithin.decidable (allowed : Nat) : ∀ xs, Decidable (StaysWithin allowed xs)
  | [] => isTrue trivial
  | x :: xs =>
    have := StaysWithin.decidable (allowed + 3 * x.leastTokens) xs
    inferInstanceAs (Decidable (_ ∧ _))

/-- A production lies one level below its rule. -/
theorem staysWithin_of_production : ∀ r : Rule, ∀ rhs ∈ r.productions,
    StaysWithin ((Symbol.rule r).reach - 1) rhs := by
  decide

theorem leastTokens_le_of_production : ∀ r : Rule, ∀ rhs ∈ r.productions,
    (Symbol.rule r).leastTokens ≤ leastTokensOf rhs := by
  decide

theorem reach_rule_pos : ∀ r : Rule, 0 < (Symbol.rule r).reach := by
  decide

/-- The lexeme of a terminal lies one level below the terminal. -/
theorem reach_terminal_pos (k : TokenKind) :
    0 < (Symbol.terminal k).reach + 3 * (Symbol.terminal k).leastTokens := by
  cases k <;> decide

/-! ## Goals at their levels -/

/-- None of the goals leads further down than allowed, where what goes under a node lies at the
level of the node and each token allows three levels more. -/
def Shallow (level : Handle → Nat) (allowed : Nat) : List Goal → Prop
  | [] => True
  | g :: gs => level g.parent + g.symbol.reach ≤ allowed ∧
      Shallow level (allowed + 3 * g.symbol.leastTokens) gs

namespace Shallow

variable {level other : Handle → Nat} {a allowed more : Nat} {gs rest : List Goal} {h : Handle}

theorem mono (hgs : Shallow level allowed gs) (hle : allowed ≤ more) : Shallow level more gs := by
  induction gs generalizing allowed more with
  | nil => trivial
  | cons g gs ih => exact ⟨hgs.1.trans hle, ih hgs.2 (Nat.add_le_add_right hle _)⟩

theorem congr (hgs : Shallow level allowed gs)
    (hlevel : ∀ g ∈ gs, other g.parent = level g.parent) : Shallow other allowed gs := by
  induction gs generalizing allowed with
  | nil => trivial
  | cons g gs ih =>
    rw [List.forall_mem_cons] at hlevel
    constructor
    · rw [hlevel.1]
      exact hgs.1
    · exact ih hgs.2 hlevel.2

/-- Symbols can be put in front if the tokens that they take make up for what was in their
place. -/
theorem prepend {xs : List Symbol} (hxs : StaysWithin a xs) (hlevel : level h + a ≤ allowed)
    (hrest : Shallow level (allowed + 3 * leastTokensOf xs) rest) :
    Shallow level allowed (xs.map (⟨h, ·⟩) ++ rest) := by
  induction xs generalizing a allowed with
  | nil => exact hrest
  | cons x xs ih =>
    rcases hxs with ⟨hx, hxs⟩
    constructor
    · show level h + x.reach ≤ allowed
      omega
    · rw [leastTokensOf, Nat.mul_add, ← Nat.add_assoc] at hrest
      -- what the first symbol takes is paid to those behind it
      have hmore : level h + (a + 3 * x.leastTokens) ≤ allowed + 3 * x.leastTokens := by
        omega
      exact ih hxs hmore hrest

end Shallow

/-! ## Depths in a growing record -/

/-- How deep additions to the node lie once the calls have been made. -/
def depthBelow (cs : List Call) (h : Handle) : Nat :=
  (wayUp (eventsOf 0 cs).reverse h).length

section

variable {cs : List Call} {c : Call} {h : Handle}

/-- A call names a node that has been made, if calls are scoped. -/
theorem Scoped.index_lt {n : Nat} (hcs : Scoped n cs) (hc : c ∈ cs) (hh : c.target? = some h) :
    h.index < issuedBy n cs := by
  rcases List.append_of_mem hc with ⟨before, after, rfl⟩
  have hlt := scoped_iff.1 hcs before c after rfl h hh
  rw [issuedBy_append]
  exact hlt.trans_le (le_issuedBy _ _)

/-- Later calls leave a node where it is. -/
theorem depthBelow_append (hh : h.index < issuedBy 0 cs) (ds : List Call) :
    depthBelow (cs ++ ds) h = depthBelow cs h := by
  rw [depthBelow, eventsOf_append, List.reverse_append, wayUp_eventsOf hh]
  rfl

/-- A new node lies one level below its parent. -/
theorem depthBelow_node (cs : List Call) (parent : Handle) (label : Symbol) (ds : List Call) :
    depthBelow (cs ++ .node parent label :: ds) ⟨issuedBy 0 cs⟩ = depthBelow cs parent + 1 := by
  have hnew : (⟨issuedBy 0 cs⟩ : Handle).index < issuedBy 0 (cs ++ [.node parent label]) := by
    rw [issuedBy_append]
    exact Nat.lt_succ_self _
  rw [List.append_cons, depthBelow_append hnew, depthBelow, eventsOf_append, List.reverse_append]
  simp [eventsOf, Call.event, wayUp, depthBelow]

/-- Each addition is as deep as those to its parent. -/
theorem placedEvents_eventsOf (cs : List Call) :
    placedEvents (eventsOf 0 cs) =
      cs.filterMap fun c => c.target?.map fun h => ⟨depthBelow cs h, c⟩ := by
  have hall : ∀ level : Handle → Nat,
      ((eventsOf 0 cs).filterMap fun e => e.call.target?.map fun h => ⟨level h, e.call⟩) =
        cs.filterMap fun c => c.target?.map fun h => (⟨level h, c⟩ : Placed) := by
    intro level
    conv_rhs => rw [← map_call_eventsOf 0 cs, List.filterMap_map]
    rfl
  exact hall (depthBelow cs)

end

/-! ## The depth of an analysis -/

/-- How deep additions may lie when so many tokens have been taken. -/
def deepest (taken : Nat) : Nat :=
  3 * taken + 5

/-- No call adds anything deeper than allowed. -/
def AddsWithin (allowed : Nat) (cs : List Call) : Prop :=
  ∀ c ∈ cs, ∀ h, c.target? = some h → depthBelow cs h ≤ allowed

namespace Analysis

variable {n : Nat} {s t : Analysis} {parent : Handle} {rest : List Goal} {ds : List Call}

/-- The number of tokens that have been taken of `n`. -/
def taken (n : Nat) (s : Analysis) : Nat :=
  n - s.stream.remaining.length

/-- An analysis of `n` tokens has not added anything deeper than the tokens allow that it has taken,
and none of its goals leads deeper than the tokens allow that are taken until then. -/
structure Nests (n : Nat) (s : Analysis) : Prop where
  scope : InScope 0 s
  left : s.stream.remaining.length ≤ n
  made : AddsWithin (deepest (s.taken n)) (calls s.trace.reverse)
  goals : Shallow (depthBelow (calls s.trace.reverse)) (deepest (s.taken n)) s.goals

theorem nests_start (title : String) (ts : List Token) :
    Nests ts.length (start title ⟨0⟩ (.ofTokens ts)) where
  scope := inScope_start title ⟨0⟩ _
  left := le_rfl
  made := by
    intro c hc h hh
    obtain rfl := List.mem_singleton.1 hc
    cases hh
  goals := by
    -- below the root a program leads four levels down
    have hlevel : depthBelow [.header title] ⟨0⟩ = 1 := rfl
    refine ⟨?_, trivial⟩
    show depthBelow [.header title] ⟨0⟩ + 4 ≤ deepest _
    rw [hlevel]
    exact Nat.le_add_left ..

/-- The first goal leads no deeper than the tokens allow that have been taken. -/
theorem Nests.reach_le {x : Symbol} (h : Nests n s) (hg : s.goals = ⟨parent, x⟩ :: rest) :
    depthBelow (calls s.trace.reverse) parent + x.reach ≤ deepest (s.taken n) := by
  have hgoals := h.goals
  rw [hg] at hgoals
  exact hgoals.1

/-- A new node lies one level below its parent, and everything else where it did. -/
theorem Nests.depths {x : Symbol} (h : Nests n s)
    (hcalls : calls t.trace.reverse = calls s.trace.reverse ++ .node parent x :: ds) :
    depthBelow (calls t.trace.reverse) ⟨s.next⟩ =
        depthBelow (calls s.trace.reverse) parent + 1 ∧
      ∀ q : Handle, q.index < s.next →
        depthBelow (calls t.trace.reverse) q = depthBelow (calls s.trace.reverse) q := by
  rw [hcalls, ← h.scope.issued]
  constructor
  · exact depthBelow_node _ parent x ds
  · intro q hq
    exact depthBelow_append hq _

/-- With a new node for the first goal, and with what is added to this node, an analysis stays
within its depth, if there is a level left for it and if the goals stay within. -/
theorem Nests.addNode {x : Symbol} (h : Nests n s) (hscope : InScope 0 t)
    (hg : s.goals = ⟨parent, x⟩ :: rest)
    (hcalls : calls t.trace.reverse = calls s.trace.reverse ++ .node parent x :: ds)
    (hds : ∀ c ∈ ds, c.target? = some ⟨s.next⟩)
    (hleft : t.stream.remaining.length ≤ s.stream.remaining.length)
    (hlevel : depthBelow (calls s.trace.reverse) parent + 1 ≤ deepest (t.taken n))
    (hgoals : Shallow (depthBelow (calls t.trace.reverse)) (deepest (t.taken n)) t.goals) :
    Nests n t := by
  have hparents := h.scope.parents
  rw [hg, List.forall_mem_cons] at hparents
  rcases h.depths hcalls with ⟨hnew, hkept⟩
  refine ⟨hscope, hleft.trans h.left, ?_, hgoals⟩
  intro c hc q hq
  rw [hcalls, List.mem_append, List.mem_cons] at hc
  rcases hc with hold | rfl | hbelow
  · -- an old call, whose node has kept its depth
    have hmade := h.made c hold q hq
    have hmore : s.taken n ≤ t.taken n := Nat.sub_le_sub_left hleft n
    have hlt := h.scope.targets.index_lt hold hq
    rw [h.scope.issued] at hlt
    rw [hkept q hlt]
    unfold deepest at hmade ⊢
    omega
  · -- the new node itself
    obtain rfl := Option.some.inj hq
    rw [hkept _ hparents.1]
    exact Nat.le_of_succ_le hlevel
  · -- what is added to the new node lies one level deeper than that
    rw [hds c hbelow] at hq
    obtain rfl := Option.some.inj hq
    omega

/-- The goals behind the first one stay within what they are allowed when it has been dealt with. -/
theorem Nests.behind {x : Symbol} (h : Nests n s) (hg : s.goals = ⟨parent, x⟩ :: rest)
    (hcalls : calls t.trace.reverse = calls s.trace.reverse ++ .node parent x :: ds) :
    Shallow (depthBelow (calls t.trace.reverse)) (deepest (s.taken n) + 3 * x.leastTokens)
      rest := by
  have hgoals := h.goals
  have hparents := h.scope.parents
  rw [hg] at hgoals hparents
  refine hgoals.2.congr ?_
  intro g hmem
  exact (h.depths hcalls).2 _ (hparents g (List.mem_cons_of_mem _ hmem))

/-- A token that is taken allows three levels more. -/
theorem deepest_consume {k : TokenKind} (hk : s.stream.kind = k)
    (hleft : s.stream.remaining.length ≤ n) :
    deepest (s.taken n) + 3 * (Symbol.terminal k).leastTokens ≤
      deepest ((s.consume parent k rest).taken n) := by
  have htail : (s.consume parent k rest).stream.remaining.length =
      s.stream.remaining.length - 1 := List.length_tail
  unfold taken deepest
  rw [htail]
  -- the end of the stream is no token and pays nothing
  by_cases hend : k = .endOfStream
  · subst hend
    have hnone : (Symbol.terminal .endOfStream).leastTokens = 0 := rfl
    omega
  · have hsome := length_pos_of_kind (hk ▸ hend)
    have hone : (Symbol.terminal k).leastTokens ≤ 1 := by cases k <;> decide
    omega

theorem Nests.consume {k : TokenKind} (h : Nests n s)
    (hg : s.goals = ⟨parent, .terminal k⟩ :: rest) (hk : s.stream.kind = k) :
    Nests n (s.consume parent k rest) := by
  have hcalls := s.calls_consume parent rest k
  have hpaid : deepest (s.taken n) + 3 * (Symbol.terminal k).leastTokens ≤
    deepest ((s.consume parent k rest).taken n) := deepest_consume hk h.left
  refine h.addNode (h.scope.consume hg) hg hcalls ?_ ?_ ?_ ?_
  · intro c hc
    rw [List.mem_singleton.1 hc]
    rfl
  · show s.stream.remaining.tail.length ≤ _
    rw [List.length_tail]
    exact Nat.sub_le ..
  · -- the lexeme lies below the terminal's node, which the terminal's reach has counted
    have hlexeme := reach_terminal_pos k
    have hreach := h.reach_le hg
    omega
  · exact (h.behind hg hcalls).mono hpaid

theorem Nests.expand {r : Rule} (h : Nests n s) (hg : s.goals = ⟨parent, .rule r⟩ :: rest) :
    Nests n (s.expand parent r rest) := by
  have hcalls := s.calls_expand parent rest r
  have hstream := s.stream_expand parent r rest
  have htaken : (s.expand parent r rest).taken n = s.taken n := by
    rw [taken, hstream, taken]
  have hpos := reach_rule_pos r
  have hreach := h.reach_le hg
  refine h.addNode (h.scope.expand hg) hg hcalls ?_ ?_ ?_ ?_
  · intro c hc
    rw [eq_empty_of_mem_markOf hc]
    rfl
  · rw [hstream]
  · rw [htaken]
    omega
  · -- the production lies below the new node, and takes as many tokens as the rule
    have hr := r.predict_mem_productions s.stream.kind
    have htokens := leastTokens_le_of_production r _ hr
    have hnew := (h.depths hcalls).1
    rw [goals_expand, htaken]
    refine Shallow.prepend (staysWithin_of_production r _ hr) ?_ ((h.behind hg hcalls).mono ?_)
    · omega
    · omega

theorem nests_run (title : String) (ts : List Token) :
    Nests ts.length (start title ⟨0⟩ (.ofTokens ts)).run.1 := by
  refine run_induction ?_ ?_ (nests_start title ts)
  · intro s parent k rest hg hk h
    exact h.consume hg hk
  · intro s parent r rest hg h
    exact h.expand hg

end Analysis

/-! ## Whole analyses -/

/-- No addition of an analysis lies deeper than its tokens allow. -/
theorem addsWithin_analyze (title : String) (ts : List Token) :
    AddsWithin (deepest ts.length) (calls (analyze title ⟨0⟩ (.ofTokens ts)).trace) := by
  have hrun := Analysis.nests_run title ts
  have htaken : deepest ((Analysis.start title ⟨0⟩ (.ofTokens ts)).run.1.taken ts.length) ≤
      deepest ts.length := by
    unfold deepest Analysis.taken
    omega
  rw [calls_analyze_eq_run]
  intro c hc h hh
  rcases List.mem_append.1 hc with hmade | hlast
  · rw [depthBelow_append (hrun.scope.targets.index_lt hmade hh)]
    exact (hrun.made c hmade h hh).trans htaken
  · obtain rfl := List.mem_singleton.1 hlast
    cases herror : (analyze title ⟨0⟩ (.ofTokens ts)).error with
    | none =>
      rw [herror] at hh
      cases hh
    | some e =>
      -- the error goes under the node of the first goal that is left
      rcases Analysis.goals_of_run_eq_some herror with ⟨parent, k, rest, hgoals, -, rfl⟩
      rw [herror] at hh
      obtain rfl : parent = h := Option.some.inj hh
      have hparents := hrun.scope.parents
      rw [hgoals, List.forall_mem_cons, ← hrun.scope.issued] at hparents
      have hreach := hrun.reach_le hgoals
      rw [depthBelow_append hparents.1]
      exact (Nat.le_of_add_right_le hreach).trans htaken

/-- An analysis begins with the program and its statements, and then it adds to the statements. -/
theorem exists_calls_analyze (title : String) (stream : TokenStream) :
    ∃ c x more, c.target? = some ⟨2⟩ ∧ c.element? = some x ∧
      calls (analyze title ⟨0⟩ stream).trace = [.header title, .node ⟨0⟩ (.rule .program),
        .node ⟨1⟩ (.rule .stmtList)] ++ c :: more := by
  -- what an analysis has done after some steps it has done in the end
  have hprefix : ∀ s : Analysis, (Analysis.start title ⟨0⟩ stream).run = s.run →
      ∃ more, calls (analyze title ⟨0⟩ stream).trace = calls s.trace.reverse ++ more := by
    intro s hs
    rcases s.calls_prefix_run with ⟨more, hmore⟩
    refine ⟨more ++ [lastCall (analyze title ⟨0⟩ stream).error], ?_⟩
    rw [calls_analyze_eq_run, hs, ← hmore, List.append_assoc]
  have hprogram : (Analysis.start title ⟨0⟩ stream).run = Analysis.run
      ⟨stream, 2, [⟨⟨1⟩, .rule .stmtList⟩, ⟨⟨1⟩, .terminal .endOfStream⟩],
        .call (.node ⟨0⟩ (.rule .program)) :: (Analysis.start title ⟨0⟩ stream).trace⟩ :=
    Analysis.run_rule rfl
  -- a list of statements gets the mark of an empty one or a statement
  by_cases hstarts : stream.kind.startsStatement = true
  · have hlist : Rule.stmtList.predict stream.kind = moreStatements := if_pos hstarts
    have hstmt := (hprogram.trans (Analysis.run_rule hlist)).trans (Analysis.run_rule rfl)
    rcases hprefix _ hstmt with ⟨more, hcalls⟩
    refine ⟨.node ⟨2⟩ (.rule .stmt), .node (.rule .stmt),
      markOf ⟨3⟩ (Rule.stmt.predict stream.kind) ++ more, rfl, rfl, ?_⟩
    rw [hcalls]
    simp [Analysis.start, moreStatements, markOf]
  · have hlist : Rule.stmtList.predict stream.kind = [] := if_neg hstarts
    rcases hprefix _ (hprogram.trans (Analysis.run_rule hlist)) with ⟨more, hcalls⟩
    refine ⟨.empty ⟨2⟩, .empty, more, rfl, rfl, ?_⟩
    rw [hcalls]
    simp [Analysis.start, Analysis.emptyMark]

/-! ## Whole trees -/

/-- What a parse lists are the additions of its calls, each as deep as those to its parent. -/
theorem mem_listing_iff {title source : String} {e : Entry} :
    e ∈ (parseTitled title source).tree.listing ↔
      ∃ c ∈ calls (traceOf title source), ∃ h, c.target? = some h ∧ c.element? = some e.element ∧
        e.depth = depthBelow (calls (traceOf title source)) h := by
  -- no call is refused, so the listing has an entry for each call that adds something
  have hlisting : (parseTitled title source).tree.listing =
      ((calls (traceOf title source)).filterMap fun c => c.target?.map fun h =>
        ⟨depthBelow (calls (traceOf title source)) h, c⟩).filterMap Placed.entry? := by
    rw [parseTitled_tree, Assembler.finish_told, listing_planted,
      (placedCalls_traceOf title source).2, parseTitled_events, placedEvents_eventsOf]
  rw [hlisting, List.mem_filterMap]
  constructor
  · rintro ⟨p, hp, he⟩
    rcases List.mem_filterMap.1 hp with ⟨c, hc, hp⟩
    rcases Option.map_eq_some_iff.1 hp with ⟨h, hh, rfl⟩
    rcases Option.map_eq_some_iff.1 he with ⟨x, hx, rfl⟩
    exact ⟨c, hc, h, hh, hx, rfl⟩
  · rintro ⟨c, hc, h, hh, hx, hdepth⟩
    refine ⟨⟨depthBelow (calls (traceOf title source)) h, c⟩, List.mem_filterMap.2 ⟨c, hc, ?_⟩, ?_⟩
    · rw [hh]
      rfl
    · show c.element?.map _ = some e
      rw [hx, ← hdepth]
      rfl

namespace ParseTree

/-- The depth of what lies deepest in the tree. -/
def height (t : ParseTree) : Nat :=
  (t.listing.map Entry.depth).max?.getD 0

theorem depth_le_height {t : ParseTree} {e : Entry} (he : e ∈ t.listing) : e.depth ≤ t.height :=
  List.le_max?_getD_of_mem (List.mem_map_of_mem he)

/-- Something lies as deep as the tree is high, unless there is nothing in it. -/
theorem exists_depth_eq_height {t : ParseTree} (ht : t.listing ≠ []) :
    ∃ e ∈ t.listing, e.depth = t.height := by
  cases hmax : (t.listing.map Entry.depth).max? with
  | none => exact absurd (List.map_eq_nil_iff.1 (List.max?_eq_none_iff.1 hmax)) ht
  | some depth =>
    rcases List.mem_map.1 (List.max?_mem hmax) with ⟨e, he, rfl⟩
    refine ⟨e, he, ?_⟩
    rw [height, hmax]
    rfl

end ParseTree

/-- The tree of a parse has at least three levels below its root, and at most five and three for
each token. -/
theorem height_parseTitled (title source : String) :
    3 ≤ (parseTitled title source).tree.height ∧
      (parseTitled title source).tree.height ≤ deepest (scan source).length := by
  rcases exists_calls_analyze title (.ofSource source) with ⟨c, x, more, htarget, hx, hcalls⟩
  -- the third node is on the third level, and something is added to it
  have hthird : depthBelow (calls (traceOf title source)) ⟨2⟩ = 3 := by
    rw [traceOf, hcalls]
    exact depthBelow_append (Nat.lt_succ_self 2) (c :: more)
  have hmem : ⟨3, x⟩ ∈ (parseTitled title source).tree.listing := by
    refine mem_listing_iff.2 ⟨c, ?_, ⟨2⟩, htarget, hx, hthird.symm⟩
    rw [traceOf, hcalls]
    simp
  constructor
  · exact ParseTree.depth_le_height hmem
  · rcases ParseTree.exists_depth_eq_height (List.ne_nil_of_mem hmem) with ⟨e, he, hheight⟩
    rcases mem_listing_iff.1 he with ⟨d, hd, h, hh, -, hdepth⟩
    rw [← hheight, hdepth]
    exact addsWithin_analyze title (scan source) d hd h hh

/-- Both bounds are reached: by the empty source, and by parentheses in a condition. -/
example :
    (parseTitled "T" "").tree.height = 3 ∧
      (parseTitled "T" "if (((").tree.height = deepest (scan "if (((").length := by
  decide +kernel

end WhileSyntax
