import Mathlib.Logic.Relation
import WhileSyntax.Proofs.Answers
import WhileSyntax.Proofs.Logging
namespace WhileSyntax

/-! # The protocol of an analysis

The calls of an analysis come in preorder. Whatever is below a node is added before anything else
that is added next to the node, so each call names the latest node or a node above it
(`FollowsPath`), and the node of a terminal is done with once it holds its lexeme (`Filled`). Both
are shown part by part: the calls along a part of a derivation leave the node that they go under on
the open path, and they name none of the nodes that were made to the left of them.
-/

/-! ## The open path -/

/-- One of the calls adds the node `child` under the node `parent`. -/
def Adds (cs : List Call) (parent child : Handle) : Prop :=
  ∃ before label after, cs = before ++ .node parent label :: after ∧
    child = ⟨issuedBy 0 before⟩

/-- After the calls, the node is the latest one or lies above it. -/
def OnOpenPath (cs : List Call) (h : Handle) : Prop :=
  Relation.ReflTransGen (Adds cs) h ⟨issuedBy 0 cs - 1⟩

theorem Adds.append {cs : List Call} {p q : Handle} (h : Adds cs p q) (ds : List Call) :
    Adds (cs ++ ds) p q := by
  obtain ⟨before, label, after, rfl, hq⟩ := h
  exact ⟨before, label, after ++ ds, by simp, hq⟩

namespace OnOpenPath

variable {past cs : List Call} {p h : Handle} {x : Symbol} {c : Call}

/-- A new node is the latest one. -/
theorem latest (past : List Call) (p : Handle) (x : Symbol) :
    OnOpenPath (past ++ [.node p x]) ⟨issuedBy 0 past⟩ := by
  have hissued : issuedBy 0 (past ++ [.node p x]) - 1 = issuedBy 0 past := by
    simp [issuedBy_append, Call.issued, Call.issues]
  rw [OnOpenPath, hissued]

/-- With a node, the node that it was added to is on the path. -/
theorem above (hnode : OnOpenPath (past ++ .node p x :: cs) ⟨issuedBy 0 past⟩) :
    OnOpenPath (past ++ .node p x :: cs) p := by
  have hadds : Adds (past ++ .node p x :: cs) p ⟨issuedBy 0 past⟩ := ⟨past, x, cs, rfl, rfl⟩
  exact .head hadds hnode

/-- A call that makes no node leaves the path as it is. -/
theorem keep (hpath : OnOpenPath past h) (hc : c.issues = false) : OnOpenPath (past ++ [c]) h := by
  have hissued : issuedBy 0 (past ++ [c]) = issuedBy 0 past := by
    simp [issuedBy_append, Call.issued, hc]
  rw [OnOpenPath, hissued]
  exact Relation.ReflTransGen.mono (fun _ _ hadds => Adds.append hadds [c]) _ _ hpath

end OnOpenPath

/-- Each of the calls that come after `past` names a node on the open path. -/
def FollowsPath : List Call → List Call → Prop
  | _, [] => True
  | past, c :: cs =>
    (∀ h, c.target? = some h → OnOpenPath past h) ∧ FollowsPath (past ++ [c]) cs

theorem followsPath_append {past cs ds : List Call} :
    FollowsPath past (cs ++ ds) ↔ FollowsPath past cs ∧ FollowsPath (past ++ cs) ds := by
  induction cs generalizing past with
  | nil => simp [FollowsPath]
  | cons c cs ih => simp [FollowsPath, ih, and_assoc]

theorem FollowsPath.onOpenPath {past before after : List Call} {c : Call} {h : Handle}
    (hcs : FollowsPath past (before ++ c :: after)) (hc : c.target? = some h) :
    OnOpenPath (past ++ before) h :=
  (followsPath_append.1 hcs).2.1 h hc

section

variable {xs : List Symbol} {past : List Call} {p : Handle}

/-- The mark of an empty production goes to the latest node. -/
theorem followsPath_markOf (h : Handle) (hpath : OnOpenPath past h) (rhs : List Symbol) :
    FollowsPath past (markOf h rhs) ∧ OnOpenPath (past ++ markOf h rhs) h := by
  unfold markOf
  split
  · exact ⟨⟨fun q hq => Option.some.inj hq ▸ hpath, trivial⟩, hpath.keep rfl⟩
  · exact ⟨trivial, by simpa using hpath⟩

/-- The calls along a derivation name nodes on the open path, and leave the node that they go under
on it. -/
theorem Derivation.followsPath_calls (d : Derivation xs) {n : Nat} (hn : issuedBy 0 past = n)
    (hp : OnOpenPath past p) :
    FollowsPath past (d.calls p n) ∧ OnOpenPath (past ++ d.calls p n) p := by
  induction d generalizing past p n with
  | nil => exact ⟨trivial, by simpa [calls, actions] using hp⟩
  | terminal l rest ih =>
    subst hn
    -- the lexeme goes to the node that was just made, and leaves the path as it is
    have hnode := OnOpenPath.latest past p (.terminal l.kind)
    have hleaf := hnode.keep (c := .leaf ⟨issuedBy 0 past⟩ l.text) rfl
    rw [List.append_assoc] at hleaf
    have hissued : issuedBy 0 (past ++ [.node p (.terminal l.kind),
        .leaf ⟨issuedBy 0 past⟩ l.text]) = issuedBy 0 past + 1 := by
      simp [issuedBy_append, Call.issued, Call.issues]
    obtain ⟨hrest, hpath⟩ := ih hissued (OnOpenPath.above hleaf)
    refine ⟨?_, by simpa [calls_terminal] using hpath⟩
    rw [calls_terminal]
    refine ⟨by simpa [Call.target?] using hp, by simpa [Call.target?] using hnode, ?_⟩
    simpa using hrest
  | @rule xs r rhs hr below rest ihb ihr =>
    subst hn
    have hnode := OnOpenPath.latest past p (.rule r)
    obtain ⟨hmark, hmarked⟩ := followsPath_markOf ⟨issuedBy 0 past⟩ hnode rhs
    obtain ⟨hbelow, hdone⟩ := ihb (n := issuedBy 0 past + 1)
      (by rw [issuedBy_append, issuedBy_markOf, issuedBy_append]; rfl) hmarked
    -- what comes behind the rule goes under `p` again
    have habove : OnOpenPath (past ++ .node p (.rule r) :: (markOf ⟨issuedBy 0 past⟩ rhs ++
        below.calls ⟨issuedBy 0 past⟩ (issuedBy 0 past + 1))) p :=
      OnOpenPath.above (by simpa using hdone)
    obtain ⟨hrest, hpath⟩ := ihr (n := issuedBy 0 past + 1 + below.size)
      (by simp [issuedBy_append, Call.issued, Call.issues, issuedBy_calls]) habove
    rw [calls_rule]
    refine ⟨⟨by simpa [Call.target?] using hp, ?_⟩, by simpa using hpath⟩
    rw [followsPath_append, followsPath_append]
    exact ⟨⟨hmark, hbelow⟩, by simpa using hrest⟩

/-- So do those along a derivation that stops, and the error at which it stops. -/
theorem Stopped.followsPath_calls (d : Stopped xs) {n : Nat} (hn : issuedBy 0 past = n)
    (hp : OnOpenPath past p) (message : String) :
    FollowsPath past (d.calls p n ++ [.error (d.site p n) message]) := by
  induction d generalizing past p n with
  | before left k todo h =>
    obtain ⟨hleft, hpath⟩ := left.followsPath_calls hn hp
    rw [calls_before, followsPath_append]
    exact ⟨hleft, by simpa [FollowsPath, Call.target?, site] using hpath⟩
  | within left r hr below todo h ih =>
    obtain ⟨hleft, hpath⟩ := left.followsPath_calls hn hp
    have hissued : issuedBy 0 (past ++ left.calls p n) = n + left.size := by
      rw [issuedBy_append, hn, left.issuedBy_calls]
    -- the new node is the latest one when the calls below it come
    have hnode := OnOpenPath.latest (past ++ left.calls p n) p (.rule r)
    rw [hissued] at hnode
    have hbelow := ih (n := n + left.size + 1) (by rw [issuedBy_append, hissued]; rfl) hnode
    rw [calls_within, List.append_assoc, followsPath_append]
    exact ⟨hleft, by simpa [Call.target?] using hpath, hbelow⟩

end

/-! ## Terminals -/

/-- Each node of a terminal is given its lexeme by the very next call, and is not named again. -/
def Filled (n : Nat) (cs : List Call) : Prop :=
  ∀ before p k after, cs = before ++ .node p (.terminal k) :: after →
    ∃ text later, after = .leaf ⟨issuedBy n before⟩ text :: later ∧
      ∀ c ∈ later, c.target? ≠ some ⟨issuedBy n before⟩

namespace Filled

variable {n b : Nat} {p : Handle} {c : Call} {cs ds : List Call}

theorem nil (n : Nat) : Filled n [] := by
  intro before p k after hsplit
  simp at hsplit

/-- A call that makes no node of a terminal may come first. -/
theorem cons (hc : ∀ p k, c ≠ .node p (.terminal k)) (hcs : Filled (c.issued n) cs) :
    Filled n (c :: cs) := by
  intro before p k after hsplit
  cases before with
  | nil => exact absurd (List.cons.inj hsplit).1 (hc p k)
  | cons d before =>
    obtain ⟨rfl, hrest⟩ := List.cons.inj hsplit
    exact hcs before p k after hrest

/-- So may the node of a terminal with its lexeme, if the others leave it alone. -/
theorem terminal {k : TokenKind} {text : String} (hcs : Filled (n + 1) cs)
    (hconfined : Confined p (n + 1) b cs) (hp : p.index < n) :
    Filled n (.node p (.terminal k) :: .leaf ⟨n⟩ text :: cs) := by
  have hleaf : Filled (n + 1) (.leaf ⟨n⟩ text :: cs) := .cons (by simp) hcs
  intro before q j after hsplit
  cases before with
  | nil =>
    -- the node is this one: its leaf comes next, and later calls name `p` or newer nodes
    obtain ⟨-, rfl⟩ := List.cons.inj hsplit
    refine ⟨text, cs, rfl, fun c hc => hconfined.target_ne ?_ (.inl (Nat.lt_succ_self n)) hc⟩
    rintro rfl
    exact Nat.lt_irrefl n hp
  | cons d before =>
    obtain ⟨rfl, hrest⟩ := List.cons.inj hsplit
    exact hleaf before q j after hrest

/-- Calls may follow that name no node made by those before them. -/
theorem append {m : Nat} (hcs : Filled n cs) (hm : issuedBy n cs = m) (hds : Filled m ds)
    (hconfined : Confined p m b ds) (hp : p.index < n) : Filled n (cs ++ ds) := by
  subst hm
  intro before q k after hsplit
  rcases List.append_eq_append_iff.1 hsplit with ⟨mid, rfl, hds'⟩ | ⟨mid, hcs', hafter⟩
  · rw [issuedBy_append]
    exact hds mid q k after hds'
  · cases mid with
    | nil =>
      obtain rfl : cs = before := by simpa using hcs'
      exact hds [] q k after hafter.symm
    | cons x mid =>
      obtain ⟨rfl, rfl⟩ := List.cons.inj hafter
      -- the node was made among `cs`, so its handle is out of reach for `ds`
      have hlow := le_issuedBy n before
      have hhigh : issuedBy n before + 1 ≤ issuedBy n cs := by
        rw [hcs', issuedBy_append]
        exact le_issuedBy (issuedBy n before + 1) mid
      obtain ⟨text, later, rfl, hlater⟩ := hcs before q k mid hcs'
      refine ⟨text, later ++ ds, rfl, List.forall_mem_append.2 ⟨hlater, ?_⟩⟩
      refine fun d hd => hconfined.target_ne ?_ (.inl hhigh) hd
      rintro rfl
      exact Nat.lt_irrefl n (hlow.trans_lt hp)

theorem markOf (n : Nat) (h : Handle) (rhs : List Symbol) : Filled n (markOf h rhs) := by
  unfold WhileSyntax.markOf
  split
  · exact .cons (by simp) (.nil n)
  · exact .nil n

end Filled

section

variable {xs : List Symbol} {p : Handle} {n : Nat}

theorem Derivation.filled_calls (d : Derivation xs) (hp : p.index < n) :
    Filled n (d.calls p n) := by
  induction d generalizing p n with
  | nil => exact .nil n
  | terminal l rest ih =>
    rw [calls_terminal]
    exact .terminal (ih (Nat.lt_succ_of_lt hp)) (rest.confined_calls p (n + 1)) hp
  | @rule xs r rhs hr below rest ihb ihr =>
    -- the rule's node is no terminal, so only the calls below and to the right matter
    have hbelow : Filled (n + 1) (markOf ⟨n⟩ rhs ++ below.calls ⟨n⟩ (n + 1)) :=
      .append (.markOf (n + 1) ⟨n⟩ rhs) (issuedBy_markOf ..) (ihb (Nat.lt_succ_self n))
        (below.confined_calls ⟨n⟩ (n + 1)) (Nat.lt_succ_self n)
    have hissued : issuedBy (n + 1) (markOf ⟨n⟩ rhs ++ below.calls ⟨n⟩ (n + 1)) =
        n + 1 + below.size := by
      rw [issuedBy_append, issuedBy_markOf, below.issuedBy_calls]
    rw [calls_rule]
    exact .cons (by simp) (.append hbelow hissued (ihr (by omega)) (rest.confined_calls p _)
      (Nat.lt_succ_of_lt hp))

/-- The error, too, names the node that a stopped derivation goes under or one that it made. -/
theorem Stopped.confined_error (d : Stopped xs) (p : Handle) (n : Nat) (message : String) :
    Confined p n (n + d.size) (d.calls p n ++ [.error (d.site p n) message]) := by
  refine (d.confined_calls p n).append (.cons ?_ (.nil _ _ _))
  intro h ht
  obtain rfl := Option.some.inj ht
  exact d.site_eq_or_mem p n

theorem Stopped.filled_calls (d : Stopped xs) (hp : p.index < n) (message : String) :
    Filled n (d.calls p n ++ [.error (d.site p n) message]) := by
  induction d generalizing p n with
  | before left k todo h =>
    have herror : Confined p (n + left.size) 0 [.error p message] :=
      .cons (by simp [Call.target?]) (.nil _ _ _)
    rw [calls_before]
    exact .append (left.filled_calls hp) (left.issuedBy_calls p n) (.cons (by simp) (.nil _))
      herror hp
  | within left r hr below todo h ih =>
    have hbelow := below.confined_error ⟨n + left.size⟩ (n + left.size + 1) message
    -- seen from the left part, all that comes later names `p` or nodes that are yet to be made
    have hnode : Confined p (n + left.size) (n + left.size + 1 + below.size)
        (.node p (.rule r) :: (below.calls ⟨n + left.size⟩ (n + left.size + 1) ++
          [.error (below.site ⟨n + left.size⟩ (n + left.size + 1)) message])) := by
      refine .cons (by simp [Call.target?]) (hbelow.widen (.inr ⟨le_rfl, ?_⟩) ?_ le_rfl)
      · show n + left.size < _
        omega
      · omega
    rw [calls_within, List.append_assoc]
    exact .append (left.filled_calls hp) (left.issuedBy_calls p n)
      (.cons (by simp) (ih (Nat.lt_succ_self _))) hnode hp

end

/-! ## What is called -/

/-- Whether the call adds a node, a lexeme or the mark of an empty production. -/
def Call.adds : Call → Bool
  | .node .. | .leaf .. | .empty _ => true
  | .header _ | .error .. | .footer => false

section

variable {xs : List Symbol} {p : Handle} {n : Nat} {c : Call}

theorem Derivation.adds_of_mem_calls (d : Derivation xs) (hc : c ∈ d.calls p n) :
    c.adds = true := by
  induction d generalizing p n with
  | nil => exact absurd hc List.not_mem_nil
  | terminal l rest ih =>
    rw [calls_terminal, List.mem_cons, List.mem_cons] at hc
    rcases hc with rfl | rfl | hc
    · rfl
    · rfl
    · exact ih hc
  | rule r hr below rest ihb ihr =>
    rw [calls_rule, List.mem_cons, List.mem_append, List.mem_append] at hc
    rcases hc with rfl | (hc | hc) | hc
    · rfl
    · rw [eq_empty_of_mem_markOf hc]
      rfl
    · exact ihb hc
    · exact ihr hc

theorem Stopped.adds_of_mem_calls (d : Stopped xs) (hc : c ∈ d.calls p n) : c.adds = true := by
  induction d generalizing p n with
  | before left k todo h => exact left.adds_of_mem_calls hc
  | within left r hr below todo h ih =>
    rw [calls_within, List.mem_append, List.mem_cons] at hc
    rcases hc with hc | rfl | hc
    · exact left.adds_of_mem_calls hc
    · rfl
    · exact ih hc

end

/-! ## The whole protocol -/

/-- What a new builder can rely on in the calls of one analysis. -/
structure HonoursProtocol (title : String) (error : Option Diagnosis) (cs : List Call) : Prop where
  /-- A header comes first and the end comes last. In between there are only additions. -/
  framed : ∃ body, cs = .header title :: (body ++ [lastCall error]) ∧ ∀ c ∈ body, c.adds = true
  /-- The handles that are issued are numbered from 0 on, in the order of the calls. -/
  numbered : ∀ {β : Type} [Builder β] [Builder.Lawful β] {b : β}, Builder.next b = ⟨0⟩ →
    (Builder.answers b cs).filterMap id = (List.range (issuedBy 0 cs)).map Handle.mk
  /-- A call names the latest node or one above it. -/
  inPreorder : ∀ before c after, cs = before ++ c :: after → ∀ h, c.target? = some h →
    OnOpenPath before h
  /-- A terminal's node is given its lexeme at once, and is not named again. -/
  filled : Filled 0 cs

/-- A body of additions between a header and the last call honours the protocol, if it starts at the
root and keeps to the open path and to its terminals. -/
theorem HonoursProtocol.of_body {title : String} {error : Option Diagnosis} {body : List Call}
    (hadds : ∀ c ∈ body, c.adds = true)
    (hpath : FollowsPath [.header title] (body ++ [lastCall error]))
    (hfilled : Filled 1 (body ++ [lastCall error])) :
    HonoursProtocol title error (.header title :: (body ++ [lastCall error])) where
  framed := ⟨body, rfl, hadds⟩
  numbered hb := by
    rw [Builder.handles_answers hb, List.range_eq_range', Nat.sub_zero]
  inPreorder before c after hsplit h ht := by
    -- the header names no node
    have hcs : FollowsPath [] (.header title :: (body ++ [lastCall error])) :=
      ⟨by simp [Call.target?], hpath⟩
    rw [hsplit] at hcs
    exact hcs.onOpenPath ht
  filled := .cons (by simp) hfilled

/-- The calls of every analysis on a new builder honour the protocol, and no parse warns of
anything. -/
theorem analysis_honours_protocol :
    (∀ (title : String) (stream : TokenStream),
      let outcome := analyze title ⟨0⟩ stream
      HonoursProtocol title outcome.error (calls outcome.trace)) ∧
    ∀ (source : String), ∀ r ∈ (parse source).log, r.level ≠ .warn := by
  refine ⟨?_, fun source r hr => level_ne_warn hr⟩
  intro title stream outcome
  have hroot : OnOpenPath [.header title] ⟨0⟩ := .refl
  have hissued : issuedBy 0 [.header title] = 1 := rfl
  have hlow : (⟨0⟩ : Handle).index < 1 := Nat.zero_lt_one
  rcases calls_analyze title ⟨0⟩ stream with ⟨herror, d, hcalls⟩ | ⟨e, d, herror, hnode, hcalls⟩
  · rw [show outcome.error = none from herror, show calls outcome.trace = _ from hcalls]
    obtain ⟨hpath, _⟩ := d.followsPath_calls hissued hroot
    refine .of_body (fun c hc => d.adds_of_mem_calls hc) ?_ ?_
    · rw [followsPath_append]
      exact ⟨hpath, by simp [lastCall, Call.target?], trivial⟩
    · exact .append (d.filled_calls hlow) rfl (.cons (by simp [lastCall]) (.nil _))
        (.cons (by simp [lastCall, Call.target?]) (.nil ⟨0⟩ _ 0)) hlow
  · rw [show outcome.error = some e from herror, show calls outcome.trace = _ from hcalls]
    refine .of_body (fun c hc => d.adds_of_mem_calls hc) ?_ ?_
    · rw [lastCall, hnode]
      exact d.followsPath_calls hissued hroot e.message
    · rw [lastCall, hnode]
      exact d.filled_calls hlow e.message

/-- In `read x`, the second statement list goes under the first one, above the node of `x`. -/
theorem analysis_honours_protocol_readX :
    let outcome := analyze "T" ⟨0⟩ (.ofTokens [⟨.readWord, "read", ⟨0, 4⟩, ⟨1, 1⟩⟩,
      ⟨.identifier, "x", ⟨5, 6⟩, ⟨1, 6⟩⟩])
    let before : List Call := [.header "T", .node ⟨0⟩ (.rule .program), .node ⟨1⟩ (.rule .stmtList),
      .node ⟨2⟩ (.rule .stmt), .node ⟨3⟩ (.terminal .readWord), .leaf ⟨4⟩ "read",
      .node ⟨3⟩ (.terminal .identifier), .leaf ⟨5⟩ "x"]
    let after : List Call := [.empty ⟨6⟩, .node ⟨1⟩ (.terminal .endOfStream), .leaf ⟨7⟩ "", .footer]
    let record : LogRecord := ⟨.debug, "analysis started: PARSE TREE"⟩
    calls outcome.trace = before ++ .node ⟨2⟩ (.rule .stmtList) :: after ∧
      HonoursProtocol "T" outcome.error (calls outcome.trace) ∧ OnOpenPath before ⟨2⟩ ∧
      record ∈ (parse "read x").log ∧ record.level ≠ .warn := by
  intro outcome before after record
  have hcalls : calls outcome.trace = before ++ .node ⟨2⟩ (.rule .stmtList) :: after := by
    rw [show outcome = _ from (Derivation.readX "").analyze_eq "T" ⟨0⟩ rfl]
    rfl
  have hrecord : record ∈ (parse "read x").log := by
    obtain ⟨ls, last, _, hnotes, _⟩ := notes_analyze defaultTitle ⟨0⟩ (.ofSource "read x")
    have hrecord : record = ⟨.debug, "analysis started: " ++ defaultTitle⟩ := rfl
    rw [parse, parseTitled_log, traceOf, hnotes, hrecord]
    exact List.mem_cons_self ..
  have hprotocol := analysis_honours_protocol.1 "T" (.ofTokens [⟨.readWord, "read", ⟨0, 4⟩, ⟨1, 1⟩⟩,
    ⟨.identifier, "x", ⟨5, 6⟩, ⟨1, 6⟩⟩])
  exact ⟨hcalls, hprotocol, hprotocol.inPreorder before _ after hcalls ⟨2⟩ rfl, hrecord,
    analysis_honours_protocol.2 "read x" record hrecord⟩

end WhileSyntax
