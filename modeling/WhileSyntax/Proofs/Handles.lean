import WhileSyntax.Proofs.Calls
import WhileSyntax.Proofs.Stopped
namespace WhileSyntax

/-! # The handles of a derivation

The calls along a derivation under the node `p`, with handles counted from `n` on, issue one handle
for each node of its trees and name no node but `p` and those (`Derivation.confined_calls`). So what
is said about one part of a tree is not touched by what comes to the left or to the right of it.
-/

/-- The calls name only the node `p` and nodes with handles from `a` on and below `b`. -/
def Confined (p : Handle) (a b : Nat) (cs : List Call) : Prop :=
  ∀ c ∈ cs, ∀ h, c.target? = some h → h = p ∨ a ≤ h.index ∧ h.index < b

namespace Confined

variable {p q h : Handle} {a b i j : Nat} {c : Call} {cs ds : List Call}

theorem nil (p : Handle) (a b : Nat) : Confined p a b [] :=
  fun _ hc => absurd hc List.not_mem_nil

theorem cons (hc : ∀ h, c.target? = some h → h = p ∨ a ≤ h.index ∧ h.index < b)
    (hcs : Confined p a b cs) : Confined p a b (c :: cs) :=
  List.forall_mem_cons.2 ⟨hc, hcs⟩

theorem append (hcs : Confined p a b cs) (hds : Confined p a b ds) : Confined p a b (cs ++ ds) :=
  List.forall_mem_append.2 ⟨hcs, hds⟩

/-- More nodes may be named, if the node of old is one of them. -/
theorem widen (hcs : Confined q i j cs) (hq : q = p ∨ a ≤ q.index ∧ q.index < b) (ha : a ≤ i)
    (hb : j ≤ b) : Confined p a b cs := by
  intro c hc h ht
  rcases hcs c hc h ht with rfl | ⟨hi, hj⟩
  · exact hq
  · exact .inr ⟨ha.trans hi, hj.trans_le hb⟩

/-- No other node is named. -/
theorem target_ne (hcs : Confined p a b cs) (hp : h ≠ p) (hout : h.index < a ∨ b ≤ h.index)
    (hc : c ∈ cs) : c.target? ≠ some h := by
  intro ht
  rcases hcs c hc h ht with rfl | ⟨ha, hb⟩
  · exact hp rfl
  · omega

end Confined

@[simp] theorem issuedBy_nil (n : Nat) : issuedBy n [] = n := rfl

@[simp] theorem issuedBy_cons (n : Nat) (c : Call) (cs : List Call) :
    issuedBy n (c :: cs) = issuedBy (c.issued n) cs := rfl

/-! ## The mark of an empty production -/

/-- The call that marks an empty production at the node `h`; other productions have none. -/
def markOf (h : Handle) (rhs : List Symbol) : List Call :=
  if rhs = [] then [.empty h] else []

@[simp] theorem calls_emptyMark (h : Handle) (rhs : List Symbol) :
    calls (Analysis.emptyMark h rhs) = markOf h rhs := by
  by_cases hrhs : rhs = [] <;> simp [Analysis.emptyMark, markOf, hrhs]

theorem eq_empty_of_mem_markOf {h : Handle} {rhs : List Symbol} {c : Call}
    (hc : c ∈ markOf h rhs) : c = .empty h := by
  unfold markOf at hc
  split at hc
  · exact List.mem_singleton.1 hc
  · simp at hc

@[simp] theorem issuedBy_markOf (n : Nat) (h : Handle) (rhs : List Symbol) :
    issuedBy n (markOf h rhs) = n := by
  by_cases hrhs : rhs = [] <;> simp [markOf, hrhs, Call.issued, Call.issues]

theorem confined_markOf (p : Handle) (n b : Nat) (rhs : List Symbol) (hb : n < b) :
    Confined p n b (markOf ⟨n⟩ rhs) := by
  intro c hc h ht
  rw [eq_empty_of_mem_markOf hc] at ht
  obtain rfl := Option.some.inj ht
  exact .inr ⟨le_rfl, hb⟩

/-! ## The calls of a step -/

namespace Analysis

variable (s : Analysis) (parent : Handle) (rest : List Goal)

/-- To consume a token makes a node and its leaf. -/
theorem calls_consume (k : TokenKind) :
    calls (s.consume parent k rest).trace.reverse = calls s.trace.reverse ++
      [.node parent (.terminal k), .leaf ⟨s.next⟩ s.stream.lexeme] := by
  simp [Analysis.consume]

/-- To expand a rule makes its node, and the mark of an empty production. -/
theorem calls_expand (r : Rule) :
    calls (s.expand parent r rest).trace.reverse = calls s.trace.reverse ++
      .node parent (.rule r) :: markOf ⟨s.next⟩ (r.predict s.stream.kind) := by
  rw [expand_eq rfl]
  simp

theorem next_expand (r : Rule) : (s.expand parent r rest).next = s.next + 1 := by
  rw [expand_eq rfl]

theorem goals_expand (r : Rule) : (s.expand parent r rest).goals =
    (r.predict s.stream.kind).map (⟨⟨s.next⟩, ·⟩) ++ rest := by
  rw [expand_eq rfl]

end Analysis

/-! ## Along a derivation -/

namespace Derivation

variable {xs : List Symbol}

def calls {xs : List Symbol} (d : Derivation xs) (p : Handle) (n : Nat) : List Call :=
  WhileSyntax.calls (d.actions p n)

theorem calls_terminal (l : Leaf) (rest : Derivation xs) (p : Handle) (n : Nat) :
    (terminal l rest).calls p n =
      .node p (.terminal l.kind) :: .leaf ⟨n⟩ l.text :: rest.calls p (n + 1) :=
  rfl

theorem calls_rule {r : Rule} {rhs : List Symbol} (hr : rhs ∈ r.productions)
    (below : Derivation rhs) (rest : Derivation xs) (p : Handle) (n : Nat) :
    (rule r hr below rest).calls p n =
      .node p (.rule r) :: (markOf ⟨n⟩ rhs ++ below.calls ⟨n⟩ (n + 1) ++
        rest.calls p (n + 1 + below.size)) := by
  simp [calls, actions]

/-- A derivation issues a handle for each node of its trees. -/
theorem issuedBy_calls (d : Derivation xs) (p : Handle) (n : Nat) :
    issuedBy n (d.calls p n) = n + d.size := by
  induction d generalizing p n with
  | nil => rfl
  | terminal l rest ih =>
    have hcalls : issuedBy n ((terminal l rest).calls p n) =
      issuedBy (n + 1) (rest.calls p (n + 1)) := rfl
    rw [hcalls, ih, size]
    omega
  | rule r hr below rest ihb ihr =>
    rw [calls_rule, issuedBy_cons, issuedBy_append, issuedBy_append, issuedBy_markOf]
    have hnode : (Call.node p (.rule r)).issued n = n + 1 := rfl
    rw [hnode, ihb, ihr, size]
    omega

/-- A derivation names the node that it goes under and the nodes that it makes. -/
theorem confined_calls (d : Derivation xs) (p : Handle) (n : Nat) :
    Confined p n (n + d.size) (d.calls p n) := by
  induction d generalizing p n with
  | nil => exact .nil p n _
  | terminal l rest ih =>
    rw [calls_terminal, size]
    refine .cons (by simp [Call.target?]) (.cons ?_ ?_)
    · simp [Call.target?]
    · exact (ih p (n + 1)).widen (.inl rfl) (by omega) (by omega)
  | rule r hr below rest ihb ihr =>
    rw [calls_rule, size]
    refine .cons (by simp [Call.target?]) (.append (.append ?_ ?_) ?_)
    · exact confined_markOf p n _ _ (by omega)
    · -- below the new node, which has the handle `n`
      exact (ihb ⟨n⟩ (n + 1)).widen (.inr ⟨le_rfl, by simp⟩) (by omega) (by omega)
    · -- to the right, under `p` again
      exact (ihr p (n + 1 + below.size)).widen (.inl rfl) (by omega) (by omega)

end Derivation

/-! ## Along a derivation that stops -/

namespace Stopped

variable {xs done rhs todo : List Symbol}

def calls {xs : List Symbol} (d : Stopped xs) (p : Handle) (n : Nat) : List Call :=
  WhileSyntax.calls (d.actions p n)

theorem calls_before (left : Derivation done) (k : TokenKind)
    (h : xs = done ++ .terminal k :: todo) (p : Handle) (n : Nat) :
    (before left k todo h).calls p n = left.calls p n :=
  rfl

theorem calls_within (left : Derivation done) {r : Rule} (hr : rhs ∈ r.productions)
    (below : Stopped rhs) (h : xs = done ++ .rule r :: todo) (p : Handle) (n : Nat) :
    (within left r hr below todo h).calls p n = left.calls p n ++ .node p (.rule r) ::
      below.calls ⟨n + left.size⟩ (n + left.size + 1) := by
  simp [calls, actions, Derivation.calls]

theorem confined_calls (d : Stopped xs) (p : Handle) (n : Nat) :
    Confined p n (n + d.size) (d.calls p n) := by
  induction d generalizing p n with
  | before left k todo h => exact left.confined_calls p n
  | within left r hr below todo h ih =>
    rw [calls_within, size]
    refine .append ?_ (.cons (by simp [Call.target?]) ?_)
    · exact (left.confined_calls p n).widen (.inl rfl) le_rfl (by omega)
    · -- below the node that it stops under
      refine (ih ⟨n + left.size⟩ (n + left.size + 1)).widen (.inr ⟨Nat.le_add_right .., ?_⟩) ?_ ?_
      · show n + left.size < _
        omega
      · omega
      · omega

/-- It stops at the node that it goes under or at a node that it has made. -/
theorem site_eq_or_mem (d : Stopped xs) (p : Handle) (n : Nat) :
    d.site p n = p ∨ n ≤ (d.site p n).index ∧ (d.site p n).index < n + d.size := by
  induction d generalizing p n with
  | before left k todo h => exact .inl rfl
  | within left r hr below todo h ih =>
    rw [site, size]
    rcases ih ⟨n + left.size⟩ (n + left.size + 1) with heq | ⟨hlow, hhigh⟩
    · rw [heq]
      exact .inr ⟨Nat.le_add_right .., by simp; omega⟩
    · exact .inr ⟨by omega, by omega⟩

end Stopped

/-! ## Whole analyses -/

def lastCall : Option Diagnosis → Call
  | none => .footer
  | some e => .error e.node e.message

/-- What an analysis calls last of all depends on its error alone. -/
theorem calls_analyze_eq_run (title : String) (first : Handle) (stream : TokenStream) :
    calls (analyze title first stream).trace =
      calls (Analysis.start title first stream).run.1.trace.reverse ++
        [lastCall (analyze title first stream).error] := by
  rw [analyze_trace, calls_append, analyze_error]
  cases (Analysis.start title first stream).run.2 <;> rfl

/-- The calls of an analysis: a header, those along a derivation, and a footer; or a header, those
along a derivation that stops, and the error where it stops. -/
theorem calls_analyze (title : String) (first : Handle) (stream : TokenStream) :
    let outcome := analyze title first stream
    (outcome.error = none ∧ ∃ d : Derivation [.rule .program],
      calls outcome.trace = .header title :: (d.calls first (first.index + 1) ++ [.footer])) ∨
    ∃ (e : Diagnosis) (d : Stopped [.rule .program]), outcome.error = some e ∧
      e.node = d.site first (first.index + 1) ∧
      calls outcome.trace =
        .header title :: (d.calls first (first.index + 1) ++ [.error e.node e.message]) := by
  intro outcome
  rcases analyze_cases title first stream with ⟨d, rest, _, houtcome⟩ | ⟨d, rest, _, _, houtcome⟩
  · -- accepted: the calls of a derivation between header and footer
    refine .inl ⟨congrArg Outcome.error houtcome, d, ?_⟩
    rw [show outcome = _ from houtcome, calls_note, calls_call, calls_append]
    rfl
  · -- failed: those up to where it stops, between header and error
    refine .inr ⟨_, d, congrArg Outcome.error houtcome, rfl, ?_⟩
    rw [show outcome = _ from houtcome, calls_note, calls_call, calls_append]
    rfl

end WhileSyntax
