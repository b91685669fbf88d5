import WhileSyntax.Proofs.Language
import WhileSyntax.Proofs.Lookahead
import WhileSyntax.Proofs.Run
import WhileSyntax.Proofs.Upcoming
namespace WhileSyntax

/-! # How an analysis stands to the grammar

After some tokens, the goals of an analysis yield exactly what can follow these tokens in a program
and begins with the current token. This is the invariant of a run (`Analysis.Stands`); what it says
about the last state of a run tells which token lists are accepted and where an error is reported.
-/

def Analysis.symbols (s : Analysis) : List Symbol :=
  s.goals.map Goal.symbol

/-- The analysis has taken `n` tokens of the stream `origin`, and its goals are what a program that
begins with these tokens still needs. The converse holds for the current token only, which is all
that the analysis has looked at. -/
structure Analysis.Stands (origin : TokenStream) (n : Nat) (s : Analysis) : Prop where
  stream : s.stream = origin.skip n
  chained : Chained s.symbols
  sound : ∀ ls, Yields s.symbols ls → Yields [.rule .program] (origin.upcoming n ++ ls)
  complete : ∀ l ls, l.kind = s.stream.kind →
    Yields [.rule .program] (origin.upcoming n ++ l :: ls) → Yields s.symbols (l :: ls)

namespace Analysis

variable {origin : TokenStream} {n : Nat} {s : Analysis} {parent : Handle} {rest : List Goal}

theorem symbols_of_goals {x : Symbol} (hg : s.goals = ⟨parent, x⟩ :: rest) :
    s.symbols = x :: rest.map Goal.symbol := by
  simp [symbols, hg]

theorem symbols_expand (s : Analysis) (parent : Handle) (r : Rule) (rest : List Goal) :
    (s.expand parent r rest).symbols = r.predict s.stream.kind ++ rest.map Goal.symbol := by
  simp [expand_eq rfl, symbols, Function.comp_def]

theorem stream_expand (s : Analysis) (parent : Handle) (r : Rule) (rest : List Goal) :
    (s.expand parent r rest).stream = s.stream := by
  simp [expand_eq rfl]

/-! ## The invariant -/

theorem stands_start (title : String) (first : Handle) (origin : TokenStream) :
    Stands origin 0 (start title first origin) where
  stream := rfl
  chained := (by decide : Chained [.rule .program])
  sound := fun _ h => h
  complete := fun _ _ _ h => h

theorem Stands.consume {k : TokenKind} (h : Stands origin n s)
    (hg : s.goals = ⟨parent, .terminal k⟩ :: rest) (hk : s.stream.kind = k) :
    Stands origin (n + 1) (s.consume parent k rest) := by
  have hsymbols := symbols_of_goals hg
  have hleaf : (origin.skip n).leaf.kind = k := by rw [← h.stream]; exact hk
  refine ⟨?_, ?_, ?_, ?_⟩
  · rw [TokenStream.skip_succ, ← h.stream]
    rfl
  · have hchain := h.chained
    rw [hsymbols] at hchain
    exact hchain.2
  · -- what can follow the terminal can follow its leaf
    intro ls hls
    have hyields : Yields s.symbols ((origin.skip n).leaf :: ls) := by
      rw [hsymbols]
      exact Yields.terminal_cons_iff.2 ⟨_, ls, rfl, hleaf, hls⟩
    simpa [TokenStream.upcoming_succ] using h.sound _ hyields
  · -- and what continues a program behind the leaf meets the goals that are left
    intro l ls _ hprogram
    rw [TokenStream.upcoming_succ, List.append_assoc] at hprogram
    have hyields := h.complete _ _ (hleaf.trans hk.symm) hprogram
    rw [hsymbols] at hyields
    obtain ⟨m, ms, heq, _, hms⟩ := Yields.terminal_cons_iff.1 hyields
    obtain ⟨rfl, rfl⟩ := List.cons.inj heq
    exact hms

theorem Stands.expand {r : Rule} (h : Stands origin n s)
    (hg : s.goals = ⟨parent, .rule r⟩ :: rest) : Stands origin n (s.expand parent r rest) := by
  have hsymbols := symbols_of_goals hg
  have hchain := h.chained
  rw [hsymbols] at hchain
  refine ⟨?_, ?_, ?_, ?_⟩
  · rw [stream_expand, h.stream]
  · rw [symbols_expand]
    exact hchain.expand (r.predict_mem_productions _)
  · intro ls hls
    rw [symbols_expand] at hls
    obtain ⟨ms, ns, rfl, hms, hns⟩ := Yields.append_iff.1 hls
    refine h.sound _ ?_
    rw [hsymbols]
    exact Yields.rule_cons_iff.2 ⟨_, r.predict_mem_productions _, ms, ns, rfl, hms, hns⟩
  · intro l ls hl hprogram
    rw [stream_expand] at hl
    have hyields := h.complete l ls hl hprogram
    rw [hsymbols] at hyields
    obtain ⟨rhs, hr, ms, ns, heq, ⟨below, rfl⟩, ⟨behind, rfl⟩⟩ := Yields.rule_cons_iff.1 hyields
    -- the current token is the first of `below`, or the first of `behind` if `below` is empty
    have hlookahead : below.lookahead s.stream.kind = s.stream.kind := by
      unfold Derivation.lookahead
      split
      · rfl
      · next m ms hm => simp_all
    -- an empty production is predicted only where the rule may end
    have hends : below.leaves = [] → (Symbol.rule r).endsAt s.stream.kind := by
      intro hnil
      have hbehind : behind.leaves = l :: ls := by simpa [hnil] using heq.symm
      have hbegins := behind.begins_of_head? (by simp [hbehind] : behind.leaves.head? = some l)
      exact endsAt_of_precedes r _ (hl ▸ hchain.1 _ hbegins)
    have hpredict := predict_eq_of_derivation hr below hends
    rw [hlookahead] at hpredict
    rw [symbols_expand, hpredict, heq]
    exact Yields.append ⟨below, rfl⟩ ⟨behind, rfl⟩

/-- Where a run ends, the goals are still what the tokens taken so far need. -/
theorem exists_stands_run (title : String) (first : Handle) (origin : TokenStream) :
    ∃ n, Stands origin n (start title first origin).run.1 := by
  refine run_induction (P := fun s => ∃ n, Stands origin n s) ?_ ?_ ?_
  · rintro s parent k rest hg hk ⟨n, h⟩
    exact ⟨n + 1, h.consume hg hk⟩
  · rintro s parent r rest hg ⟨n, h⟩
    exact ⟨n, h.expand hg⟩
  · exact ⟨0, stands_start title first origin⟩

end Analysis

end WhileSyntax
