import WhileSyntax.Proofs.Progress
namespace WhileSyntax

/-! # The trace of a derivation

A stream that shows the leaves of a derivation is analysed along that derivation: node by node in
preorder, each under the node of its parent. So the trace of an accepting analysis can be read off
a derivation (`Derivation.analyze_eq`).
-/

namespace Derivation

variable {xs : List Symbol}

/-- What an analysis does along a derivation under the node `parent`, with handles from `n` on. -/
def actions (parent : Handle) (n : Nat) {xs : List Symbol} : Derivation xs → List Action
  | nil => []
  | terminal l rest =>
    .call (.node parent (.terminal l.kind)) :: .note (Analysis.consumption l.kind l.text) ::
      .call (.leaf ⟨n⟩ l.text) :: rest.actions parent (n + 1)
  | @rule _ r rhs _ below rest =>
    .call (.node parent (.rule r)) :: (Analysis.emptyMark ⟨n⟩ rhs ++ below.actions ⟨n⟩ (n + 1) ++
      rest.actions parent (n + 1 + below.size))

/-- The first token that a stream shows of a derivation, and of what comes behind it. -/
theorem lookahead_eq_kind (d : Derivation xs) {s : TokenStream}
    (hread : s.upcoming d.leaves.length = d.leaves) :
    d.lookahead (s.skip d.leaves.length).kind = s.kind := by
  unfold lookahead
  split
  · next hnil => simp [hnil, TokenStream.skip]
  · next l ls hcons =>
    rw [hcons, List.length_cons, TokenStream.upcoming] at hread
    exact congrArg Leaf.kind (List.cons.inj hread).1.symm

/-- An analysis whose first goals are the symbols of a derivation goes along it, if the stream shows
its leaves and what comes behind them continues nothing. -/
theorem run_eq (d : Derivation xs) {stream : TokenStream} {n : Nat} {p : Handle}
    {rest : List Goal} {trace : List Action} (hread : stream.upcoming d.leaves.length = d.leaves)
    (hchain : Chained xs) (hbehind : endsAllAt xs (stream.skip d.leaves.length).kind) :
    Analysis.run ⟨stream, n, xs.map (⟨p, ·⟩) ++ rest, trace⟩ =
      Analysis.run ⟨stream.skip d.leaves.length, n + d.size, rest,
        (d.actions p n).reverse ++ trace⟩ := by
  induction d generalizing stream n p rest trace with
  | nil => rfl
  | terminal l ds ih =>
    obtain ⟨hl, hread⟩ := List.cons.inj hread
    have hlexeme : stream.lexeme = l.text := congrArg Leaf.text hl
    simp only [endsAllAt, Bool.and_eq_true] at hbehind
    have hkind : stream.kind = l.kind := congrArg Leaf.kind hl
    simp only [List.map_cons, List.cons_append]
    rw [Analysis.run_terminal hkind, ih hread hchain.2 hbehind.2]
    simp [leaves, size, actions, TokenStream.skip, hlexeme, Nat.add_assoc, Nat.add_comm 1]
  | @rule xs r rhs hr below ds ihb ihd =>
    rw [leaves, List.length_append, TokenStream.upcoming_add] at hread
    obtain ⟨hreadb, hreadd⟩ := List.append_inj hread (by simp)
    rw [leaves, List.length_append, TokenStream.skip_add] at hbehind
    -- the token behind the rule is the first of `ds`, or the one behind all symbols
    have hends := ds.endsAt_lookahead hchain hbehind
    rw [ds.lookahead_eq_kind hreadd] at hends
    -- so the current token predicts the production that the derivation applies
    have hpredict := predict_eq_of_derivation hr below fun _ => hends
    rw [below.lookahead_eq_kind hreadb] at hpredict
    have hbelow := endsAllAt_of_production r rhs hr _ hends
    have hchainb := chained_of_production r rhs hr
    simp only [endsAllAt, Bool.and_eq_true] at hbehind
    simp only [List.map_cons, List.cons_append]
    rw [Analysis.run_rule hpredict, ihb hreadb hchainb hbelow, ihd hreadd hchain.2 hbehind.2]
    simp [leaves, size, actions, TokenStream.skip_add, Nat.add_assoc, Nat.add_comm 1]

/-! ## Whole analyses -/

/-- A stream that shows the leaves of a program's derivation is analysed along it, and what follows
on the stream is left. -/
theorem analyze_eq (d : Derivation [.rule .program]) (title : String) (first : Handle)
    {stream : TokenStream} (hread : stream.upcoming d.leaves.length = d.leaves) :
    analyze title first stream =
      ⟨.note ⟨.debug, "analysis started: " ++ title⟩ :: .call (.header title) ::
        (d.actions first (first.index + 1) ++ Analysis.closing),
        none, stream.skip d.leaves.length⟩ := by
  -- behind a program no goal is left
  have hrun : (Analysis.start title first stream).run = _ :=
    (d.run_eq hread (by decide) rfl).trans Analysis.run_nil
  unfold analyze
  rw [hrun]
  simp

end Derivation

end WhileSyntax
