import Mathlib.Data.List.Forall2
import WhileSyntax.Proofs.Blame
import WhileSyntax.Proofs.Logging
namespace WhileSyntax

/-! # The log as an account of the run

An analysis notes what it does, and neither the replay of its events nor the assembler has a word to
add. So the log of a parse agrees with the rest of the parse, record by record: one for the start,
one for each leaf, with the kind of the node that the leaf is under, and one for the end
(`log_narrates_run`). Calls and notes have the terminals in common that were consumed: both tell of
them, in the same order (`exists_tells_notes`).
-/

def Event.isLeaf : Event → Bool
  | .leaf .. => true
  | _ => false

/-- The record tells of the lexeme that the event adds, and of the kind of the terminal whose node
it adds the lexeme to. -/
def Event.IsNoted (events : List Event) (e : Event) (r : LogRecord) : Prop :=
  ∃ h lexeme k, e = .leaf h lexeme ∧ labelsOf events h = [.terminal k] ∧
    r = ⟨.trace, "consumed " ++ k.label ++ " " ++ Text.quote lexeme⟩

namespace Parse

def leaves (p : Parse) : List Event :=
  p.events.filter Event.isLeaf

/-- The token of the source behind those that have been consumed; none at the end of the source. -/
def next? (source : String) (p : Parse) : Option Token :=
  (scan source)[p.leaves.length]?

/-- The record of how a parse ends: if there is an error, with the place of the token that it is
about, unless it is about the end of the source. -/
def lastRecord (source : String) (p : Parse) : LogRecord :=
  match p.error, p.next? source with
  | none, _ => ⟨.debug, "analysis finished"⟩
  | some e, some t => ⟨.error, t.position.render ++ ": " ++ e.message⟩
  | some e, none => ⟨.error, e.message⟩

end Parse

/-! ## Leaves and terminals -/

/-- The terminals that calls tell of have leaves among their events, each under a node of its
kind. -/
theorem Tells.forall₂_leaves {n : Nat} {cs : List Call} {ls : List Leaf} (h : Tells n cs ls)
    {events : List Event} (hevents : eventsOf n cs ⊆ events) :
    List.Forall₂ (fun e l => ∃ p h, e = .leaf h l.text ∧ .node p h (.terminal l.kind) ∈ events)
      ((eventsOf n cs).filter Event.isLeaf) ls := by
  induction h with
  | nil n => exact .nil
  | @terminal n cs ls p l rest ih =>
    -- the node is made right before the leaf, so it is among the events
    rw [eventsOf_terminal] at hevents ⊢
    have hnode := hevents List.mem_cons_self
    have hrest : eventsOf (n + 1) cs ⊆ events :=
      fun e he => hevents (List.mem_cons_of_mem _ (List.mem_cons_of_mem _ he))
    rw [List.filter_cons_of_neg Bool.false_ne_true, List.filter_cons_of_pos rfl]
    exact .cons ⟨p, ⟨n⟩, rfl, hnode⟩ (ih hrest)
  | @other n c cs ls hc rest ih =>
    -- only a terminal has a leaf
    have hleaf : ¬ (c.event n).isLeaf = true := by
      cases c with
      | leaf p text => cases hc
      | _ => exact Bool.false_ne_true
    rw [eventsOf] at hevents ⊢
    rw [List.filter_cons_of_neg hleaf]
    exact ih (List.Subset.trans (List.subset_cons_self ..) hevents)

namespace TokenStream

variable {ts : List Token} {ls : List Leaf} {rest : TokenStream}

/-- Behind what a stream of tokens has shown comes the token of that number. -/
theorem Shows.next_of_tokens (h : (ofTokens ts).Shows ls rest) :
    rest.lexeme = ((ts[ls.length]?).map Token.text).getD "" ∧
      rest.position? = (ts[ls.length]?).map Token.position := by
  have hrest : rest = ofTokens (ts.drop ls.length) := by rw [← h.2, skip_ofTokens]
  rw [hrest, ← List.head?_drop]
  cases ts.drop ls.length with
  | nil => exact ⟨rfl, rfl⟩
  | cons t later => exact ⟨rfl, rfl⟩

end TokenStream

/-! ## Whole parses -/

/-- The log of a parse holds one record that it has started, one for each event of a leaf, in their
order, with the kind of the node that the leaf is under, and one of how it has ended; and nothing
else. An error is about the token behind those that were consumed. -/
theorem log_narrates_run (title source : String) :
    (∃ consumed, (parseTitled title source).log = ⟨.debug, "analysis started: " ++ title⟩ ::
        (consumed ++ [(parseTitled title source).lastRecord source]) ∧
      List.Forall₂ (Event.IsNoted (parseTitled title source).events)
        (parseTitled title source).leaves consumed) ∧
    ∀ e, (parseTitled title source).error = some e →
      e.found = (((parseTitled title source).next? source).map Token.text).getD "" ∧
        e.position = ((parseTitled title source).next? source).map Token.position := by
  rcases exists_tells_notes title ⟨0⟩ (.ofSource source) with ⟨ls, htells, hshows, hnotes⟩
  have hevents := parseTitled_events title source
  have hleaves := htells.forall₂_leaves (List.Subset.refl _)
  have hnodup := nodup_made 0 (calls (traceOf title source))
  have hcount : (parseTitled title source).leaves.length = ls.length := by
    rw [Parse.leaves, hevents]
    exact hleaves.length_eq
  -- where the analysis fails, the current token is the one behind the leaves
  have hfailed : ∀ e, (parseTitled title source).error = some e →
      e.found = (((parseTitled title source).next? source).map Token.text).getD "" ∧
        e.position = ((parseTitled title source).next? source).map Token.position := by
    intro e he
    rcases (tells_analyze title ⟨0⟩ (.ofSource source)).2 e he with ⟨hfound, hposition⟩
    rcases hshows.next_of_tokens with ⟨hlexeme, hplace⟩
    rw [Parse.next?, hcount, hfound, hposition]
    exact ⟨hlexeme, hplace⟩
  have hlast : (parseTitled title source).lastRecord source =
      lastNote (parseTitled title source).error := by
    unfold Parse.lastRecord
    cases herror : (parseTitled title source).error with
    | none => rfl
    | some e =>
      have hposition := (hfailed e herror).2
      show _ = e.record
      rw [Diagnosis.record, hposition]
      cases (parseTitled title source).next? source with
      | none => rfl
      | some t => rfl
  refine ⟨⟨ls.map fun l => Analysis.consumption l.kind l.text, ?_, ?_⟩, hfailed⟩
  · rw [parseTitled_log, hlast]
    exact hnotes
  · rw [List.forall₂_map_right_iff, Parse.leaves, hevents]
    refine hleaves.imp ?_
    rintro e l ⟨p, h, rfl, hnode⟩
    exact ⟨h, l.text, l.kind, rfl, labelsOf_eq_of_mem hnodup hnode, rfl⟩

/-- The word `read` has been consumed, and the number behind it is the second token. The record of
the error begins with its place. -/
theorem log_narrates_run_readOne :
    let p := parseTitled "T" "read\n1"
    p.error = some ⟨.identifier, "1", ⟨3⟩, some ⟨2, 1⟩⟩ ∧ p.leaves = [.leaf ⟨4⟩ "read"] ∧
      (p.next? "read\n1").map Token.text = some "1" ∧
      ∃ r, Event.IsNoted p.events (.leaf ⟨4⟩ "read") r ∧
        p.log = [⟨.debug, "analysis started: T"⟩, r,
          ⟨.error, "2:1: SYNTAX ERROR: 'an ID' was expected but '1' was found."⟩] := by
  intro p
  have herror : p.error = some ⟨.identifier, "1", ⟨3⟩, some ⟨2, 1⟩⟩ := by
    rw [parseTitled_error, analyze_error]
    exact Analysis.run_error_of_endsWithin (n := 20) (by decide +kernel)
  have hleaves : p.leaves = [.leaf ⟨4⟩ "read"] := by decide +kernel
  have hlast : p.lastRecord "read\n1" =
      ⟨.error, "2:1: SYNTAX ERROR: 'an ID' was expected but '1' was found."⟩ := by decide +kernel
  rcases log_narrates_run "T" "read\n1" with ⟨⟨consumed, hlog, hnoted⟩, hfound⟩
  have hnext : (p.next? "read\n1").map Token.text = some "1" := by
    have htext := (hfound _ herror).1
    cases hnext : p.next? "read\n1" with
    | none =>
      rw [hnext] at htext
      exact absurd htext (by decide)
    | some t =>
      rw [hnext] at htext
      exact congrArg some htext.symm
  rw [hleaves] at hnoted
  -- one leaf, so one record between the first and the last
  rcases List.forall₂_cons_left_iff.1 hnoted with ⟨r, later, hr, hlater, rfl⟩
  rw [List.forall₂_nil_left_iff.1 hlater, hlast] at hlog
  exact ⟨herror, hleaves, hnext, r, hr, hlog⟩

end WhileSyntax
