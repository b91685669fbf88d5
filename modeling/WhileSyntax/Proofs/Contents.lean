import WhileSyntax.Tree.Layout
import WhileSyntax.Proofs.Consumption
import WhileSyntax.Proofs.Printing
import WhileSyntax.Proofs.Protocol
namespace WhileSyntax

/-! # What the parts of a parse tell

The error of a parse comes from the analysis. Its events are what a recorder kept of the calls, and
its tree is what an assembler made of the events; an assembler may ignore calls and move what they
add. Of the calls of an analysis it ignores none: the tree is made of what the events add
(`elements_parseTitled`). So the three parts tell of the same lexemes and of the same error
(`parse_coherent`).
-/

/-! ## The elements of a tree -/

def Element.lexeme? : Element → Option String
  | .lexeme text => some text
  | _ => none

def Element.message? : Element → Option String
  | .error message => some message
  | _ => none

def Event.element? (e : Event) : Option Element :=
  e.call.element?

theorem filterMap_element?_eq (events : List Event) :
    events.filterMap Event.element? = (events.map Event.call).filterMap Call.element? := by
  rw [List.filterMap_map]
  rfl

namespace ParseTree

/-- What the tree is made of, in preorder. -/
def elements (t : ParseTree) : List Element :=
  t.listing.map Entry.element

/-- The text of the tree: the texts of the stored tree from left to right. -/
def text (t : ParseTree) : String :=
  String.join (t.pieces.filterMap Piece.text)

variable (t : ParseTree)

theorem lexemes_eq_filterMap_elements : t.lexemes = t.elements.filterMap Element.lexeme? := by
  unfold elements lexemes
  rw [List.filterMap_map]
  refine List.filterMap_congr fun e _ => ?_
  cases h : e.element <;> rcases e with ⟨depth, x⟩ <;> cases h <;> rfl

theorem errorMessage?_eq_findSome?_elements :
    t.errorMessage? = t.elements.findSome? Element.message? := by
  unfold elements errorMessage?
  rw [List.findSome?_map]
  congr 1
  funext e
  rcases e with ⟨depth, x⟩
  cases x <;> rfl

theorem text_eq_join_elements : t.text = String.join (t.elements.map Element.text) := by
  -- what is no text has none to add
  have hparts : ∀ xs : List Element,
      String.join ((xs.flatMap Element.parts).filterMap Prod.snd) =
        String.join (xs.map Element.text) := by
    intro xs
    induction xs with
    | nil => rfl
    | cons x xs ih =>
      rw [List.flatMap_cons, List.filterMap_append, String.join_append, ih, List.map_cons,
        String.join_cons]
      cases x <;> simp [Element.parts, Element.text]
  -- where the pieces stand does not matter to the text
  have hpieces : t.pieces.filterMap Piece.text = (t.pieces.map Piece.part).filterMap Prod.snd := by
    rw [List.filterMap_map]
    rfl
  rw [text, hpieces, map_part_pieces, List.filterMap_cons_none rfl, hparts, elements, listing_eq,
    Tree.map_element_entriesOfAll]

end ParseTree

/-- Where nothing has failed, the text is that of the lexemes. -/
theorem join_map_text {xs : List Element} (hxs : ∀ x ∈ xs, x.message? = none) :
    String.join (xs.map Element.text) = String.join (xs.filterMap Element.lexeme?) := by
  induction xs with
  | nil => rfl
  | cons x xs ih =>
    rw [List.forall_mem_cons] at hxs
    rw [List.map_cons, String.join_cons, ih hxs.2]
    cases x with
    | error message => cases hxs.1
    | lexeme text =>
      have hsome : (Element.lexeme text).lexeme? = some text := rfl
      rw [List.filterMap_cons_some hsome, String.join_cons]
      rfl
    | node label => exact String.empty_append
    | empty => exact String.empty_append

/-! ## What calls add -/

/-- No addition of a derivation is an error. -/
theorem Call.message?_of_adds {c : Call} (hc : c.adds = true) {x : Element}
    (hx : c.element? = some x) : x.message? = none := by
  cases c with
  | error parent message => cases hc
  | _ => cases hx <;> rfl

/-- A tree is made of what the calls add that have a place in it. -/
theorem elements_planted (cs : List Call) :
    (planted cs).elements = ((placedCalls cs).map Placed.call).filterMap Call.element? := by
  rw [ParseTree.elements, listing_planted, List.map_filterMap, List.filterMap_map]
  refine List.filterMap_congr fun p _ => ?_
  rw [Placed.entry?, Option.map_map, Function.comp_apply]
  exact Option.map_id'

variable (title source : String)

/-- The tree of a parse is made of what the events add, in their order. -/
theorem elements_parseTitled :
    (parseTitled title source).tree.elements =
      (parseTitled title source).events.filterMap Event.element? := by
  have htree : (parseTitled title source).tree = planted (calls (traceOf title source)) :=
    (parseTitled_tree title source).trans (Assembler.finish_told _)
  -- the assembler says nothing about these calls, so all of them are placed
  rw [htree, elements_planted, (placedCalls_traceOf title source).2, map_call_placedEvents,
    List.filterMap_filter, List.filterMap_map]
  refine List.filterMap_congr fun e _ => ?_
  unfold Event.element?
  rw [Function.comp_apply]
  cases e.call <;> rfl

/-- Between a header and the last call, the events of a parse record additions. -/
theorem exists_additions :
    ∃ body, (∀ c ∈ body, c.adds = true) ∧ (parseTitled title source).events.map Event.call =
      .header title :: (body ++ [lastCall (parseTitled title source).error]) := by
  rw [parseTitled_events, map_call_eventsOf, parseTitled_error]
  rcases calls_analyze title ⟨0⟩ (.ofSource source) with
    ⟨herror, d, hcalls⟩ | ⟨e, d, herror, -, hcalls⟩
  · rw [herror]
    exact ⟨_, fun c hc => d.adds_of_mem_calls hc, hcalls⟩
  · rw [herror]
    exact ⟨_, fun c hc => d.adds_of_mem_calls hc, hcalls⟩

/-- The tree of a parse is made of elements that are no errors, and of the message of the error if
there is one. -/
theorem exists_elements :
    ∃ xs, (∀ x ∈ xs, x.message? = none) ∧ (parseTitled title source).tree.elements =
      xs ++ ((parseTitled title source).error.map fun e => Element.error e.message).toList := by
  rcases exists_additions title source with ⟨body, hbody, hevents⟩
  refine ⟨body.filterMap Call.element?, ?_, ?_⟩
  · -- the calls before the last one add no error
    intro x hx
    rcases List.mem_filterMap.1 hx with ⟨c, hc, hcx⟩
    exact Call.message?_of_adds (hbody c hc) hcx
  · rw [elements_parseTitled, filterMap_element?_eq, hevents, List.filterMap_cons_none rfl,
      List.filterMap_append]
    cases (parseTitled title source).error <;> rfl

theorem errorMessage?_parseTitled :
    (parseTitled title source).tree.errorMessage? =
      (parseTitled title source).error.map Diagnosis.message := by
  rcases exists_elements title source with ⟨xs, hxs, helements⟩
  rw [ParseTree.errorMessage?_eq_findSome?_elements, helements, List.findSome?_append,
    List.findSome?_eq_none_iff.2 hxs]
  cases (parseTitled title source).error <;> rfl

/-- The text of the tree of a parse: its lexemes, and the message behind them if there is one. -/
theorem text_parseTitled :
    (parseTitled title source).tree.text =
      String.join (parseTitled title source).tree.lexemes ++
        (parseTitled title source).tree.errorMessage?.getD "" := by
  rcases exists_elements title source with ⟨xs, hxs, helements⟩
  rw [ParseTree.text_eq_join_elements, ParseTree.lexemes_eq_filterMap_elements, helements,
    List.map_append, String.join_append, join_map_text hxs, List.filterMap_append,
    String.join_append, errorMessage?_parseTitled]
  cases (parseTitled title source).error with
  | none => simp
  | some e =>
    have hnone : (Element.error e.message).lexeme? = none := rfl
    simp [Element.text, hnone]

/-! ## The last call -/

section

variable {body : List Call} {error : Option Diagnosis}

/-- Between additions and the header, only the last call can be about an error. -/
theorem error_mem_framed_iff (hbody : ∀ c ∈ body, c.adds = true) {h : Handle} {message : String} :
    .error h message ∈ .header title :: (body ++ [lastCall error]) ↔
      ∃ e, error = some e ∧ h = e.node ∧ message = e.message := by
  have hnot : .error h message ∉ body := fun hmem => Bool.noConfusion (hbody _ hmem)
  cases error with
  | none => simp [hnot, lastCall]
  | some e => simp [hnot, lastCall]

theorem footer_mem_framed_iff (hbody : ∀ c ∈ body, c.adds = true) :
    .footer ∈ .header title :: (body ++ [lastCall error]) ↔ error = none := by
  have hnot : .footer ∉ body := fun hmem => Bool.noConfusion (hbody _ hmem)
  cases error with
  | none => simp [lastCall]
  | some e => simp [hnot, lastCall]

end

/-- A call that issues no handle has one event only. -/
theorem event_mem_iff (events : List Event) {c : Call} (hc : c.issues = false) :
    c.event 0 ∈ events ↔ c ∈ events.map Event.call := by
  rw [List.mem_map]
  constructor
  · intro hmem
    exact ⟨_, hmem, c.call_event 0⟩
  · rintro ⟨e, hmem, rfl⟩
    -- a call that issues no handle is its event, whatever the number
    cases e with
    | header root title => cases hc
    | node parent child label => cases hc
    | _ => exact hmem

/-! ## Agreement -/

/-- The parts of a parse tell the same. -/
structure Parse.Coherent (title : String) (p : Parse) : Prop where
  /-- The tree has the title. -/
  title : p.tree.title = title
  /-- The tree has the lexemes of the events. -/
  lexemes : p.tree.lexemes = p.events.filterMap Event.lexeme?
  /-- The tree holds a message just when there is an error. -/
  failed_iff_message : p.error.isSome ↔ p.tree.errorMessage?.isSome
  /-- There is an event of an error just when there is an error. -/
  failed_iff_event : p.error.isSome ↔ ∃ h message, .error h message ∈ p.events
  /-- The footer is missing just when there is an error. -/
  failed_iff_footer : p.error.isSome ↔ .footer ∉ p.events
  /-- The message in the tree is that of the error. -/
  message : ∀ e, p.error = some e → p.tree.errorMessage? = some e.message
  /-- The last event tells of the error, at its node. -/
  last : ∀ e, p.error = some e → p.events.getLast? = some (.error e.node e.message)
  /-- The text of the tree is made of the lexemes, and the message behind them if there is one. -/
  text : p.tree.text = String.join p.tree.lexemes ++ p.tree.errorMessage?.getD ""

/-- The error, the events and the tree of a parse tell of the same title, lexemes and error. -/
theorem parse_coherent : (parseTitled title source).Coherent title := by
  rcases exists_additions title source with ⟨body, hbody, hevents⟩
  have hmessage := errorMessage?_parseTitled title source
  constructor
  case title => rw [parseTitled_tree, Assembler.finish_told, (placedCalls_traceOf title source).1]
  case lexemes =>
    rw [ParseTree.lexemes_eq_filterMap_elements, elements_parseTitled, List.filterMap_filterMap]
    -- tree and events are read by the elements, which know the lexemes
    refine List.filterMap_congr fun e _ => ?_
    cases e <;> rfl
  case failed_iff_message => rw [hmessage, Option.isSome_map]
  case failed_iff_event =>
    constructor
    · intro h
      rcases Option.isSome_iff_exists.1 h with ⟨e, he⟩
      refine ⟨e.node, e.message, (event_mem_iff _ (c := .error e.node e.message) rfl).2 ?_⟩
      rw [hevents, error_mem_framed_iff title hbody]
      exact ⟨e, he, rfl, rfl⟩
    · rintro ⟨h, message, hmem⟩
      -- no call before the last one is an error
      have hcall := (event_mem_iff _ (c := .error h message) rfl).1 hmem
      rw [hevents, error_mem_framed_iff title hbody] at hcall
      rcases hcall with ⟨e, he, -, -⟩
      exact Option.isSome_iff_exists.2 ⟨e, he⟩
  case failed_iff_footer =>
    have hfooter := event_mem_iff (parseTitled title source).events (c := .footer) rfl
    rw [hevents, footer_mem_framed_iff title hbody] at hfooter
    exact Option.isSome_iff_ne_none.trans (not_congr hfooter).symm
  case message =>
    intro e he
    rw [hmessage, he]
    rfl
  case last =>
    intro e he
    -- the call that ends the analysis is the last one, and it issues no handle
    have hlast := congrArg List.getLast? hevents
    rw [List.getLast?_map, he, ← List.cons_append, List.getLast?_concat,
      Option.map_eq_some_iff] at hlast
    rcases hlast with ⟨f, hf, hcall⟩
    rw [hf]
    cases f <;> cases hcall
    rfl
  case text => exact text_parseTitled title source

/-- The number is where a variable should be. The message has become part of the tree's text. -/
theorem parse_coherent_readOne :
    (parseTitled "T" "read 1").error = some ⟨.identifier, "1", ⟨3⟩, some ⟨1, 6⟩⟩ ∧
      (parseTitled "T" "read 1").events.getLast? = some (.error ⟨3⟩
        "SYNTAX ERROR: 'an ID' was expected but '1' was found.") ∧
      (parseTitled "T" "read 1").tree.errorMessage? =
        some "SYNTAX ERROR: 'an ID' was expected but '1' was found." := by
  have herror : (parseTitled "T" "read 1").error = some ⟨.identifier, "1", ⟨3⟩, some ⟨1, 6⟩⟩ := by
    rw [parseTitled_error, analyze_error]
    exact Analysis.run_error_of_endsWithin (n := 20) (by decide +kernel)
  have hmessage : Diagnosis.message ⟨.identifier, "1", ⟨3⟩, some ⟨1, 6⟩⟩ =
      "SYNTAX ERROR: 'an ID' was expected but '1' was found." := by decide
  -- what the error says is computed, and where its message appears is not
  have hcoherent := parse_coherent "T" "read 1"
  have hlast := hcoherent.last _ herror
  have hheld := hcoherent.message _ herror
  rw [hmessage] at hlast hheld
  exact ⟨herror, hlast, hheld⟩

end WhileSyntax
