import WhileSyntax.Proofs.Contents
import WhileSyntax.Proofs.Quoting
import WhileSyntax.Proofs.Tiling
namespace WhileSyntax

/-! # Reading a printed tree

A printed tree has a line for each element. Without an indent its lines do not even say how deep the
elements lie, and they never say which handles their nodes had. Still the lines say everything. The
elements can be told from their lines (`elements_eq_of_lines`), and with the symbols still to be
derived at hand the calls can be told from the elements (`Unfolds.calls_eq`): a rule's production is
told by the first element below the rule's node.
-/

/-! ## The calls that goals can lead to -/

/-- Calls that an analysis may make to meet its goals, when it has issued `n` handles before. It
looks at no token, so each production of a rule is open to it, and it may fail at each terminal. -/
inductive Unfolds : Nat → List Goal → List Call → Prop where
  | done (n : Nat) : Unfolds n [] [.footer]
  | stop (n : Nat) (p : Handle) (k : TokenKind) (rest : List Goal) (message : String) :
    Unfolds n (⟨p, .terminal k⟩ :: rest) [.error p message]
  | consume {n : Nat} (p : Handle) (k : TokenKind) {rest : List Goal} (lexeme : String)
    {cs : List Call} : Unfolds (n + 1) rest cs →
    Unfolds n (⟨p, .terminal k⟩ :: rest) (.node p (.terminal k) :: .leaf ⟨n⟩ lexeme :: cs)
  | expand {n : Nat} (p : Handle) {r : Rule} {rest : List Goal} {rhs : List Symbol}
    {cs : List Call} : rhs ∈ r.productions → Unfolds (n + 1) (rhs.map (⟨⟨n⟩, ·⟩) ++ rest) cs →
    Unfolds n (⟨p, .rule r⟩ :: rest) (.node p (.rule r) :: (markOf ⟨n⟩ rhs ++ cs))

/-- The calls that are still to come when a run begins. -/
theorem Analysis.exists_unfolds_run (s : Analysis) :
    ∃ cs, Unfolds s.next s.goals cs ∧
      calls s.run.1.trace.reverse ++ [lastCall s.run.2] = calls s.trace.reverse ++ cs := by
  -- along the run: a step makes the calls of one goal, and the rest comes from the next state
  fun_induction Analysis.run s with
  | case1 s t hstep ih =>
    rcases ih with ⟨cs, hcs, hcalls⟩
    rcases s.step_cases with
      ⟨_, h⟩ | ⟨p, k, rest, hg, _, h⟩ | ⟨_, _, _, _, _, h⟩ | ⟨p, r, rest, hg, h⟩
    · cases hstep.symm.trans h
    · cases hstep.symm.trans h
      rw [hg]
      refine ⟨_, .consume p k s.stream.lexeme hcs, ?_⟩
      rw [hcalls]
      simp [Analysis.consume]
    · cases hstep.symm.trans h
    · cases hstep.symm.trans h
      rw [expand_eq rfl] at hcs hcalls
      rw [hg]
      refine ⟨_, .expand p (r.predict_mem_productions s.stream.kind) hcs, ?_⟩
      rw [expand_eq rfl, hcalls]
      simp
  | case2 s hstep =>
    have hgoals : s.goals = [] := by
      have hrun := goals_of_run_eq_none (s := s) (by rw [run_of_succeeds hstep])
      rwa [run_of_succeeds hstep] at hrun
    rw [hgoals]
    exact ⟨[.footer], .done s.next, rfl⟩
  | case3 s e hstep =>
    rcases goals_of_run_eq_some (s := s) (by rw [run_of_fails hstep]) with
      ⟨p, k, rest, hgoals, -, he⟩
    rw [run_of_fails hstep] at hgoals he
    rw [hgoals]
    refine ⟨_, .stop s.next p k rest e.message, ?_⟩
    rw [he]
    rfl

/-- The calls of an analysis unfold from the start rule. -/
theorem exists_unfolds_analyze (title : String) (first : Handle) (stream : TokenStream) :
    ∃ cs, Unfolds (first.index + 1) [⟨first, .rule .program⟩] cs ∧
      calls (analyze title first stream).trace = .header title :: cs := by
  rcases (Analysis.start title first stream).exists_unfolds_run with ⟨cs, hcs, hcalls⟩
  refine ⟨cs, hcs, ?_⟩
  rw [calls_analyze_eq_run, analyze_error, hcalls]
  rfl

/-! ## From elements to calls -/

/-- Productions of a rule that begin alike are the same. -/
theorem Rule.production_eq_of_head? (r : Rule) : ∀ rhs ∈ r.productions, ∀ other ∈ r.productions,
    rhs.head? = other.head? → rhs = other := by
  cases r <;> decide

namespace Unfolds

variable {n : Nat} {p : Handle} {x : Symbol} {rest goals : List Goal} {cs ds : List Call}

/-- The first call deals with the first goal: it makes its node, or the analysis ends there. -/
theorem cons_cases (h : Unfolds n (⟨p, x⟩ :: rest) cs) :
    (∃ message, cs = [.error p message]) ∨ ∃ more, cs = .node p x :: more := by
  cases h with
  | stop => exact .inl ⟨_, rfl⟩
  | consume => exact .inr ⟨_, rfl⟩
  | expand => exact .inr ⟨_, rfl⟩

/-- The first element below the node of a rule tells the production, or the analysis has failed
there, and then it does not matter. -/
theorem production_eq {m : Nat} {r : Rule} {rhs other : List Symbol} (hrhs : rhs ∈ r.productions)
    (hother : other ∈ r.productions) (hcs : Unfolds m (rhs.map (⟨p, ·⟩) ++ rest) cs)
    (hds : Unfolds m (other.map (⟨p, ·⟩) ++ rest) ds)
    (h : (markOf p rhs ++ cs).filterMap Call.element? =
      (markOf p other ++ ds).filterMap Call.element?) :
    rhs = other ∨ markOf p rhs ++ cs = markOf p other ++ ds := by
  have hmark : ∀ x xs, markOf p (x :: xs) = [] := fun _ _ => rfl
  cases rhs with
  | nil =>
    cases other with
    | nil => exact .inl rfl
    | cons y ys =>
      -- an empty production leaves its mark first of all
      rw [hmark, List.nil_append] at h
      rcases hds.cons_cases with ⟨message, rfl⟩ | ⟨more, rfl⟩ <;> cases h
  | cons x xs =>
    rw [hmark, List.nil_append] at h ⊢
    cases other with
    | nil => rcases hcs.cons_cases with ⟨message, rfl⟩ | ⟨more, rfl⟩ <;> cases h
    | cons y ys =>
      rw [hmark, List.nil_append] at h ⊢
      rcases hcs.cons_cases with ⟨message, rfl⟩ | ⟨more, rfl⟩
      · rcases hds.cons_cases with ⟨other, rfl⟩ | ⟨more, rfl⟩
        · cases h
          exact .inr rfl
        · cases h
      · rcases hds.cons_cases with ⟨message, rfl⟩ | ⟨others, rfl⟩
        · cases h
        · obtain rfl : x = y := Element.node.inj (List.cons.inj h).1
          exact .inl (r.production_eq_of_head? _ hrhs _ hother rfl)

/-- Calls that unfold from the same goals and add the same elements are the same. -/
theorem calls_eq (hcs : Unfolds n goals cs) (hds : Unfolds n goals ds)
    (h : cs.filterMap Call.element? = ds.filterMap Call.element?) : cs = ds := by
  -- the first element decides how `ds` unfolds, but for the production of a rule
  induction hcs generalizing ds with
  | done n =>
    cases hds
    rfl
  | stop n p k rest message =>
    cases hds with
    | stop _ _ _ _ other =>
      cases h
      rfl
    | consume => cases h
  | consume p k lexeme hcs ih =>
    cases hds with
    | stop => cases h
    | consume _ _ other hds =>
      obtain rfl : lexeme = other := Element.lexeme.inj (List.cons.inj (List.cons.inj h).2).1
      rw [ih hds (List.cons.inj (List.cons.inj h).2).2]
  | expand p hrhs hcs ih =>
    cases hds with
    | expand _ hother hds =>
      -- which production it was shows in what comes below the node
      have hbelow := (List.cons.inj h).2
      rcases production_eq hrhs hother hcs hds hbelow with rfl | heq
      · rw [List.filterMap_append, List.filterMap_append] at hbelow
        rw [ih hds (List.append_cancel_left hbelow)]
      · rw [heq]

end Unfolds

/-! ## From lines to elements -/

/-- The element can be told from its line, and this has nothing in it that would end it. -/
def Element.IsLegible : Element → Prop
  | .node label => label ≠ .terminal .empty
  | .error message => '\n' ∉ message.toList
  | .lexeme _ | .empty => True

inductive ElementSort where
  | node
  | lexeme
  | empty
  | error
  deriving DecidableEq

def Element.sort : Element → ElementSort
  | .node _ => .node
  | .lexeme _ => .lexeme
  | .empty => .empty
  | .error _ => .error

/-- What a line shows, to tell from its beginning. -/
def sortOfLine : List Char → ElementSort
  | '"' :: _ => .lexeme
  | 'ε' :: _ => .empty
  | 'E' :: 'R' :: _ => .error
  | _ => .node

theorem Rule.name_injective {r s : Rule} (h : r.name = s.name) : r = s := by
  cases r <;> cases s <;> simp_all [name]

namespace Symbol

/-- A label looks like no other element, does not begin with a blank, and stands on one line. -/
theorem label_plain (x : Symbol) : sortOfLine x.label.toList = .node ∧
    x.label.toList.head? ≠ some ' ' ∧ '\n' ∉ x.label.toList := by
  rcases x with k | r
  · cases k <;> decide
  · cases r <;> decide

/-- No two symbols have the same label: only a terminal's begins with an angle bracket. -/
theorem label_injective {x y : Symbol} (h : x.label = y.label) : x = y := by
  have hbracket : ∀ k : TokenKind,
      (terminal k).label.toList = '<' :: (k.label.toList ++ ['>']) := by
    intro k
    simp [label]
  have hname : ∀ r : Rule, r.name.toList.head? ≠ some '<' := by
    intro r
    cases r <;> decide
  have hchars := congrArg String.toList h
  rcases x with j | r
  · rw [hbracket] at hchars
    rcases y with k | r
    · rw [hbracket] at hchars
      have hlabel := List.append_cancel_right (List.cons.inj hchars).2
      rw [TokenKind.label_injective (String.toList_inj.1 hlabel)]
    · exact absurd (congrArg List.head? hchars.symm) (hname r)
  · rcases y with k | s
    · rw [hbracket] at hchars
      exact absurd (congrArg List.head? hchars) (hname r)
    · rw [Rule.name_injective h]

end Symbol

namespace Element

variable {x y : Element}

theorem line_node {label : Symbol} (h : (node label).IsLegible) :
    (node label).line = label.label := by
  unfold line
  split
  · next heq => exact absurd (Element.node.inj heq) h
  · next heq => rw [Element.node.inj heq]
  all_goals next heq => cases heq

/-- How a line begins and that it is one line. -/
theorem line_plain (hx : x.IsLegible) : sortOfLine x.line.toList = x.sort ∧
    x.line.toList.head? ≠ some ' ' ∧ '\n' ∉ x.line.toList := by
  cases x with
  | node label =>
    rw [line_node hx]
    exact label.label_plain
  | empty => decide
  | lexeme text =>
    -- a lexeme is quoted, so its line begins with a quote and is one line
    have hline := Text.newline_notMem_quote text
    have htext : (lexeme text).line.toList = (Text.quote text).toList := rfl
    rw [htext]
    rw [Text.toList_quote] at hline ⊢
    exact ⟨rfl, by simp, hline⟩
  | error message =>
    have htext : (error message).line.toList = "ERROR: ".toList ++ message.toList :=
      String.toList_append
    rw [htext]
    refine ⟨rfl, by simp, ?_⟩
    rw [List.mem_append, not_or]
    exact ⟨by decide, hx⟩

/-- Elements that are shown alike are the same. -/
theorem line_inj (hx : x.IsLegible) (hy : y.IsLegible) (h : x.line = y.line) : x = y := by
  -- a line shows what sort of element it is printed for
  have hsort : x.sort = y.sort := by
    rw [← (line_plain hx).1, ← (line_plain hy).1, h]
  cases x with
  | node label =>
    cases y with
    | node other =>
      rw [line_node hx, line_node hy] at h
      rw [Symbol.label_injective h]
    | _ => cases hsort
  | lexeme text =>
    cases y with
    | lexeme other => rw [Text.quote_injective h]
    | _ => cases hsort
  | empty =>
    cases y with
    | empty => rfl
    | _ => cases hsort
  | error message =>
    cases y with
    | error other =>
      have hchars : "ERROR: ".toList ++ message.toList = "ERROR: ".toList ++ other.toList := by
        rw [← String.toList_append, ← String.toList_append]
        exact congrArg String.toList h
      rw [String.toList_inj.1 (List.append_cancel_left hchars)]
    | _ => cases hsort

end Element

/-- A line without its margin. -/
theorem dropWhile_margin {cs : List Char} (hcs : cs.head? ≠ some ' ') (margin : Nat) :
    (List.replicate margin ' ' ++ cs).dropWhile (· = ' ') = cs := by
  induction margin with
  | zero =>
    cases cs with
    | nil => rfl
    | cons c cs =>
      have hc : c ≠ ' ' := fun heq => hcs (congrArg some heq)
      exact List.dropWhile_cons_of_neg (by simp [hc])
  | succ margin ih => exact ih

theorem Entry.toList_outlineLine (e : Entry) (indent : Nat) :
    (e.outlineLine.render indent).toList =
      List.replicate (e.outlineLine.margin indent) ' ' ++ e.element.line.toList := by
  simp [OutlineLine.render, outlineLine]

/-- Legible elements can be told from their lines, whatever margins these have. -/
theorem elements_eq_of_lines {es fs : List Entry} (hes : ∀ e ∈ es, e.element.IsLegible)
    (hfs : ∀ e ∈ fs, e.element.IsLegible) {indent : Nat}
    (h : es.map (fun e => (e.outlineLine.render indent).toList) =
      fs.map fun e => (e.outlineLine.render indent).toList) :
    es.map Entry.element = fs.map Entry.element := by
  have hline : ∀ e : Entry, e.element.IsLegible →
      (e.outlineLine.render indent).toList.dropWhile (· = ' ') = e.element.line.toList := by
    intro e he
    rw [e.toList_outlineLine, dropWhile_margin (Element.line_plain he).2.1]
  induction es generalizing fs with
  | nil =>
    cases fs with
    | nil => rfl
    | cons f fs => cases h
  | cons e es ih =>
    cases fs with
    | nil => cases h
    | cons f fs =>
      rw [List.forall_mem_cons] at hes hfs
      rcases List.cons.inj h with ⟨hfirst, hrest⟩
      -- behind the margins the lines are still the same
      have hsame := congrArg (List.dropWhile (· = ' ')) hfirst
      rw [hline e hes.1, hline f hfs.1] at hsame
      rw [List.map_cons, List.map_cons, ih hes.2 hfs.2 hrest,
        Element.line_inj hes.1 hfs.1 (String.toList_inj.1 hsame)]

namespace ParseTree

variable {t u : ParseTree} {indent : Nat}

/-- A printed tree with legible elements is the lines of its title and of these elements. -/
theorem toList_render (ht : ∀ e ∈ t.listing, e.element.IsLegible) :
    (t.render indent).toList = t.title.toList ++ '\n' ::
      (t.listing.map fun e => (e.outlineLine.render indent).toList).flatMap (· ++ ['\n']) := by
  have houtline := t.outline_eq fun e he heq => by
    have hlegible := ht e he
    rw [heq] at hlegible
    exact hlegible rfl
  rw [render_eq, houtline]
  simp [String.toList_join, List.flatMap_map, Function.comp_def]

theorem newline_notMem_lines (ht : ∀ e ∈ t.listing, e.element.IsLegible) (indent : Nat) :
    ∀ l ∈ t.listing.map fun e => (e.outlineLine.render indent).toList, '\n' ∉ l := by
  intro l hl
  rcases List.mem_map.1 hl with ⟨e, he, rfl⟩
  rw [e.toList_outlineLine, List.mem_append, not_or]
  constructor
  · intro hmem
    exact absurd (List.eq_of_mem_replicate hmem) (by decide)
  · exact (Element.line_plain (ht e he)).2.2

/-- Trees that are printed alike are made of the same elements. -/
theorem elements_eq_of_render (ht : ∀ e ∈ t.listing, e.element.IsLegible)
    (hu : ∀ e ∈ u.listing, e.element.IsLegible) (htitle : t.title = u.title)
    (h : t.render indent = u.render indent) : t.elements = u.elements := by
  have hchars := congrArg String.toList h
  rw [toList_render ht, toList_render hu, htitle] at hchars
  have hlines := (List.cons.inj (List.append_cancel_left hchars)).2
  exact elements_eq_of_lines ht hu
    (Text.lines_inj (newline_notMem_lines ht indent) (newline_notMem_lines hu indent) hlines)

end ParseTree

/-! ## Parses -/

/-- No token has a newline in it. -/
theorem newline_notMem_text {source : String} {t : Token} (ht : t ∈ scan source) :
    '\n' ∉ t.text.toList := by
  rcases (tiles_scan source).exists_of_mem ht with
    ⟨before, c, lexeme, behind, -, hc, hreach, rfl⟩
  intro hmem
  rw [Token.found, String.toList_ofList] at hmem
  exact Bool.noConfusion (isLayout_of_mem_lexeme hc hreach hmem)

variable (title source : String)

/-- What is found instead of a terminal is a token, or nothing at the end. -/
theorem newline_notMem_found {e : Diagnosis} (he : (parseTitled title source).error = some e) :
    '\n' ∉ e.found.toList := by
  rcases tells_analyze title ⟨0⟩ (.ofSource source) with ⟨⟨ls, -, -, hrest⟩, herror⟩
  rw [(herror e he).1, ← hrest]
  cases hremaining : ((TokenStream.ofSource source).skip ls.length).remaining with
  | nil =>
    -- at the end of the input nothing is found
    have hleaf := congrArg Leaf.text (TokenStream.leaf_of_remaining_eq_nil hremaining)
    rw [show TokenStream.lexeme _ = _ from hleaf]
    decide
  | cons t ts =>
    have hleaf := congrArg Leaf.text (TokenStream.leaf_of_remaining_eq_cons hremaining)
    rw [show TokenStream.lexeme _ = _ from hleaf]
    rw [TokenStream.remaining_skip] at hremaining
    -- otherwise the text of a scanned token
    have hmem : t ∈ (scan source).drop ls.length := hremaining ▸ List.mem_cons_self
    exact newline_notMem_text (List.mem_of_mem_drop hmem)

theorem newline_notMem_message {e : Diagnosis} (he : (parseTitled title source).error = some e) :
    '\n' ∉ e.message.toList := by
  have hfound := newline_notMem_found title source he
  have hexpected : ∀ k : TokenKind, '\n' ∉ k.description.toList := by
    intro k
    cases k <;> decide
  unfold Diagnosis.message
  simp [hfound, hexpected]

/-- Each element of a parse can be told from its line. -/
theorem isLegible_parseTitled :
    ∀ e ∈ (parseTitled title source).tree.listing, e.element.IsLegible := by
  intro e he
  have hmem : e.element ∈ (parseTitled title source).tree.elements := List.mem_map_of_mem he
  cases hx : e.element with
  | lexeme text => trivial
  | empty => trivial
  | node label =>
    rw [hx, elements_parseTitled, List.mem_filterMap] at hmem
    rcases hmem with ⟨event, hevent, hlabel⟩
    -- a node with the label of an empty terminal would come from a call for one
    rintro rfl
    have hcall : event.call ∈ (parseTitled title source).events.map Event.call :=
      List.mem_map_of_mem hevent
    rw [parseTitled_events, map_call_eventsOf] at hcall
    cases event with
    | node parent child label =>
      obtain rfl := Element.node.inj (Option.some.inj hlabel)
      exact node_empty_not_mem_analyze title ⟨0⟩ _ parent hcall
    | _ => cases hlabel
  | error message =>
    -- the only error is that of the parse, and it stands last
    rcases exists_elements title source with ⟨xs, hxs, helements⟩
    rw [hx, helements, List.mem_append] at hmem
    rcases hmem with hmem | hmem
    · cases hxs _ hmem
    · rw [Option.mem_toList, Option.map_eq_some_iff] at hmem
      rcases hmem with ⟨d, hd, hmessage⟩
      obtain rfl := Element.error.inj hmessage
      exact newline_notMem_message title source hd

/-- The elements of a parse tell its calls. -/
theorem calls_eq_of_elements {other : String}
    (h : (parseTitled title source).tree.elements = (parseTitled title other).tree.elements) :
    calls (traceOf title source) = calls (traceOf title other) := by
  rcases exists_unfolds_analyze title ⟨0⟩ (.ofSource source) with ⟨cs, hcs, hsource⟩
  rcases exists_unfolds_analyze title ⟨0⟩ (.ofSource other) with ⟨ds, hds, hother⟩
  rw [← traceOf] at hsource hother
  rw [elements_parseTitled, elements_parseTitled, filterMap_element?_eq, filterMap_element?_eq,
    parseTitled_events, parseTitled_events, map_call_eventsOf, map_call_eventsOf, hsource,
    hother] at h
  rw [hsource, hother, hcs.calls_eq hds h]

/-- The printed tree of a parse tells all its events: which nodes were made, under which handles and
which parents, the lexemes, and how the analysis ended. This is so with every indent, also without
one. -/
theorem events_eq_of_render (indent : Nat) {source other : String}
    (h : (parseTitled title source).tree.render indent =
      (parseTitled title other).tree.render indent) :
    (parseTitled title source).events = (parseTitled title other).events := by
  have htitle : ∀ text, (parseTitled title text).tree.title = title := by
    intro text
    rw [parseTitled_tree, Assembler.finish_told, (placedCalls_traceOf title text).1]
  have helements := ParseTree.elements_eq_of_render (isLegible_parseTitled title source)
    (isLegible_parseTitled title other) ((htitle source).trans (htitle other).symm) h
  rw [parseTitled_events, parseTitled_events, calls_eq_of_elements title source helements]

/-- Two ways to write `read x`, printed without an indent. -/
theorem events_eq_of_render_readX :
    (parseTitled "T" "read x").tree.render 0 = (parseTitled "T" "\nread\tx ").tree.render 0 ∧
      (parseTitled "T" "read x").events = (parseTitled "T" "\nread\tx ").events := by
  have hline : (TokenStream.ofSource "read x").upcoming 3 = (Derivation.readX "").leaves := by
    decide +kernel
  have hspread : (TokenStream.ofSource "\nread\tx ").upcoming 3 = (Derivation.readX "").leaves := by
    decide +kernel
  -- both are parses of the same derivation
  have hrender : (parseTitled "T" "read x").tree.render 0 =
      (parseTitled "T" "\nread\tx ").tree.render 0 := by
    rw [((Derivation.readX "").parseTitled_eq "T" hline).2,
      ((Derivation.readX "").parseTitled_eq "T" hspread).2]
  exact ⟨hrender, events_eq_of_render "T" 0 hrender⟩

end WhileSyntax
