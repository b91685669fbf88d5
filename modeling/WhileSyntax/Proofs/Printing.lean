import WhileSyntax.Tree.Outline
import WhileSyntax.Proofs.Depth
namespace WhileSyntax

/-! # The printed tree

Nothing stands below the mark of an empty production or below an error, so an outline leaves nothing
out unless a node has the label of such a mark (`ParseTree.outline_eq`). Together with the depths of
all additions this says what is printed: the accepted calls, laid out one to an entry.
-/

/-! ## Nothing is left out -/

def Entry.outlineLine (e : Entry) : OutlineLine :=
  ⟨e.depth, e.element.line⟩

/-- An entry at least as high as the folded element is printed. -/
theorem outlineFrom_cons {fold : Nat} {e : Entry} (hfold : fold = 0 ∨ e.depth ≤ fold)
    (lines : List OutlineLine) (es : List Entry) :
    outlineFrom fold lines (e :: es) =
      outlineFrom (if e.element.isFolded then e.depth else 0) (e.outlineLine :: lines) es := by
  rw [outlineFrom, if_neg (by omega)]
  rfl

/-- The entries are printed as the lines, unless they stand below a folded element; and what is
folded behind them does not reach below `depth`. -/
def Prints (depth : Nat) (es : List Entry) (lines : List OutlineLine) : Prop :=
  ∀ fold before rest, fold = 0 ∨ depth ≤ fold → ∃ last, (last = 0 ∨ depth ≤ last) ∧
    outlineFrom fold before (es ++ rest) = outlineFrom last (lines.reverse ++ before) rest

namespace Prints

variable {depth : Nat} {e : Entry} {es fs : List Entry} {lines more : List OutlineLine}

theorem nil (depth : Nat) : Prints depth [] [] := by
  intro fold before rest hfold
  exact ⟨fold, hfold, rfl⟩

theorem append (hes : Prints depth es lines) (hfs : Prints depth fs more) :
    Prints depth (es ++ fs) (lines ++ more) := by
  intro fold before rest hfold
  obtain ⟨mid, hmid, heses⟩ := hes fold before (fs ++ rest) hfold
  obtain ⟨last, hlast, hfses⟩ := hfs mid (lines.reverse ++ before) rest hmid
  refine ⟨last, hlast, ?_⟩
  rw [List.append_assoc, heses, hfses, List.reverse_append, List.append_assoc]

/-- An element with nothing below it is printed, even if it is folded. -/
theorem singleton (he : e.depth = depth) : Prints depth [e] [e.outlineLine] := by
  intro fold before rest hfold
  refine ⟨if e.element.isFolded then e.depth else 0, ?_, ?_⟩
  · split
    · exact .inr he.ge
    · exact .inl rfl
  · exact outlineFrom_cons (he.symm ▸ hfold) before rest

/-- An element that is not folded is printed with all that is below it. -/
theorem cons (he : e.depth = depth) (hopen : e.element.isFolded = false)
    (hes : Prints (depth + 1) es lines) : Prints depth (e :: es) (e.outlineLine :: lines) := by
  intro fold before rest hfold
  obtain ⟨last, hlast, heses⟩ := hes 0 (e.outlineLine :: before) rest (.inl rfl)
  refine ⟨last, hlast.imp_right Nat.le_of_succ_le, ?_⟩
  rw [List.cons_append, outlineFrom_cons (he.symm ▸ hfold), hopen, if_neg Bool.false_ne_true, heses,
    List.reverse_cons, List.append_assoc]
  rfl

/-- A folded element is printed without what is below it. -/
theorem folded (he : e.depth = depth) (hdepth : 0 < depth) (hfolded : e.element.isFolded = true)
    (hbelow : ∀ f ∈ es, depth < f.depth) : Prints depth (e :: es) [e.outlineLine] := by
  intro fold before rest hfold
  -- while the fold is at `depth`, entries below it are passed over
  have hskip : ∀ fs : List Entry, (∀ f ∈ fs, depth < f.depth) →
      outlineFrom depth (e.outlineLine :: before) (fs ++ rest) =
        outlineFrom depth (e.outlineLine :: before) rest := by
    intro fs hfs
    induction fs with
    | nil => rfl
    | cons f fs ih =>
      rw [List.forall_mem_cons] at hfs
      rw [List.cons_append, outlineFrom, if_pos ⟨hdepth, hfs.1⟩, ih hfs.2]
  refine ⟨depth, .inr le_rfl, ?_⟩
  rw [List.cons_append, outlineFrom_cons (he.symm ▸ hfold), if_pos hfolded, he, hskip es hbelow]
  rfl

end Prints

namespace Tree

mutual

/-- The lines that are printed for a tree whose top lies at the given depth. -/
def lines (depth : Nat) : Tree → List OutlineLine
  | .node label children =>
    ⟨depth, (Element.node label).line⟩ ::
      if (Element.node label).isFolded then [] else linesOf (depth + 1) children
  | .lexeme text => [⟨depth, (Element.lexeme text).line⟩]
  | .empty => [⟨depth, Element.empty.line⟩]
  | .error message => [⟨depth, (Element.error message).line⟩]

def linesOf (depth : Nat) : List Tree → List OutlineLine
  | [] => []
  | t :: ts => t.lines depth ++ linesOf depth ts

end

/-- What stands in a row lies at least as deep as the row. -/
theorem le_depth_of_mem_entriesOfAll (depth : Nat) (row : List Tree) :
    ∀ e ∈ entriesOfAll depth row, depth ≤ e.depth := by
  intro e he
  match row with
  | [] => cases he
  | t :: right =>
    rw [entriesOfAll, List.mem_append] at he
    rcases he with htop | hright
    · cases t with
      | node label children =>
        rcases List.mem_cons.1 htop with rfl | hbelow
        · exact le_rfl
        · exact Nat.le_of_succ_le (le_depth_of_mem_entriesOfAll (depth + 1) children e hbelow)
      | _ =>
        rw [List.mem_singleton.1 htop]
    · exact le_depth_of_mem_entriesOfAll depth right e hright
  termination_by sizeOf row

/-- What is printed for the entries of a row are the lines of its trees. -/
theorem prints_entriesOfAll {depth : Nat} (hdepth : 0 < depth) (row : List Tree) :
    Prints depth (entriesOfAll depth row) (linesOf depth row) := by
  match row with
  | [] => exact .nil depth
  | .node label children :: right =>
    refine .append ?_ (prints_entriesOfAll hdepth right)
    rw [entries, lines]
    cases hfolded : (Element.node label).isFolded with
    | true =>
      -- the children are listed one level deeper, so they are passed over
      have hbelow := le_depth_of_mem_entriesOfAll (depth + 1) children
      exact .folded (e := ⟨depth, .node label⟩) rfl hdepth hfolded hbelow
    | false =>
      -- the children's lines come behind the node's own
      have hchildren := prints_entriesOfAll (Nat.succ_pos depth) children
      exact .cons (e := ⟨depth, .node label⟩) rfl hfolded hchildren
  | .lexeme text :: right =>
    exact (Prints.singleton (e := ⟨depth, .lexeme text⟩) rfl).append
      (prints_entriesOfAll hdepth right)
  | .empty :: right =>
    exact (Prints.singleton (e := ⟨depth, .empty⟩) rfl).append (prints_entriesOfAll hdepth right)
  | .error message :: right =>
    exact (Prints.singleton (e := ⟨depth, .error message⟩) rfl).append
      (prints_entriesOfAll hdepth right)
  termination_by sizeOf row

end Tree

theorem isFolded_node {label : Symbol} (h : label ≠ .terminal .empty) :
    (Element.node label).isFolded = false := by
  unfold Element.isFolded
  split
  · next heq => exact absurd (Element.node.inj heq) h
  · next heq => cases heq
  · next heq => cases heq
  · rfl

/-- There is a line for every entry if no node has the label of an empty production's mark. -/
theorem Tree.linesOf_eq {depth : Nat} (row : List Tree)
    (hrow : ∀ e ∈ entriesOfAll depth row, e.element ≠ .node (.terminal .empty)) :
    linesOf depth row = (entriesOfAll depth row).map Entry.outlineLine := by
  match row with
  | [] => rfl
  | .node label children :: right =>
    rw [entriesOfAll, entries, List.forall_mem_append, List.forall_mem_cons] at hrow
    obtain ⟨⟨hlabel, hbelow⟩, hright⟩ := hrow
    -- no node has the label that would hide its children
    have hopen := isFolded_node fun heq => hlabel (congrArg Element.node heq)
    rw [linesOf, lines, hopen, if_neg Bool.false_ne_true, linesOf_eq children hbelow,
      linesOf_eq right hright, entriesOfAll, entries, List.map_append, List.map_cons]
    rfl
  | .lexeme text :: right =>
    have hright := linesOf_eq right (List.forall_mem_cons.1 hrow).2
    rw [linesOf, lines, hright]
    rfl
  | .empty :: right =>
    have hright := linesOf_eq right (List.forall_mem_cons.1 hrow).2
    rw [linesOf, lines, hright]
    rfl
  | .error message :: right =>
    have hright := linesOf_eq right (List.forall_mem_cons.1 hrow).2
    rw [linesOf, lines, hright]
    rfl
  termination_by sizeOf row

/-- Lines that are put behind a text one by one. -/
theorem foldl_lines {α : Type} (line : α → String) (text : String) (xs : List α) :
    xs.foldl (fun text x => text ++ line x ++ "\n") text =
      text ++ String.join (xs.map fun x => line x ++ "\n") := by
  induction xs generalizing text with
  | nil => simp
  | cons x xs ih =>
    rw [List.foldl_cons, ih, List.map_cons, String.join_cons]
    simp only [String.append_assoc]

namespace ParseTree

/-- The outline consists of the lines of the trees below the root. -/
theorem outline_eq_linesOf (t : ParseTree) : t.outline = Tree.linesOf 1 t.children := by
  obtain ⟨last, -, hprinted⟩ :=
    Tree.prints_entriesOfAll Nat.one_pos t.children 0 [] [] (.inl rfl)
  rw [List.append_nil, List.append_nil, outlineFrom, List.reverse_reverse] at hprinted
  rw [outline, listing_eq, hprinted]

/-- The outline has a line for every entry of the listing. -/
theorem outline_eq {t : ParseTree}
    (ht : ∀ e ∈ t.listing, e.element ≠ .node (.terminal .empty)) :
    t.outline = t.listing.map Entry.outlineLine := by
  rw [listing_eq] at ht ⊢
  rw [outline_eq_linesOf, Tree.linesOf_eq t.children ht]

/-- A printed tree is its title and then its lines, each ended by a newline. -/
theorem render_eq (t : ParseTree) (indent : Nat) :
    t.render indent =
      t.title ++ "\n" ++ String.join (t.outline.map fun l => l.render indent ++ "\n") :=
  foldl_lines ..

end ParseTree

/-! ## Calls laid out -/

/-- What is printed for the addition of a call, if the call adds to a node. -/
def Call.line? : Call → Option String
  | .node _ (.rule r) => some r.name
  | .node _ (.terminal k) => some ("<" ++ k.label ++ ">")
  | .leaf _ lexeme => some (Text.quote lexeme)
  | .empty _ => some "ε"
  | .error _ message => some ("ERROR: " ++ message)
  | .header _ | .footer => none

/-- What is printed for an addition: a margin, its text, and a newline. What is right below the root
stands at the edge. -/
def Placed.printed? (indent : Nat) (p : Placed) : Option String :=
  p.call.line?.map fun line =>
    String.ofList (List.replicate ((p.depth - 1) * indent) ' ') ++ line ++ "\n"

/-- A title and then additions, as they are laid out with the given indent. -/
def laidOut (title : String) (indent : Nat) (additions : List Placed) : String :=
  title ++ "\n" ++ String.join (additions.filterMap (Placed.printed? indent))

theorem Placed.printed?_eq {p : Placed} (hp : ∀ h, p.call ≠ .node h (.terminal .empty))
    (indent : Nat) :
    p.printed? indent = p.entry?.map fun e => e.outlineLine.render indent ++ "\n" := by
  rcases p with ⟨depth, _ | ⟨h, k | r⟩ | _ | _ | _ | _⟩
  case node.terminal =>
    have hline : Element.line (.node (.terminal k)) = "<" ++ k.label ++ ">" := by
      unfold Element.line
      split
      · next heq =>
        cases heq
        exact absurd rfl (hp h)
      · next heq =>
        cases heq
        rfl
      all_goals next heq => cases heq
    simp [printed?, entry?, Call.line?, Call.element?, Entry.outlineLine, OutlineLine.render,
      OutlineLine.margin, hline]
  all_goals rfl

/-! ## Labels that are used -/

theorem mem_of_mem_untilSealed {cs : List Call} {c : Call} (hc : c ∈ untilSealed cs) : c ∈ cs := by
  induction cs with
  | nil => exact hc
  | cons d cs ih =>
    rw [untilSealed, List.mem_cons] at hc
    rcases hc with rfl | hc
    · exact List.mem_cons_self
    · split at hc
      · exact absurd hc List.not_mem_nil
      · exact List.mem_cons_of_mem _ (ih hc)

theorem mem_of_mem_account {n : Nat} {cs : List Call} {a : Account} {c : Call}
    (ha : account? n cs = some a) (hc : c ∈ a.accepted) : c ∈ cs := by
  induction cs generalizing n with
  | nil => cases ha
  | cons d cs ih =>
    cases d with
    | header title =>
      obtain rfl := Option.some.inj ha
      exact List.mem_cons_of_mem _ (mem_of_mem_untilSealed hc)
    | _ => exact List.mem_cons_of_mem _ (ih ha)

theorem call_mem_of_mem_placedCalls {cs : List Call} {p : Placed} (hp : p ∈ placedCalls cs) :
    p.call ∈ cs := by
  have hcall : p.call ∈ (placedCalls cs).map Placed.call := List.mem_map_of_mem hp
  rw [map_call_placedCalls, accepted] at hcall
  cases ha : account? 0 cs with
  | none =>
    rw [ha] at hcall
    exact absurd (List.mem_of_mem_filter hcall) List.not_mem_nil
  | some a =>
    rw [ha] at hcall
    exact mem_of_mem_account ha (List.mem_of_mem_filter hcall)

/-- No production has the empty kind among its terminals. -/
theorem empty_not_mem_of_production (r : Rule) :
    ∀ rhs ∈ r.productions, Symbol.terminal .empty ∉ rhs := by
  cases r <;> decide

theorem Derivation.node_empty_not_mem_calls {xs : List Symbol} (d : Derivation xs)
    (hxs : .terminal .empty ∉ xs) (p : Handle) (n : Nat) (h : Handle) :
    .node h (.terminal .empty) ∉ d.calls p n := by
  induction d generalizing p n with
  | nil => exact List.not_mem_nil
  | @terminal xs l rest ih =>
    rw [List.mem_cons, not_or] at hxs
    rw [calls_terminal, List.mem_cons, List.mem_cons]
    rintro (heq | heq | hrest)
    · exact hxs.1 (Call.node.inj heq).2
    · cases heq
    · exact ih hxs.2 p (n + 1) hrest
  | @rule xs r rhs hr below rest ihb ihr =>
    rw [List.mem_cons, not_or] at hxs
    rw [calls_rule, List.mem_cons, List.mem_append, List.mem_append]
    rintro (heq | (hmark | hbelow) | hrest)
    · cases heq
    · cases eq_empty_of_mem_markOf hmark
    · exact ihb (empty_not_mem_of_production r rhs hr) ⟨n⟩ (n + 1) hbelow
    · exact ihr hxs.2 p _ hrest

theorem Stopped.node_empty_not_mem_calls {xs : List Symbol} (d : Stopped xs)
    (hxs : .terminal .empty ∉ xs) (p : Handle) (n : Nat) (h : Handle) :
    .node h (.terminal .empty) ∉ d.calls p n := by
  induction d generalizing p n with
  | @before xs done left k todo hsplit =>
    rw [hsplit, List.mem_append, not_or] at hxs
    exact left.node_empty_not_mem_calls hxs.1 p n h
  | @within xs done rhs left r hr below todo hsplit ih =>
    rw [hsplit, List.mem_append, not_or] at hxs
    rw [calls_within, List.mem_append, List.mem_cons]
    rintro (hleft | heq | hbelow)
    · exact left.node_empty_not_mem_calls hxs.1 p n h hleft
    · cases heq
    · exact ih (empty_not_mem_of_production r rhs hr) _ _ hbelow

/-- The node of an empty kind is none of those that an analysis makes. -/
theorem node_empty_not_mem_analyze (title : String) (first : Handle) (stream : TokenStream)
    (h : Handle) : .node h (.terminal .empty) ∉ calls (analyze title first stream).trace := by
  have hprogram : Symbol.terminal .empty ∉ [Symbol.rule .program] := by decide
  rcases calls_analyze title first stream with ⟨_, d, hcalls⟩ | ⟨e, d, _, _, hcalls⟩
  · have hbody := d.node_empty_not_mem_calls hprogram first (first.index + 1) h
    simp [hcalls, hbody]
  · have hbody := d.node_empty_not_mem_calls hprogram first (first.index + 1) h
    simp [hcalls, hbody]

/-! ## What is printed -/

theorem node_empty_not_mem_placedCalls {cs : List Call}
    (hcs : ∀ h, .node h (.terminal .empty) ∉ cs) :
    ∀ p ∈ placedCalls cs, ∀ h, p.call ≠ .node h (.terminal .empty) := by
  intro p hp h heq
  exact hcs h (heq ▸ call_mem_of_mem_placedCalls hp)

/-- The outline of a tree of calls has a line for every entry of the listing. -/
theorem outline_planted {cs : List Call} (hcs : ∀ h, .node h (.terminal .empty) ∉ cs) :
    (planted cs).outline = (planted cs).listing.map Entry.outlineLine := by
  refine ParseTree.outline_eq fun e he heq => ?_
  rw [listing_planted, List.mem_filterMap] at he
  obtain ⟨p, hp, hentry⟩ := he
  obtain ⟨x, hx, rfl⟩ := Option.map_eq_some_iff.1 hentry
  obtain rfl : x = .node (.terminal .empty) := heq
  -- an entry with this label would come from a call with it
  cases hcall : p.call with
  | node h label =>
    rw [hcall] at hx
    obtain rfl := Element.node.inj (Option.some.inj hx)
    exact node_empty_not_mem_placedCalls hcs p hp h hcall
  | _ => rw [hcall] at hx; cases hx

/-- The tree of calls is printed as the accepted calls, laid out. -/
theorem render_planted {cs : List Call} (hcs : ∀ h, .node h (.terminal .empty) ∉ cs) {indent : Nat}
    (hindent : ∀ e ∈ (planted cs).listing, e.depth * indent < Nat.pow 2 63) :
    (planted cs).fits indent = true ∧
      (planted cs).render indent = laidOut (planted cs).title indent (placedCalls cs) := by
  have houtline := outline_planted hcs
  constructor
  · rw [ParseTree.fits, houtline, List.all_eq_true]
    intro l hl
    obtain ⟨e, he, rfl⟩ := List.mem_map.1 hl
    -- the margin is one level shorter than the depth
    have hmargin : (e.depth - 1) * indent ≤ e.depth * indent :=
      Nat.mul_le_mul_right indent (Nat.sub_le ..)
    exact decide_eq_true (Nat.le_sub_one_of_lt (hmargin.trans_lt (hindent e he)))
  · rw [ParseTree.render_eq, houtline, laidOut, listing_planted, List.map_map, List.map_filterMap]
    refine congrArg (fun entries => (planted cs).title ++ "\n" ++ String.join entries) ?_
    refine List.filterMap_congr fun p hp => ?_
    exact (Placed.printed?_eq (node_empty_not_mem_placedCalls hcs p hp) indent).symm

/-- Each event but headers and footers is an addition. -/
theorem map_call_placedEvents (events : List Event) :
    (placedEvents events).map Placed.call =
      (events.map Event.call).filter fun c => c.target?.isSome := by
  -- which depth an event is given does not matter to its call
  have hall : ∀ (depth : Handle → Nat) (es : List Event),
      (es.filterMap fun e => e.call.target?.map fun h => (⟨depth h, e.call⟩ : Placed)).map
        Placed.call = (es.map Event.call).filter fun c => c.target?.isSome := by
    intro depth es
    induction es with
    | nil => rfl
    | cons e es ih =>
      rw [List.map_cons, List.filter_cons]
      cases he : e.call.target? with
      | none =>
        rw [List.filterMap_cons_none (by rw [he]; rfl), ih]
        rfl
      | some h =>
        rw [List.filterMap_cons_some (by rw [he]; rfl), List.map_cons, ih]
        rfl
  exact hall (fun h => (wayUp events.reverse h).length) events

/-- The calls of a parse begin with its title, and the events say where their additions lie. -/
theorem placedCalls_traceOf (title source : String) :
    (planted (calls (traceOf title source))).title = title ∧
      placedCalls (calls (traceOf title source)) =
        placedEvents (parseTitled title source).events := by
  have hquiet := said_analyze title (.ofSource source)
  -- every analysis begins with a header and is heard without a warning
  have hheader : ∃ cs, calls (traceOf title source) = .header title :: cs := by
    rcases calls_analyze title ⟨0⟩ (.ofSource source) with ⟨_, d, hcalls⟩ | ⟨e, d, _, _, hcalls⟩
    · exact ⟨_, hcalls⟩
    · exact ⟨_, hcalls⟩
  obtain ⟨cs, hcs⟩ := hheader
  rw [← traceOf, hcs] at hquiet
  rw [parseTitled_events, hcs]
  exact ⟨rfl, placedCalls_eq_placedEvents hquiet⟩

/-- A printed tree lists the calls that made it, whatever their order and handles, and the printed
tree of a parse lists its events. In both, each addition has one entry in the order of the calls,
with its margin, and there is nothing else but the title. The margin comes from the depth of the
addition in the tree, which for an event is the length of the way up from its parent. -/
theorem printed_tree_lists_calls :
    (∀ (cs : List Call) (indent : Nat), (∀ h, .node h (.terminal .empty) ∉ cs) →
      let tree := (Builder.told Assembler.new cs).finish
      (∀ e ∈ tree.listing, e.depth * indent < Nat.pow 2 63) →
        tree.fits indent = true ∧
        tree.render indent = laidOut tree.title indent (placedCalls cs) ∧
        tree.listing = (placedCalls cs).filterMap Placed.entry? ∧
        (placedCalls cs).map Placed.call = (accepted cs).filter fun c => c.target?.isSome) ∧
    ∀ (title source : String) (indent : Nat),
      let p := parseTitled title source
      (∀ e ∈ p.tree.listing, e.depth * indent < Nat.pow 2 63) →
        p.tree.fits indent = true ∧
        p.tree.render indent = laidOut title indent (placedEvents p.events) ∧
        p.tree.listing = (placedEvents p.events).filterMap Placed.entry? ∧
        (placedEvents p.events).map Placed.call =
          (p.events.map Event.call).filter fun c => c.target?.isSome := by
  constructor
  · intro cs indent hcs tree hindent
    have htree : tree = planted cs := Assembler.finish_told cs
    rw [htree] at hindent ⊢
    obtain ⟨hfits, hrender⟩ := render_planted hcs hindent
    exact ⟨hfits, hrender, listing_planted cs, map_call_placedCalls cs⟩
  · -- a parse is the special case whose calls no assembler refuses
    intro title source indent p hindent
    have htree : p.tree = planted (calls (traceOf title source)) :=
      (parseTitled_tree title source).trans (Assembler.finish_told _)
    obtain ⟨htitle, hplaced⟩ := placedCalls_traceOf title source
    have hlabels : ∀ h, .node h (.terminal .empty) ∉ calls (traceOf title source) :=
      node_empty_not_mem_analyze title ⟨0⟩ (.ofSource source)
    rw [htree] at hindent ⊢
    obtain ⟨hfits, hrender⟩ := render_planted hlabels hindent
    rw [htitle, hplaced] at hrender
    refine ⟨hfits, hrender, ?_, map_call_placedEvents p.events⟩
    rw [listing_planted, hplaced]

/-- Calls with handles that name no node, with a second header and with an error that seals the
tree; and a parse of `read x`. -/
theorem printed_tree_lists_calls_readX :
    let cs : List Call := [.node ⟨7⟩ (.rule .program), .header "T", .header "U",
      .node ⟨1⟩ (.rule .program), .node ⟨9⟩ (.terminal .readWord), .leaf ⟨4⟩ "a\nb", .empty ⟨3⟩,
      .error ⟨1⟩ "stop", .leaf ⟨3⟩ "late", .footer]
    placedCalls cs = [⟨1, .node ⟨1⟩ (.rule .program)⟩, ⟨2, .node ⟨9⟩ (.terminal .readWord)⟩,
      ⟨3, .leaf ⟨4⟩ "a\nb"⟩, ⟨2, .empty ⟨3⟩⟩, ⟨1, .error ⟨1⟩ "stop"⟩] ∧
    (Builder.told Assembler.new cs).finish.render 2 = laidOut "T" 2 (placedCalls cs) ∧
    laidOut "T" 2 (placedCalls cs) =
      "T\nPROGRAM\n  <READ>\n    \"a\\nb\"\n  ε\nERROR: stop\n" ∧
    (parseTitled "T" "read x").tree.render 4 =
      laidOut "T" 4 (placedEvents (parseTitled "T" "read x").events) := by
  intro cs
  have hlabels : ∀ h, .node h (.terminal .empty) ∉ cs := by
    intro h
    simp [cs]
  have hcalls := (printed_tree_lists_calls.1 cs 2 hlabels (by decide +kernel)).2.1
  have htitle : (Builder.told Assembler.new cs).finish.title = "T" := by decide +kernel
  rw [htitle] at hcalls
  have hread : (TokenStream.ofSource "read x").upcoming 3 = (Derivation.readX "").leaves := by
    decide +kernel
  -- the parse is that of a known derivation, so its depths can be computed
  have htree := ((Derivation.readX "").parseTitled_eq "T" hread).2
  have hparse := (printed_tree_lists_calls.2 "T" "read x" 4 (by rw [htree]; decide +kernel)).2.1
  exact ⟨by decide +kernel, hcalls, by decide +kernel, hparse⟩

end WhileSyntax
