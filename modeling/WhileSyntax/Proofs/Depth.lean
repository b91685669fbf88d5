import WhileSyntax.Proofs.Answers
import WhileSyntax.Proofs.Logging
import WhileSyntax.Proofs.Rightmost
import WhileSyntax.Proofs.Shape
namespace WhileSyntax

/-! # How deep additions lie

An addition to a tree lies one level below the node of the right edge that it goes to, and later
additions leave it there. So the listing of a tree, with its depths, can be told from the calls
alone (`listing_planted`). Where each call names an open node, as in an analysis, the depth of its
addition is the number of nodes on the way from the named node up to the root, as the events have
made them (`placedCalls_eq_placedEvents`).
-/

/-! ## The listing of a growing tree -/

theorem Tree.entriesOfAll_append (depth : Nat) (ts us : List Tree) :
    entriesOfAll depth (ts ++ us) = entriesOfAll depth ts ++ entriesOfAll depth us := by
  induction ts with
  | nil => rfl
  | cons t ts ih => simp [entriesOfAll, ih]

namespace Planted

/-- The listing of a row whose trees have their tops at the given depth. -/
def entriesOf (depth : Nat) (row : List Planted) : List Entry :=
  Tree.entriesOfAll depth (treesOf row).reverse

theorem entriesOf_cons (depth : Nat) (t : Planted) (older : List Planted) :
    entriesOf depth (t :: older) = entriesOf depth older ++ t.tree.entries depth := by
  simp [entriesOf, treesOf, Tree.entriesOfAll_append, Tree.entriesOfAll]

theorem entries_node (depth : Nat) (handle : Handle) (label : Symbol) (children : List Planted) :
    (node handle label children).tree.entries depth =
      ⟨depth, .node label⟩ :: entriesOf (depth + 1) children :=
  rfl

/-- What is planted at the right edge comes last, one level below its node. -/
theorem entriesOf_plantIn (depth : Nat) {row : List Planted} {target : Handle} (x : Planted)
    (hedge : target ∈ edgeOf row) :
    entriesOf depth (plantIn target x row) =
      entriesOf depth row ++ x.tree.entries (depth + (edgeOf row).idxOf target + 1) := by
  induction row using edge_induction generalizing depth with
  | nil => exact absurd hedge List.not_mem_nil
  | leaf tree older => exact absurd hedge List.not_mem_nil
  | node handle label children older ih =>
    rw [plantIn, plant, entriesOf_cons, entriesOf_cons, entries_node, entries_node, edgeOf, edge]
    by_cases heq : handle = target
    · -- planted under this node, as its latest child
      rw [if_pos heq, entriesOf_cons, heq, List.idxOf_cons_self]
      simp
    · -- otherwise further down the edge, which is one level deeper
      have hbelow : target ∈ edgeOf children := by
        rw [edgeOf, edge, List.mem_cons] at hedge
        exact hedge.resolve_left (Ne.symm heq)
      have hdepth : depth + 1 + (edgeOf children).idxOf target + 1 =
          depth + ((edgeOf children).idxOf target + 1) + 1 := by omega
      rw [if_neg heq, ih (depth + 1) hbelow, List.idxOf_cons_ne _ heq, hdepth]
      simp

end Planted

namespace Planting

/-- How deep an addition to `h` lies: one level below the node that it goes to. The root, with which
the right edge begins, has depth 0. -/
def depthUnder (g : Planting) (h : Handle) : Nat :=
  g.spine.idxOf (g.resolve h) + 1

theorem entriesOf_add (g : Planting) (h : Handle) (x : Planted) :
    Planted.entriesOf 1 (g.add h x).children =
      Planted.entriesOf 1 g.children ++ x.tree.entries (g.depthUnder h) := by
  rw [add, plantAt, depthUnder, spine]
  by_cases heq : g.root = g.resolve h
  · rw [← heq, List.idxOf_cons_self, if_pos rfl, Planted.entriesOf_cons]
  · have hedge := (List.mem_cons.1 (g.resolve_mem h)).resolve_left (Ne.symm heq)
    rw [if_neg heq, Planted.entriesOf_plantIn 1 x hedge, List.idxOf_cons_ne _ heq, Nat.add_comm 1]

end Planting

/-! ## Calls and where their additions lie -/

def Call.element? : Call → Option Element
  | .node _ label => some (.node label)
  | .leaf _ lexeme => some (.lexeme lexeme)
  | .empty _ => some .empty
  | .error _ message => some (.error message)
  | .header _ | .footer => none

/-- A call that adds to a node, and how deep its addition lies. -/
structure Placed where
  depth : Nat
  call : Call
  deriving DecidableEq, Repr

/-- The entry of the addition in the listing of the tree. -/
def Placed.entry? (p : Placed) : Option Entry :=
  p.call.element?.map fun x => ⟨p.depth, x⟩

namespace Planting

/-- Those of the calls that add to a node of the tree; `n` handles are issued before. -/
def placed (n : Nat) (g : Planting) : List Call → List Placed
  | [] => []
  | c :: cs =>
    (c.target?.map fun h => ⟨g.depthUnder h, c⟩).toList ++ (g.hear ⟨n⟩ c).placed (c.issued n) cs

theorem map_call_placed (n : Nat) (g : Planting) (cs : List Call) :
    (g.placed n cs).map Placed.call = cs.filter fun c => c.target?.isSome := by
  induction cs generalizing n g with
  | nil => rfl
  | cons c cs ih =>
    rw [placed, List.map_append, ih, List.filter_cons]
    cases c.target? <;> rfl

theorem entriesOf_hear (g : Planting) (fresh : Handle) (c : Call) :
    Planted.entriesOf 1 (g.hear fresh c).children =
      Planted.entriesOf 1 g.children ++
        ((c.target?.map fun h => (⟨g.depthUnder h, c⟩ : Placed)).toList.filterMap
          Placed.entry?) := by
  cases c with
  | header title => exact (List.append_nil _).symm
  | footer => exact (List.append_nil _).symm
  | node h label => exact g.entriesOf_add h (.node fresh label [])
  | leaf h text => exact g.entriesOf_add h (.leaf (.lexeme text))
  | empty h => exact g.entriesOf_add h (.leaf .empty)
  | error h message => exact g.entriesOf_add h (.leaf (.error message))

theorem entriesOf_hearAll (n : Nat) (g : Planting) (cs : List Call) :
    Planted.entriesOf 1 (g.hearAll n cs).children =
      Planted.entriesOf 1 g.children ++ (g.placed n cs).filterMap Placed.entry? := by
  induction cs generalizing n g with
  | nil => exact (List.append_nil _).symm
  | cons c cs ih =>
    rw [hearAll, ih, entriesOf_hear, placed, List.filterMap_append, List.append_assoc]

end Planting

/-- The accepted calls that add to a node, with the depths of their additions. -/
def placedCalls (cs : List Call) : List Placed :=
  match account? 0 cs with
  | none => []
  | some a => (⟨a.root, []⟩ : Planting).placed (a.root.index + 1) a.accepted

theorem map_call_placedCalls (cs : List Call) :
    (placedCalls cs).map Placed.call = (accepted cs).filter fun c => c.target?.isSome := by
  unfold placedCalls accepted
  cases account? 0 cs with
  | none => rfl
  | some a => exact Planting.map_call_placed ..

/-- The tree that calls tell of lists the additions of the accepted ones, in the order of the calls,
each where it was placed. -/
theorem listing_planted (cs : List Call) :
    (planted cs).listing = (placedCalls cs).filterMap Placed.entry? := by
  rw [ParseTree.listing_eq]
  unfold planted placedCalls
  cases account? 0 cs with
  | none => rfl
  | some a => exact Planting.entriesOf_hearAll (a.root.index + 1) ⟨a.root, []⟩ a.accepted

/-! ## Events and the chains of their parents -/

def Event.call : Event → Call
  | .header _ title => .header title
  | .node parent _ label => .node parent label
  | .leaf parent lexeme => .leaf parent lexeme
  | .empty parent => .empty parent
  | .error parent message => .error parent message
  | .footer => .footer

@[simp] theorem Call.call_event (c : Call) (n : Nat) : (c.event n).call = c := by
  cases c <;> rfl

theorem map_call_eventsOf (n : Nat) (cs : List Call) : (eventsOf n cs).map Event.call = cs := by
  induction cs generalizing n with
  | nil => rfl
  | cons c cs ih => rw [eventsOf, List.map_cons, Call.call_event, ih]

/-- The way from a node up to the root, of which events tell that stand latest first. -/
def wayUp : List Event → Handle → List Handle
  | [], _ => []
  | .header root _ :: older, h => if h = root then [h] else wayUp older h
  | .node parent child _ :: older, h => if h = child then h :: wayUp older parent else wayUp older h
  | _ :: older, h => wayUp older h

/-- What the events have added, each addition as deep as the way from its parent up is long. -/
def placedEvents (events : List Event) : List Placed :=
  events.filterMap fun e =>
    e.call.target?.map fun h => ⟨(wayUp events.reverse h).length, e.call⟩

section

variable {n : Nat} {past : List Event} {c : Call} {h : Handle}

/-- A node that was made before has its way up already. -/
theorem wayUp_event (hh : h.index < n) : wayUp (c.event n :: past) h = wayUp past h := by
  have hne : h ≠ ⟨n⟩ := by
    rintro rfl
    exact Nat.lt_irrefl n hh
  cases c <;> simp [Call.event, wayUp, hne]

theorem wayUp_eventsOf (hh : h.index < n) (cs : List Call) :
    wayUp ((eventsOf n cs).reverse ++ past) h = wayUp past h := by
  induction cs generalizing n past with
  | nil => rfl
  | cons c cs ih =>
    have hissued := Nat.lt_of_lt_of_le hh (c.le_issued n)
    rw [eventsOf, List.reverse_cons, List.append_assoc, ih hissued]
    exact wayUp_event hh

end

/-! ## Calls that name open nodes -/

namespace Planting

variable {g : Planting} {n : Nat} {past : List Event} {title : String} {c : Call} {h : Handle}

/-- The way up from each node of the right edge is the part of the edge down to it. -/
def Climbs (g : Planting) (past : List Event) : Prop :=
  ∀ h ∈ g.spine, (wayUp past h).length = g.spine.idxOf h + 1

/-- A call about which the assembler says nothing names a node on the right edge. -/
theorem mem_spine_of_quiet
    (hquiet : (Builder.apply (⟨.growing title g.growth, n⟩ : Assembler) c).2 = [])
    (hc : c.target? = some h) : h ∈ g.spine := by
  rw [← isOpen_growth]
  -- the only thing to say of an addition is that its node is closed
  have hreach : (Assembler.reach g.growth h).2 = [] := by
    cases c with
    | header again => cases hc
    | footer => cases hc
    | node p x => obtain rfl := Option.some.inj hc; exact hquiet
    | leaf p text => obtain rfl := Option.some.inj hc; exact hquiet
    | empty p => obtain rfl := Option.some.inj hc; exact hquiet
    | error p message => obtain rfl := Option.some.inj hc; exact hquiet
  unfold Assembler.reach at hreach
  split at hreach
  · assumption
  · cases hreach

theorem depthUnder_of_mem (hh : h ∈ g.spine) : g.depthUnder h = g.spine.idxOf h + 1 := by
  rw [depthUnder, resolve, if_pos hh]

/-- An addition below a node of the right edge keeps the ways up. -/
theorem Climbs.hear (hclimbs : g.Climbs past) (hg : g.Issued n) (hc : c.target? = some h)
    (hh : h ∈ g.spine) : (g.hear ⟨n⟩ c).Climbs (c.event n :: past) := by
  have hresolve : g.resolve h = h := if_pos hh
  obtain ⟨above, below, hspine, hplant⟩ := spine_plantAt hh hg.nodup
  -- the edge down to the node stays, and so do the ways up from there
  have hkeep : ∀ (x : Planted), ∀ q ∈ above ++ [h],
      (wayUp (c.event n :: past) q).length = (g.plantAt h x).spine.idxOf q + 1 := by
    intro x q hq
    have hmem : q ∈ g.spine := by
      rw [hspine, List.append_cons]
      exact List.mem_append_left _ hq
    rw [wayUp_event (hg.below q hmem), hclimbs q hmem, hplant, hspine, List.append_cons,
      List.append_cons above h x.edge, List.idxOf_append_of_mem hq, List.idxOf_append_of_mem hq]
  -- an addition that is no node ends the edge there
  have hleaf : ∀ tree, (g.add h (.leaf tree)).Climbs (c.event n :: past) := by
    intro tree q hq
    rw [add, hresolve] at hq ⊢
    refine hkeep (.leaf tree) q ?_
    rwa [hplant] at hq
  cases c with
  | header title => cases hc
  | footer => cases hc
  | leaf p text => obtain rfl := Option.some.inj hc; exact hleaf _
  | empty p => obtain rfl := Option.some.inj hc; exact hleaf _
  | error p message => obtain rfl := Option.some.inj hc; exact hleaf _
  | node p label =>
    obtain rfl := Option.some.inj hc
    intro q hq
    have hhear : g.hear ⟨n⟩ (.node p label) = g.plantAt p (.node ⟨n⟩ label []) := by
      show g.add p _ = _
      rw [add, hresolve]
    have hedge : (Planted.node ⟨n⟩ label []).edge = [⟨n⟩] := rfl
    rw [hhear] at hq ⊢
    rw [hplant, hedge, List.append_cons, List.mem_append, List.mem_singleton] at hq
    rcases hq with hq | rfl
    · -- a node that was on the edge before
      exact hkeep _ q hq
    · -- the new node stands one below its parent, with which the edge ended before
      have hnew : (⟨n⟩ : Handle) ∉ above ++ [p] := by
        intro hmem
        refine Nat.lt_irrefl n (hg.below ⟨n⟩ ?_)
        rw [hspine, List.append_cons]
        exact List.mem_append_left _ hmem
      have hparent := hkeep (.leaf .empty) p (List.mem_append_right _ (List.mem_singleton_self p))
      have hnot : p ∉ above := by
        have hnodup := hg.nodup
        rw [hspine, List.nodup_middle, List.nodup_cons] at hnodup
        exact fun hmem => hnodup.1 (List.mem_append_left _ hmem)
      rw [wayUp_event (hg.below p hh), hplant, List.idxOf_append_of_notMem hnot,
        List.idxOf_cons_self] at hparent
      rw [hplant, hedge, List.append_cons, List.idxOf_append_of_notMem hnew,
        List.idxOf_cons_self]
      simp [Call.event, wayUp, hparent]

/-- A sealed tree has something to say about every call. -/
theorem eq_nil_of_quiet_sealed {cs : List Call}
    (hquiet : Builder.said (⟨.sealed title g.growth, n⟩ : Assembler) cs = []) : cs = [] := by
  cases cs with
  | nil => rfl
  | cons c cs =>
    rw [Builder.said_cons, List.append_eq_nil_iff] at hquiet
    cases c <;> cases hquiet.1

/-- Where the assembler says nothing about calls, each addition is as deep as the way up from the
named node is long. -/
theorem placed_untilSealed (hg : g.Issued n) (hclimbs : g.Climbs past) {cs : List Call}
    (hquiet : Builder.said (⟨.growing title g.growth, n⟩ : Assembler) cs = []) :
    g.placed n (untilSealed cs) = (eventsOf n cs).filterMap fun e =>
      e.call.target?.map fun h =>
        ⟨(wayUp ((eventsOf n cs).reverse ++ past) h).length, e.call⟩ := by
  induction cs generalizing g n past with
  | nil => rfl
  | cons c cs ih =>
    rw [Builder.said_cons, List.append_eq_nil_iff] at hquiet
    obtain ⟨hfirst, hquiet⟩ := hquiet
    -- the assembler goes on as the tree that hears the call
    have hstep : (Builder.apply (⟨.growing title g.growth, n⟩ : Assembler) c).1 =
        ⟨if c.seals then .sealed title (g.hear ⟨n⟩ c).growth
          else .growing title (g.hear ⟨n⟩ c).growth, c.issued n⟩ := by
      rw [← build_growth hg.nodup]
      rfl
    rw [hstep] at hquiet
    have hevents : (eventsOf n (c :: cs)).reverse ++ past =
        (eventsOf (c.issued n) cs).reverse ++ c.event n :: past := by
      rw [eventsOf, List.reverse_cons, List.append_assoc]
      rfl
    -- the way up from the named node is not touched by this call or by later ones
    have hdepth : ∀ h, c.target? = some h →
        g.depthUnder h = (wayUp ((eventsOf n (c :: cs)).reverse ++ past) h).length := by
      intro h hc
      have hmem := mem_spine_of_quiet hfirst hc
      rw [wayUp_eventsOf (hg.below h hmem), depthUnder_of_mem hmem, hclimbs h hmem]
    have hrest : (g.hear ⟨n⟩ c).placed (c.issued n) (if c.seals then [] else untilSealed cs) =
        (eventsOf (c.issued n) cs).filterMap fun e => e.call.target?.map fun h =>
          ⟨(wayUp ((eventsOf n (c :: cs)).reverse ++ past) h).length, e.call⟩ := by
      rw [hevents]
      cases hseals : c.seals with
      | true =>
        -- nothing can follow a call that seals: it would be warned of
        rw [hseals] at hquiet
        obtain rfl := eq_nil_of_quiet_sealed hquiet
        rfl
      | false =>
        rw [hseals] at hquiet
        cases hc : c.target? with
        | some h => exact ih (hg.hear c) (hclimbs.hear hg hc (mem_spine_of_quiet hfirst hc)) hquiet
        | none =>
          -- a call that neither adds nor seals is a second header, and that is warned of
          cases c with
          | header again => cases hfirst
          | footer => cases hseals
          | _ => cases hc
    rw [untilSealed, placed, hrest]
    cases hc : c.target? with
    | none => simp [eventsOf, hc]
    | some h => simp [eventsOf, hc, hdepth h hc]

end Planting

/-- The additions of calls about which an assembler says nothing are as deep as the events of the
calls tell. -/
theorem placedCalls_eq_placedEvents {title : String} {cs : List Call}
    (hquiet : Builder.said Assembler.new (.header title :: cs) = []) :
    placedCalls (.header title :: cs) = placedEvents (eventsOf 0 (.header title :: cs)) := by
  have hroot : (⟨⟨0⟩, []⟩ : Planting).Issued 1 :=
    ⟨by simp [Planting.spine, Planted.edgeOf], by simp [Planting.spine, Planted.edgeOf]⟩
  -- behind the header the edge is the root, from which the way up is itself
  have hclimbs : (⟨⟨0⟩, []⟩ : Planting).Climbs [.header ⟨0⟩ title] := by
    intro h hh
    obtain rfl : h = ⟨0⟩ := by simpa [Planting.spine, Planted.edgeOf] using hh
    rfl
  have hplaced := Planting.placed_untilSealed hroot hclimbs hquiet
  have hevents : (eventsOf 0 (.header title :: cs)).reverse =
      (eventsOf 1 cs).reverse ++ [.header ⟨0⟩ title] := by
    rw [eventsOf, List.reverse_cons]
    rfl
  rw [placedEvents, hevents]
  exact hplaced

end WhileSyntax
