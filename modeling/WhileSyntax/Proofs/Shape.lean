import WhileSyntax.Proofs.Handles
import WhileSyntax.Proofs.Recording
namespace WhileSyntax

/-! # The shape of a recorded tree

Read as a tree, the events of an analysis follow the grammar: the children of a rule's node spell
one of its productions (`Finished`). Only where the analysis failed are there nodes that do not, and
they are those on the way from the program down to the error (`Unfinished`): each of them has the
children of a production's beginning, and then the next node of the way or the error.
-/

/-! ## Events as a tree -/

/-- What stands right below a node. -/
inductive Child where
  | node (handle : Handle) (label : Symbol)
  | lexeme (text : String)
  | empty
  | error (message : String)
  deriving DecidableEq, Repr

def Child.label? : Child → Option Symbol
  | .node _ label => some label
  | _ => none

namespace Event

/-- What the event puts below the node `h`, if it is that node that it names. -/
def child? (h : Handle) : Event → Option Child
  | .node parent child label => if parent = h then some (.node child label) else none
  | .leaf parent lexeme => if parent = h then some (.lexeme lexeme) else none
  | .empty parent => if parent = h then some .empty else none
  | .error parent message => if parent = h then some (.error message) else none
  | .header .. | .footer => none

/-- The handle of the node that the event makes, if it makes one. -/
def made? : Event → Option Handle
  | .header root _ => some root
  | .node _ child _ => some child
  | _ => none

end Event

/-- The children of the node `h`, from left to right. -/
def childrenOf (events : List Event) (h : Handle) : List Child :=
  events.filterMap (Event.child? h)

/-- The children spell a production of the rule; an empty one has left its mark. -/
def Finished (r : Rule) (children : List Child) : Prop :=
  ∃ rhs ∈ r.productions,
    if rhs = [] then children = [.empty] else children.map Child.label? = rhs.map some

/-- The way from a node of the rule down to the error, as the handles of the nodes on it. -/
inductive Unfinished (events : List Event) (e : Diagnosis) : Rule → List Handle → Prop where
  /-- The children spell what stands before the expected terminal, and then comes the error. -/
  | stops {r : Rule} {done todo : List Symbol} {nodes : List Child}
      (hr : done ++ .terminal e.expected :: todo ∈ r.productions)
      (hnodes : nodes.map Child.label? = done.map some)
      (hchildren : childrenOf events e.node = nodes ++ [.error e.message]) :
      Unfinished events e r [e.node]
  /-- The children spell what stands before a rule, and then comes its node, where it goes on. -/
  | leads {r s : Rule} {h next : Handle} {path : List Handle} {done todo : List Symbol}
      {nodes : List Child} (hr : done ++ .rule s :: todo ∈ r.productions)
      (hnodes : nodes.map Child.label? = done.map some)
      (hchildren : childrenOf events h = nodes ++ [.node next (.rule s)])
      (hbelow : Unfinished events e s (next :: path)) : Unfinished events e r (h :: next :: path)

/-- Only the children of the nodes on the way matter. -/
theorem Unfinished.congr {events more : List Event} {e : Diagnosis} {r : Rule} {path : List Handle}
    (h : Unfinished events e r path) (hmore : ∀ t ∈ path, childrenOf more t = childrenOf events t) :
    Unfinished more e r path := by
  induction h with
  | stops hr hnodes hchildren =>
    exact .stops hr hnodes ((hmore _ (by simp)).trans hchildren)
  | leads hr hnodes hchildren _ ih =>
    obtain ⟨hfirst, hmore⟩ := List.forall_mem_cons.1 hmore
    exact .leads hr hnodes (hfirst.trans hchildren) (ih hmore)

/-! ## Children from calls -/

@[simp] theorem childrenOf_append (events more : List Event) (h : Handle) :
    childrenOf (events ++ more) h = childrenOf events h ++ childrenOf more h :=
  List.filterMap_append

theorem childrenOf_cons (e : Event) (events : List Event) (h : Handle) :
    childrenOf (e :: events) h = (e.child? h).toList ++ childrenOf events h := by
  unfold childrenOf
  rw [List.filterMap_cons]
  cases e.child? h <;> rfl

theorem child?_event {c : Call} {h : Handle} (hc : c.target? ≠ some h) (n : Nat) :
    (c.event n).child? h = none := by
  cases c <;> simp_all [Call.event, Event.child?, Call.target?]

/-- A node that no call names gets no child. -/
theorem childrenOf_eventsOf_eq_nil {cs : List Call} {h : Handle}
    (hcs : ∀ c ∈ cs, c.target? ≠ some h) (n : Nat) : childrenOf (eventsOf n cs) h = [] := by
  induction cs generalizing n with
  | nil => rfl
  | cons c cs ih =>
    obtain ⟨hc, hcs⟩ := List.forall_mem_cons.1 hcs
    rw [eventsOf, childrenOf_cons, child?_event hc, ih hcs]
    rfl

theorem eventsOf_append (n : Nat) (cs ds : List Call) :
    eventsOf n (cs ++ ds) = eventsOf n cs ++ eventsOf (issuedBy n cs) ds := by
  induction cs generalizing n with
  | nil => rfl
  | cons c cs ih => simp [eventsOf, ih]

theorem made?_event (c : Call) (n : Nat) :
    (c.event n).made? = if c.issues then some ⟨n⟩ else none := by
  cases c <;> rfl

theorem made_eventsOf_cons (c : Call) (n : Nat) (cs : List Call) :
    (eventsOf n (c :: cs)).filterMap Event.made? =
      (if c.issues then [⟨n⟩] else []) ++ (eventsOf (c.issued n) cs).filterMap Event.made? := by
  rw [eventsOf, List.filterMap_cons, made?_event]
  cases c.issues <;> rfl

theorem le_of_mem_made {n : Nat} {cs : List Call} {h : Handle}
    (hh : h ∈ (eventsOf n cs).filterMap Event.made?) : n ≤ h.index := by
  induction cs generalizing n with
  | nil => simp [eventsOf] at hh
  | cons c cs ih =>
    rw [made_eventsOf_cons] at hh
    cases hc : c.issues with
    | false => exact ih (by simpa [hc, Call.issued] using hh)
    | true =>
      simp only [hc, if_true, Call.issued, List.mem_append, List.mem_singleton] at hh
      rcases hh with rfl | hh
      · exact le_rfl
      · exact (Nat.le_succ n).trans (ih hh)

/-- No two nodes have the same handle. -/
theorem nodup_made (n : Nat) (cs : List Call) :
    ((eventsOf n cs).filterMap Event.made?).Nodup := by
  induction cs generalizing n with
  | nil => exact List.nodup_nil
  | cons c cs ih =>
    rw [made_eventsOf_cons]
    cases hc : c.issues with
    | false => simpa [hc, Call.issued] using ih n
    | true =>
      -- all that is made later has a greater number
      have hfresh : ⟨n⟩ ∉ (eventsOf (n + 1) cs).filterMap Event.made? :=
        fun hmem => absurd (le_of_mem_made hmem) (Nat.not_succ_le_self n)
      simpa [hc, Call.issued] using List.nodup_cons.2 ⟨hfresh, ih (n + 1)⟩

/-! ## Along a derivation -/

namespace Derivation

variable {xs : List Symbol}

def events {xs : List Symbol} (d : Derivation xs) (p : Handle) (n : Nat) : List Event :=
  eventsOf n (d.calls p n)

theorem events_terminal (l : Leaf) (rest : Derivation xs) (p : Handle) (n : Nat) :
    (terminal l rest).events p n =
      .node p ⟨n⟩ (.terminal l.kind) :: .leaf ⟨n⟩ l.text :: rest.events p (n + 1) :=
  rfl

theorem events_rule {r : Rule} {rhs : List Symbol} (hr : rhs ∈ r.productions)
    (below : Derivation rhs) (rest : Derivation xs) (p : Handle) (n : Nat) :
    (rule r hr below rest).events p n =
      .node p ⟨n⟩ (.rule r) :: (eventsOf (n + 1) (markOf ⟨n⟩ rhs) ++ below.events ⟨n⟩ (n + 1) ++
        rest.events p (n + 1 + below.size)) := by
  have hnode : (Call.node p (.rule r)).issued n = n + 1 := rfl
  rw [events, calls_rule, eventsOf, hnode, eventsOf_append, eventsOf_append, issuedBy_append,
    issuedBy_markOf, issuedBy_calls]
  rfl

/-- Outside of its nodes a derivation adds no child but to the node that it goes under. -/
theorem childrenOf_events_eq_nil (d : Derivation xs) {p h : Handle} {n : Nat} (hp : h ≠ p)
    (hout : h.index < n ∨ n + d.size ≤ h.index) : childrenOf (d.events p n) h = [] :=
  childrenOf_eventsOf_eq_nil (fun _ hc => (d.confined_calls p n).target_ne hp hout hc) n

/-- Below the node `h`, the events of a rule and of what comes behind it put the rule's node, the
mark of an empty production, and what both of their derivations put there. -/
theorem childrenOf_events_rule {r : Rule} {rhs : List Symbol} (hr : rhs ∈ r.productions)
    (below : Derivation rhs) (rest : Derivation xs) (p : Handle) (n : Nat) (h : Handle) :
    childrenOf ((rule r hr below rest).events p n) h =
      (if p = h then [.node ⟨n⟩ (.rule r)] else []) ++
        (if rhs = [] ∧ ⟨n⟩ = h then [.empty] else []) ++
        childrenOf (below.events ⟨n⟩ (n + 1)) h ++
        childrenOf (rest.events p (n + 1 + below.size)) h := by
  -- the mark goes to the rule's own node
  have hmark : childrenOf (eventsOf (n + 1) (markOf ⟨n⟩ rhs)) h =
      if rhs = [] ∧ ⟨n⟩ = h then [.empty] else [] := by
    by_cases hrhs : rhs = []
    · by_cases hh : (⟨n⟩ : Handle) = h <;>
        simp [markOf, hrhs, hh, eventsOf, childrenOf, Call.event, Event.child?]
    · simp [markOf, hrhs, eventsOf, childrenOf]
  rw [events_rule, childrenOf_cons, childrenOf_append, childrenOf_append, hmark]
  by_cases hp : p = h <;> simp [Event.child?, hp]

/-- The children that a derivation adds to the node that it goes under spell its symbols. -/
theorem labels_childrenOf_events (d : Derivation xs) {p : Handle} {n : Nat} (hp : p.index < n) :
    (childrenOf (d.events p n) p).map Child.label? = xs.map some := by
  induction d generalizing n with
  | nil => rfl
  | terminal l rest ih =>
    have hne : (⟨n⟩ : Handle) ≠ p := fun heq => Nat.lt_irrefl _ (heq ▸ hp)
    rw [events_terminal, childrenOf_cons, childrenOf_cons]
    simp [Event.child?, Child.label?, hne, ih (Nat.lt_succ_of_lt hp)]
  | rule r hr below rest _ ih =>
    have hne : p ≠ (⟨n⟩ : Handle) := fun heq => Nat.lt_irrefl _ (heq ▸ hp)
    -- below the new node only that node and later ones are named, so nothing comes to `p`
    have hbelow := below.childrenOf_events_eq_nil (n := n + 1) hne (.inl (by omega))
    have hrest := ih (n := n + 1 + below.size) (by omega)
    rw [childrenOf_events_rule, hbelow]
    simpa [Child.label?, hne.symm] using hrest

/-- Every rule's node of a derivation is finished. -/
theorem finished_of_mem_events (d : Derivation xs) {p : Handle} {n : Nat} (hp : p.index < n)
    {q h : Handle} {s : Rule} (hmem : .node q h (.rule s) ∈ d.events p n) :
    (n ≤ h.index ∧ h.index < n + d.size) ∧ Finished s (childrenOf (d.events p n) h) := by
  induction d generalizing p n with
  | nil => simp [events, calls, actions, eventsOf] at hmem
  | terminal l rest ih =>
    rw [events_terminal] at hmem ⊢
    simp only [List.mem_cons, Event.node.injEq, reduceCtorEq, and_false, false_or] at hmem
    obtain ⟨⟨hlow, hhigh⟩, hfinished⟩ := ih (Nat.lt_succ_of_lt hp) hmem
    have hne : p ≠ h := by rintro rfl; omega
    have hnode : (⟨n⟩ : Handle) ≠ h := by rintro rfl; exact Nat.not_succ_le_self n hlow
    rw [childrenOf_cons, childrenOf_cons, size]
    exact ⟨⟨by omega, by omega⟩, by simpa [Event.child?, hne, hnode] using hfinished⟩
  | @rule _ r rhs hr below rest ihb ihr =>
    have hmark : .node q h (.rule s) ∉ eventsOf (n + 1) (markOf ⟨n⟩ rhs) := by
      by_cases hrhs : rhs = [] <;> simp [markOf, hrhs, eventsOf, Call.event]
    rw [events_rule] at hmem
    rw [childrenOf_events_rule, size]
    simp only [List.mem_cons, List.mem_append, hmark, false_or] at hmem
    rcases hmem with hnode | hbelow | hrest
    · -- the children of the rule's own node are its mark, or those that `below` adds
      obtain ⟨-, rfl, heq⟩ := Event.node.inj hnode
      obtain rfl := Symbol.rule.inj heq
      have hne : p ≠ (⟨n⟩ : Handle) := fun heq => Nat.lt_irrefl _ (heq ▸ hp)
      have hright := rest.childrenOf_events_eq_nil (n := n + 1 + below.size) hne.symm
        (.inl (show n < n + 1 + below.size by omega))
      have hlabels := below.labels_childrenOf_events (Nat.lt_succ_self n)
      refine ⟨⟨le_rfl, show n < n + (below.size + rest.size + 1) by omega⟩, rhs, hr, ?_⟩
      by_cases hrhs : rhs = []
      · have hnone : childrenOf (below.events ⟨n⟩ (n + 1)) ⟨n⟩ = [] := by simpa [hrhs] using hlabels
        simp [hne, hright, hrhs, hnone]
      · simpa [hne, hright, hrhs] using hlabels
    · -- the node is in the derivation below: what the rule itself adds goes to `p` and to `⟨n⟩`
      obtain ⟨⟨hlow, hhigh⟩, hfinished⟩ := ihb (Nat.lt_succ_self n) hbelow
      have hne : p ≠ h := by rintro rfl; omega
      have hnode : (⟨n⟩ : Handle) ≠ h := by rintro rfl; exact Nat.not_succ_le_self n hlow
      have hright := rest.childrenOf_events_eq_nil hne.symm (.inl hhigh)
      exact ⟨⟨by omega, by omega⟩, by simpa [hne, hnode, hright] using hfinished⟩
    · -- the node is to the right, where nothing that was added before it is named
      obtain ⟨⟨hlow, hhigh⟩, hfinished⟩ := ihr (n := n + 1 + below.size) (by omega) hrest
      have hne : p ≠ h := by rintro rfl; omega
      have hnode : (⟨n⟩ : Handle) ≠ h := by rintro rfl; exact absurd hlow (by simp; omega)
      have hleft := below.childrenOf_events_eq_nil (n := n + 1) hnode.symm (.inr hlow)
      exact ⟨⟨by omega, by omega⟩, by simpa [hne, hnode, hleft] using hfinished⟩

end Derivation

/-! ## Along a derivation that stops -/

namespace Stopped

variable {xs done rhs todo : List Symbol}

def events {xs : List Symbol} (d : Stopped xs) (p : Handle) (n : Nat) (message : String) :
    List Event :=
  eventsOf n (d.calls p n) ++ [.error (d.site p n) message]

theorem events_before (left : Derivation done) (k : TokenKind)
    (h : xs = done ++ .terminal k :: todo) (p : Handle) (n : Nat) (message : String) :
    (before left k todo h).events p n message = left.events p n ++ [.error p message] :=
  rfl

theorem events_within (left : Derivation done) {r : Rule} (hr : rhs ∈ r.productions)
    (below : Stopped rhs) (h : xs = done ++ .rule r :: todo) (p : Handle) (n : Nat)
    (message : String) :
    (within left r hr below todo h).events p n message = left.events p n ++
      .node p ⟨n + left.size⟩ (.rule r) ::
        below.events ⟨n + left.size⟩ (n + left.size + 1) message := by
  have hnode : (Call.node p (.rule r)).issued (n + left.size) = n + left.size + 1 := rfl
  rw [events, calls_within, eventsOf_append, left.issuedBy_calls, eventsOf, hnode]
  simp [events, site, Derivation.events, Call.event]

/-- Outside of its nodes a derivation that stops adds no child but to the node that it goes
under. -/
theorem childrenOf_events_eq_nil (d : Stopped xs) {p h : Handle} {n : Nat} (message : String)
    (hp : h ≠ p) (hout : h.index < n ∨ n + d.size ≤ h.index) :
    childrenOf (d.events p n message) h = [] := by
  -- the calls name other nodes, so only the error is left to look at
  have hcalls := childrenOf_eventsOf_eq_nil
    (fun _ hc => (d.confined_calls p n).target_ne hp hout hc) n
  have hsite : d.site p n ≠ h := by
    rintro rfl
    rcases d.site_eq_or_mem p n with heq | ⟨hlow, hhigh⟩
    · exact hp heq
    · omega
  rw [events, childrenOf_append, hcalls]
  simp [childrenOf, Event.child?, hsite]

/-- Behind a derivation, the events within a rule alone make out the children of the rule's node and
of all nodes below it. -/
theorem childrenOf_events_within (left : Derivation done) {r : Rule} (hr : rhs ∈ r.productions)
    (below : Stopped rhs) (heq : xs = done ++ .rule r :: todo) {p h : Handle} {n : Nat}
    (message : String) (hp : p.index < n) (hh : n + left.size ≤ h.index) :
    childrenOf ((within left r hr below todo heq).events p n message) h =
      childrenOf (below.events ⟨n + left.size⟩ (n + left.size + 1) message) h := by
  have hne : p ≠ h := by rintro rfl; omega
  have hleft := left.childrenOf_events_eq_nil hne.symm (.inr hh)
  rw [events_within, childrenOf_append, childrenOf_cons, hleft]
  simp [Event.child?, hne]

/-- Below the node of a rule that is half derived, all nodes are finished but for those on the way
to where the derivation stops. -/
theorem unfinished_events (d : Stopped xs) {p : Handle} {n : Nat} (hp : p.index < n) {r : Rule}
    (hr : xs ∈ r.productions) {e : Diagnosis} (hexpected : e.expected = d.expected)
    (hsite : e.node = d.site p n) :
    ∃ path, Unfinished (d.events p n e.message) e r (p :: path) ∧ (∀ h ∈ path, n ≤ h.index) ∧
      ∀ q h s, .node q h (.rule s) ∈ d.events p n e.message →
        n ≤ h.index ∧ (h ∉ path → Finished s (childrenOf (d.events p n e.message) h)) := by
  induction d generalizing p n r with
  | before left k todo h =>
    subst h
    rw [events_before]
    refine ⟨[], ?_, by simp, ?_⟩
    · -- the way ends here: the children of `p` are those on the left, and then the error
      have hchildren : childrenOf (left.events p n ++ [.error p e.message]) p =
          childrenOf (left.events p n) p ++ [.error e.message] := by
        simp [childrenOf, Event.child?]
      have hp' : e.node = p := hsite
      have hk : e.expected = k := hexpected
      have hlabels := left.labels_childrenOf_events hp
      rw [← hk] at hr
      rw [← hp'] at hlabels hchildren ⊢
      exact .stops hr hlabels hchildren
    · -- all other nodes are on the left, where everything is finished
      intro q h s hmem
      have hnode : .node q h (.rule s) ∈ left.events p n := by simpa using hmem
      obtain ⟨⟨hlow, _⟩, hfinished⟩ := left.finished_of_mem_events hp hnode
      have hne : p ≠ h := by rintro rfl; omega
      exact ⟨hlow, fun _ => by simpa [childrenOf, Event.child?, hne] using hfinished⟩
  | @within xs done rhs left s hs below todo h ih =>
    obtain ⟨path, hway, hpath, hnodes⟩ := ih (Nat.lt_succ_self (n + left.size)) hs hexpected hsite
    refine ⟨⟨n + left.size⟩ :: path, ?_, ?_, ?_⟩
    · -- the way leads down: the last child of `p` is the node that the way goes through
      have hlabels := left.labels_childrenOf_events hp
      have hne : p ≠ ⟨n + left.size⟩ := by rintro rfl; exact absurd hp (by simp)
      have hbelow := below.childrenOf_events_eq_nil (n := n + left.size + 1) e.message hne
        (.inl (by omega))
      have hchildren : childrenOf ((within left s hs below todo h).events p n e.message) p =
          childrenOf (left.events p n) p ++ [.node ⟨n + left.size⟩ (.rule s)] := by
        rw [events_within, childrenOf_append, childrenOf_cons, hbelow]
        simp [Event.child?]
      refine .leads (h ▸ hr) hlabels hchildren (hway.congr ?_)
      -- what was added on the left does not touch the nodes further down on the way
      intro t ht
      apply childrenOf_events_within left hs below h e.message hp
      rcases List.mem_cons.1 ht with rfl | ht
      · exact le_rfl
      · exact (Nat.le_succ _).trans (hpath t ht)
    · intro t ht
      rcases List.mem_cons.1 ht with rfl | ht
      · exact Nat.le_add_right ..
      · have := hpath t ht
        omega
    · intro q t u hmem
      rw [events_within, List.mem_append, List.mem_cons] at hmem
      rcases hmem with hleft | hnode | hbelow
      · -- to the left of the way
        obtain ⟨⟨hlow, hhigh⟩, hfinished⟩ := left.finished_of_mem_events hp hleft
        have hne : p ≠ t := by rintro rfl; omega
        have hnode : t ≠ ⟨n + left.size⟩ := by rintro rfl; exact absurd hhigh (by simp)
        have hright := below.childrenOf_events_eq_nil (n := n + left.size + 1) e.message hnode
          (.inl (by omega))
        refine ⟨hlow, fun _ => ?_⟩
        rw [events_within, childrenOf_append, childrenOf_cons, hright]
        simpa [Event.child?, hne] using hfinished
      · -- the node itself is on the way
        obtain ⟨-, rfl, -⟩ := Event.node.inj hnode
        exact ⟨Nat.le_add_right .., fun hnot => absurd (List.mem_cons_self ..) hnot⟩
      · -- below the node, by the induction hypothesis
        obtain ⟨hlow, hfinished⟩ := hnodes q t u hbelow
        refine ⟨by omega, fun hnot => ?_⟩
        rw [childrenOf_events_within left hs below h e.message hp (by omega)]
        exact hfinished fun hin => hnot (List.mem_cons_of_mem _ hin)

end Stopped

/-! ## Whole recordings -/

/-- The header of an analysis, its events on the way, and those that close it. -/
theorem eventsOf_analysis (title : String) (r : LogRecord) (trace last : List Action) :
    eventsOf 0 (calls (.note r :: .call (.header title) :: (trace ++ last))) =
      .header ⟨0⟩ title ::
        (eventsOf 1 (calls trace) ++ eventsOf (issuedBy 1 (calls trace)) (calls last)) := by
  rw [calls_note, calls_call, calls_append, eventsOf, eventsOf_append]
  rfl

/-- The events of an accepted analysis: everything is finished. -/
theorem Derivation.finished_recording (d : Derivation [.rule .program]) (title : String) :
    let events := .header ⟨0⟩ title :: (d.events ⟨0⟩ 1 ++ [.footer])
    childrenOf events ⟨0⟩ = [.node ⟨1⟩ (.rule .program)] ∧
      ∀ q h r, .node q h (.rule r) ∈ events → Finished r (childrenOf events h) := by
  intro events
  -- header and footer add nothing to any node
  have hchildren : ∀ h, childrenOf events h = childrenOf (d.events ⟨0⟩ 1) h := by
    intro h
    rw [childrenOf_cons, childrenOf_append]
    simp [childrenOf, Event.child?]
  refine ⟨?_, ?_⟩
  · rw [hchildren]
    -- a program derives from one rule, so the root has one child
    cases d with
    | rule r hr below rest =>
      cases rest
      have hbelow := below.childrenOf_events_eq_nil (p := ⟨1⟩) (h := ⟨0⟩) (n := 2) (by decide)
        (.inl Nat.zero_lt_two)
      rw [childrenOf_events_rule, hbelow]
      simp [Derivation.events, Derivation.calls, actions, eventsOf, childrenOf]
  · intro q h r hmem
    have hnode : .node q h (.rule r) ∈ d.events ⟨0⟩ 1 := by simpa [events] using hmem
    rw [hchildren]
    exact (d.finished_of_mem_events Nat.zero_lt_one hnode).2

/-- The events of a failed analysis: what is not finished lies on the way to the error. -/
theorem Stopped.unfinished_recording (d : Stopped [.rule .program]) (title : String)
    {e : Diagnosis} (hexpected : e.expected = d.expected) (hsite : e.node = d.site ⟨0⟩ 1) :
    let events := .header ⟨0⟩ title :: d.events ⟨0⟩ 1 e.message
    childrenOf events ⟨0⟩ = [.node ⟨1⟩ (.rule .program)] ∧
      ∃ path, Unfinished events e .program (⟨1⟩ :: path) ∧
        ∀ q h r, .node q h (.rule r) ∈ events → h ∉ (⟨1⟩ :: path : List Handle) →
          Finished r (childrenOf events h) := by
  intro events
  obtain ⟨rhs, hr, below, rfl⟩ := d.exists_eq_within
  have hevents : events = .header ⟨0⟩ title :: .node ⟨0⟩ ⟨1⟩ (.rule .program) ::
      below.events ⟨1⟩ 2 e.message :=
    congrArg (.header ⟨0⟩ title :: ·) (events_within .nil hr below rfl ⟨0⟩ 1 e.message)
  have hchildren : ∀ h, childrenOf events h =
      (if (⟨0⟩ : Handle) = h then [.node ⟨1⟩ (.rule .program)] else []) ++
        childrenOf (below.events ⟨1⟩ 2 e.message) h := by
    intro h
    rw [hevents, childrenOf_cons, childrenOf_cons]
    by_cases hroot : (⟨0⟩ : Handle) = h <;> simp [Event.child?, hroot]
  -- none of the nodes below the program is the root
  have hinner : ∀ h : Handle, 0 < h.index →
      childrenOf events h = childrenOf (below.events ⟨1⟩ 2 e.message) h := by
    intro h hpos
    have hne : (⟨0⟩ : Handle) ≠ h := by rintro rfl; exact Nat.lt_irrefl _ hpos
    rw [hchildren, if_neg hne, List.nil_append]
  obtain ⟨path, hway, hpath, hnodes⟩ :=
    below.unfinished_events (Nat.lt_succ_self 1) hr hexpected hsite
  refine ⟨?_, path, hway.congr ?_, ?_⟩
  · have hroot := below.childrenOf_events_eq_nil (p := ⟨1⟩) (h := ⟨0⟩) (n := 2) e.message
      (by decide) (.inl Nat.zero_lt_two)
    rw [hchildren, hroot]
    rfl
  · intro h hh
    rcases List.mem_cons.1 hh with rfl | hh
    · exact hinner _ Nat.zero_lt_one
    · exact hinner h (Nat.lt_of_lt_of_le Nat.zero_lt_two (hpath h hh))
  · intro q h r hmem hnot
    rw [hevents, List.mem_cons, List.mem_cons] at hmem
    rcases hmem with hheader | hprogram | hbelow
    · cases hheader
    · obtain ⟨-, rfl, -⟩ := Event.node.inj hprogram
      exact absurd (List.mem_cons_self ..) hnot
    · obtain ⟨hlow, hfinished⟩ := hnodes q h r hbelow
      rw [hinner h (Nat.lt_of_lt_of_le Nat.zero_lt_two hlow)]
      exact hfinished fun hin => hnot (List.mem_cons_of_mem _ hin)

/-- The recorded tree of an analysis follows the grammar. Below the root there is the program. Where
the analysis succeeded, every rule's node is finished; where it failed, all are but those on a way
from the program down to the error. -/
theorem recorded_tree_follows_grammar (title : String) (ts : List Token) :
    let session := (⟨.ofTokens ts, Recorder.new⟩ : Session Recorder).analyze title
    let events := session.1.builder.events
    (events.filterMap Event.made?).Nodup ∧
      childrenOf events ⟨0⟩ = [.node ⟨1⟩ (.rule .program)] ∧
      (session.2.1 = none →
        ∀ q h r, .node q h (.rule r) ∈ events → Finished r (childrenOf events h)) ∧
      ∀ e, session.2.1 = some e → ∃ path, Unfinished events e .program (⟨1⟩ :: path) ∧
        ∀ q h r, .node q h (.rule r) ∈ events → h ∉ (⟨1⟩ :: path : List Handle) →
          Finished r (childrenOf events h) := by
  intro session events
  have hevents : events = eventsOf 0 (calls (analyze title ⟨0⟩ (.ofTokens ts)).trace) :=
    Session.events_analyze title (.ofTokens ts)
  have herror : session.2.1 = (analyze title ⟨0⟩ (.ofTokens ts)).error := rfl
  refine ⟨hevents ▸ nodup_made 0 _, ?_⟩
  rcases analyze_cases title ⟨0⟩ (.ofTokens ts) with
    ⟨d, rest, _, hanalyze⟩ | ⟨d, rest, _, _, hanalyze⟩
  · -- accepted: the events are those of a derivation
    have hrecording : events = .header ⟨0⟩ title :: (d.events ⟨0⟩ 1 ++ [.footer]) := by
      rw [hevents, hanalyze]
      exact eventsOf_analysis title _ _ _
    obtain ⟨hroot, hfinished⟩ := d.finished_recording title
    rw [hrecording, herror, hanalyze]
    exact ⟨hroot, fun _ => hfinished, by simp⟩
  · -- failed: they are those of a derivation that stops, and then its error
    have hrecording : events = .header ⟨0⟩ title ::
        d.events ⟨0⟩ 1 (d.diagnosis ⟨0⟩ rest).message := by
      rw [hevents, hanalyze]
      exact eventsOf_analysis title _ _ _
    obtain ⟨hroot, hfinished⟩ := d.unfinished_recording title (e := d.diagnosis ⟨0⟩ rest) rfl rfl
    rw [hrecording, herror, hanalyze]
    exact ⟨hroot, by simp, by simpa using hfinished⟩

/-- In `if x < 1 fi`, written without its `then`, the way leads to the conditional. -/
theorem recorded_tree_follows_grammar_withoutThen :
    let ts : List Token := [⟨.ifWord, "if", ⟨0, 2⟩, ⟨1, 1⟩⟩, ⟨.identifier, "x", ⟨3, 4⟩, ⟨1, 4⟩⟩,
      ⟨.relation, "<", ⟨5, 6⟩, ⟨1, 6⟩⟩, ⟨.number, "1", ⟨7, 8⟩, ⟨1, 8⟩⟩,
      ⟨.fiWord, "fi", ⟨9, 11⟩, ⟨1, 10⟩⟩]
    let e : Diagnosis := ⟨.thenWord, "fi", ⟨3⟩, some ⟨1, 10⟩⟩
    let session := (⟨.ofTokens ts, Recorder.new⟩ : Session Recorder).analyze "T"
    let events := session.1.builder.events
    session.2.1 = some e ∧ ∃ path, Unfinished events e .program (⟨1⟩ :: path) ∧
      ∀ q h r, .node q h (.rule r) ∈ events → h ∉ (⟨1⟩ :: path : List Handle) →
        Finished r (childrenOf events h) := by
  intro ts e session events
  have herror : session.2.1 = some e := Analysis.run_error_of_endsWithin (n := 40) rfl
  exact ⟨herror, (recorded_tree_follows_grammar "T" ts).2.2.2 e herror⟩

end WhileSyntax
