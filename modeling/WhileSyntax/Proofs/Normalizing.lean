import Mathlib.Data.List.Induction
import Mathlib.Data.Set.Function
import WhileSyntax.Proofs.Depth
namespace WhileSyntax

/-! # Replaying any events

Events need not come from a recorder: they may declare a handle twice, in any order or not at all,
and name nodes that no event has made. Of those that a replay does not skip it makes calls
(`callsOf`). The calls are the same for every builder that numbers its handles
(`Builder.replay_eq_told`), and they are scoped whatever the events are (`scoped_callsOf`). So a
recorder turns a replay into a normal form, and the events that are normal are those in which
handles are numbered in order and declared before they are named.
-/

/-- What a recorder keeps of a replay of the events. -/
def normalized (events : List Event) : List Event :=
  (Builder.replay Recorder.new events).1.events

def Event.handles : Event → List Handle
  | .header root _ => [root]
  | .node parent child _ => [parent, child]
  | .leaf parent _ | .empty parent | .error parent _ => [parent]
  | .footer => []

def Event.rename (f : Handle → Handle) : Event → Event
  | .header root title => .header (f root) title
  | .node parent child label => .node (f parent) (f child) label
  | .leaf parent lexeme => .leaf (f parent) lexeme
  | .empty parent => .empty (f parent)
  | .error parent message => .error (f parent) message
  | .footer => .footer

/-- The handles are numbered in the order in which they are declared, and an event names only nodes
that were declared before it. -/
structure InOrder (events : List Event) : Prop where
  numbered : ∀ (i : Nat) (h : Handle), (events.filterMap Event.made?)[i]? = some h → h = ⟨i⟩
  declared : ∀ before e after, events = before ++ e :: after →
    ∀ h, e.call.target? = some h → h ∈ before.filterMap Event.made?

/-! ## The calls of a replay -/

/-- The translation after a declaration, if there is one, when the builder issues the handle `n`. -/
def Translation.declare (known : Translation) (n : Nat) : Option Handle → Translation
  | none => known
  | some h => known.insert h.index ⟨n⟩

/-- The calls that a replay makes of events, when the builder has issued `n` handles. -/
def callsOf (n : Nat) (known : Translation) : List Event → List Call
  | [] => []
  | e :: es =>
    match e.toCall? known with
    | none => callsOf n known es
    | some ⟨c, declares⟩ => c :: callsOf (c.issued n) (known.declare n declares) es

namespace Translation

variable {known : Translation} {n : Nat}

/-- The translation leads to handles that were issued. -/
def Below (known : Translation) (n : Nat) : Prop :=
  ∀ (i : Nat) (h : Handle), known[i]? = some h → h.index < n

theorem getElem?_declare_some (known : Translation) (n : Nat) (h : Handle) (i : Nat) :
    (known.declare n (some h))[i]? = if h.index = i then some ⟨n⟩ else known[i]? := by
  rw [declare, Std.TreeMap.getElem?_insert]
  simp [Std.LawfulEqCmp.compare_eq_iff_eq]

theorem below_empty (n : Nat) : Below {} n := by
  intro i h hh
  simp at hh

theorem Below.declare_some (hknown : known.Below n) (h : Handle) :
    (known.declare n (some h)).Below (n + 1) := by
  intro i g hg
  rw [getElem?_declare_some] at hg
  split at hg
  · obtain rfl := Option.some.inj hg
    exact Nat.lt_succ_self n
  · exact Nat.lt_succ_of_lt (hknown i g hg)

end Translation

section

variable {known : Translation} {e : Event} {c : Call} {declares : Option Handle} {n : Nat}

/-- A call that an event asks for is answered just when the event declares a handle, which is then
one that it mentions; and the call names no node but one that the translation knows. -/
theorem Event.toCall?_eq_some (he : e.toCall? known = some ⟨c, declares⟩) :
    c.issues = declares.isSome ∧ (∀ d, declares = some d → d ∈ e.handles) ∧
      ∀ h, c.target? = some h → ∃ i : Nat, known[i]? = some h := by
  cases e <;>
    simp only [toCall?, Option.map_eq_some_iff, Option.some.injEq, Replayed.mk.injEq] at he
  case header root title =>
    rcases he with ⟨rfl, rfl⟩
    refine ⟨rfl, ?_, ?_⟩
    · intro d hd
      cases hd
      exact List.mem_singleton_self root
    · intro h ht
      cases ht
  case footer =>
    rcases he with ⟨rfl, rfl⟩
    refine ⟨rfl, ?_, ?_⟩
    · intro d hd
      cases hd
    · intro h ht
      cases ht
  case node parent child label =>
    rcases he with ⟨p, hp, rfl, rfl⟩
    refine ⟨rfl, ?_, ?_⟩
    · intro d hd
      cases hd
      exact List.mem_cons_of_mem parent (List.mem_singleton_self child)
    · intro h ht
      cases ht
      exact ⟨_, hp⟩
  -- the other events declare nothing
  all_goals
    rcases he with ⟨p, hp, rfl, rfl⟩
    refine ⟨rfl, ?_, ?_⟩
    · intro d hd
      cases hd
    · intro h ht
      cases ht
      exact ⟨_, hp⟩

/-- The declaration of an event leads to a handle that is issued for its call. -/
theorem Translation.Below.declare (hknown : known.Below n)
    (he : e.toCall? known = some ⟨c, declares⟩) :
    (known.declare n declares).Below (c.issued n) := by
  unfold Call.issued
  rw [(Event.toCall?_eq_some he).1]
  cases declares with
  | none => exact hknown
  | some h => exact hknown.declare_some h

/-- Whatever the events, the calls of a replay name only nodes that were made before. -/
theorem scoped_callsOf (hknown : known.Below n) (es : List Event) :
    Scoped n (callsOf n known es) := by
  induction es generalizing n known with
  | nil => trivial
  | cons e es ih =>
    unfold callsOf
    split
    · -- an event that is skipped makes no call
      exact ih hknown
    · next c declares he =>
      constructor
      · -- a call names what the translation knows, which was issued before
        intro h hc
        rcases (Event.toCall?_eq_some he).2.2 h hc with ⟨i, hi⟩
        exact hknown i h hi
      · exact ih (hknown.declare he)

end

namespace Builder

variable {β : Type} [Builder β] [Lawful β]

theorem Replay.foldl_step_callsOf {r : Replay β} {n : Nat} (hnext : next r.builder = ⟨n⟩)
    (es : List Event) :
    (es.foldl Replay.step r).builder = told r.builder (callsOf n r.known es) := by
  induction es generalizing r n with
  | nil => rfl
  | cons e es ih =>
    rw [List.foldl_cons]
    unfold callsOf
    split
    · next he =>
      -- the event is skipped, which only the log tells
      have hskip : r.step e = { r with log := e.skipped :: r.log } := by
        unfold Replay.step
        rw [he]
      rw [hskip]
      exact ih hnext
    · next c declares he =>
      have hstep : r.step e = ⟨(apply r.builder c).1, r.known.declare n declares,
          (apply r.builder c).2.reverse ++ r.log⟩ := by
        cases declares with
        | none => simp only [Replay.step, he, Translation.declare]
        | some h => simp only [Replay.step, he, hnext, Translation.declare]
      rw [hstep]
      exact ih (next_apply hnext c)

/-- A new builder hears of a replay the calls of the events. -/
theorem replay_eq_told {b : β} (hnext : next b = ⟨0⟩) (es : List Event) :
    (replay b es).1 = told b (callsOf 0 {} es) :=
  Replay.foldl_step_callsOf (r := ⟨b, {}, []⟩) hnext es

end Builder

/-- The normal form holds the events of the calls of a replay. -/
theorem normalized_eq (events : List Event) :
    normalized events = eventsOf 0 (callsOf 0 {} events) := by
  rw [normalized, Builder.replay_eq_told rfl, Recorder.events_told_new]

/-- Events of scoped calls are normal. -/
theorem normalized_eventsOf {cs : List Call} (hcs : Scoped 0 cs) :
    normalized (eventsOf 0 cs) = eventsOf 0 cs := by
  rw [normalized, Builder.replay_eventsOf rfl hcs, Recorder.events_told_new]

/-! ## Other names for the handles -/

section

variable {S : Set Handle} {f : Handle → Handle} {known other : Translation} {e : Event} {n : Nat}

/-- The translations say the same of the handles in `S`, which the second knows by other names. -/
def Translation.Renamed (S : Set Handle) (f : Handle → Handle) (known other : Translation) : Prop :=
  ∀ h ∈ S, other[(f h).index]? = known[h.index]?

theorem Translation.Renamed.declare (hf : Set.InjOn f S) (h : Renamed S f known other)
    {declares : Option Handle} (hdeclares : ∀ d ∈ declares, d ∈ S) (n : Nat) :
    Renamed S f (known.declare n declares) (other.declare n (declares.map f)) := by
  cases declares with
  | none => exact h
  | some d =>
    intro g hg
    have hd : d ∈ S := hdeclares d rfl
    -- two names are the same just when the handles are
    have hname : (f d).index = (f g).index ↔ d.index = g.index := by
      rw [← Handle.mk.injEq, ← Handle.mk.injEq]
      exact hf.eq_iff hd hg
    rw [Option.map_some, getElem?_declare_some, getElem?_declare_some, h g hg]
    simp only [hname]

/-- An event with other names asks for the same call and declares its handle by its other name. -/
theorem Event.toCall?_rename (h : Translation.Renamed S f known other)
    (he : ∀ g ∈ e.handles, g ∈ S) :
    (e.rename f).toCall? other =
      (e.toCall? known).map fun r => ⟨r.call, r.declares.map f⟩ := by
  cases e with
  | header root title => rfl
  | footer => rfl
  | node parent child label =>
    -- only the parent is looked up, and it is known under both names
    have hparent := h parent (he parent (by simp [handles]))
    simp [rename, toCall?, hparent, Function.comp_def]
  | leaf parent lexeme =>
    have hparent := h parent (he parent (by simp [handles]))
    simp [rename, toCall?, hparent, Function.comp_def]
  | empty parent =>
    have hparent := h parent (he parent (by simp [handles]))
    simp [rename, toCall?, hparent, Function.comp_def]
  | error parent message =>
    have hparent := h parent (he parent (by simp [handles]))
    simp [rename, toCall?, hparent, Function.comp_def]

/-- The calls of a replay do not depend on what the handles are called. -/
theorem callsOf_rename (hf : Set.InjOn f S) (h : Translation.Renamed S f known other)
    {es : List Event} (hes : ∀ e ∈ es, ∀ g ∈ e.handles, g ∈ S) :
    callsOf n other (es.map (Event.rename f)) = callsOf n known es := by
  induction es generalizing n known other with
  | nil => rfl
  | cons e es ih =>
    obtain ⟨he, hes⟩ := List.forall_mem_cons.1 hes
    have hcall := Event.toCall?_rename h he
    rw [List.map_cons]
    unfold callsOf
    rw [hcall]
    cases htold : e.toCall? known with
    | none => exact ih h hes
    | some r =>
      rcases r with ⟨c, declares⟩
      -- distinct names stay distinct, so a declaration shadows the same ones
      have hdeclares : ∀ d ∈ declares, d ∈ S := by
        intro d hd
        exact he d ((Event.toCall?_eq_some htold).2.1 d hd)
      exact congrArg (List.cons c) (ih (h.declare hf hdeclares n) hes)

end

/-! ## Events in order -/

theorem map_made_eventsOf (r : Recorder) (cs : List Call) :
    (eventsOf r.issued cs).map Event.made? = Builder.answers r cs := by
  induction cs generalizing r with
  | nil => rfl
  | cons c cs ih =>
    have hissued : ((Builder.apply r c).1 : Recorder).issued = c.issued r.issued := by
      cases c <;> rfl
    rw [eventsOf, List.map_cons, made?_event, Builder.answers_cons (n := r.issued) rfl,
      ← hissued, ih]

/-- The handles that the events of calls declare are numbered in order. -/
theorem made_eventsOf (cs : List Call) :
    (eventsOf 0 cs).filterMap Event.made? = (List.range (issuedBy 0 cs)).map Handle.mk := by
  have hmade := map_made_eventsOf Recorder.new cs
  have hanswers := Builder.handles_answers (n := 0) (b := Recorder.new) rfl cs
  rw [← hmade, List.filterMap_map, Nat.sub_zero, ← List.range_eq_range'] at hanswers
  exact hanswers

theorem mem_made_eventsOf {cs : List Call} {h : Handle} :
    h ∈ (eventsOf 0 cs).filterMap Event.made? ↔ h.index < issuedBy 0 cs := by
  rw [made_eventsOf, List.mem_map]
  constructor
  · rintro ⟨i, hi, rfl⟩
    exact List.mem_range.1 hi
  · intro hlt
    exact ⟨h.index, List.mem_range.2 hlt, rfl⟩

theorem length_eventsOf (n : Nat) (cs : List Call) : (eventsOf n cs).length = cs.length := by
  rw [← List.length_map Event.call, map_call_eventsOf]

/-- The events of scoped calls are in order. -/
theorem inOrder_eventsOf {cs : List Call} (hcs : Scoped 0 cs) : InOrder (eventsOf 0 cs) := by
  constructor
  · intro i h hi
    rw [made_eventsOf, List.getElem?_map, Option.map_eq_some_iff] at hi
    rcases hi with ⟨j, hj, rfl⟩
    rw [(List.getElem?_eq_some_iff.1 hj).2.symm, List.getElem_range]
  · intro before e after hsplit h ht
    -- the events before are those of the calls before
    have hcalls := congrArg (List.map Event.call) hsplit
    rw [map_call_eventsOf, List.map_append, List.map_cons] at hcalls
    rw [hcalls, eventsOf_append] at hsplit
    have hbefore := (List.append_inj hsplit (by rw [length_eventsOf, List.length_map])).1
    rw [← hbefore, mem_made_eventsOf]
    exact scoped_iff.1 hcs _ _ _ hcalls h ht

theorem InOrder.of_append {es fs : List Event} (h : InOrder (es ++ fs)) : InOrder es := by
  constructor
  · intro i g hg
    refine h.numbered i g ?_
    rw [List.filterMap_append]
    exact List.getElem?_append_left (List.getElem?_eq_some_iff.1 hg).1 ▸ hg
  · rintro before e after rfl
    exact h.declared before e (after ++ fs) (by simp)

/-- An event that declares the handle `n`, or none, is the event of its call. -/
theorem Event.event_call {e : Event} {n : Nat} (h : ∀ g ∈ e.made?, g = ⟨n⟩) :
    e.call.event n = e := by
  cases e with
  | header root title => rw [h root rfl]; rfl
  | node parent child label => rw [h child rfl]; rfl
  | _ => rfl

/-- Events in order are the events of the calls that they record, and these are scoped. -/
theorem InOrder.eq_eventsOf {events : List Event} (h : InOrder events) :
    events = eventsOf 0 (events.map Event.call) ∧ Scoped 0 (events.map Event.call) := by
  -- from the end: the events before the last one have declared the handles below its own
  induction events using List.reverseRecOn with
  | nil => exact ⟨rfl, trivial⟩
  | append_singleton es e ih =>
    rcases ih h.of_append with ⟨hes, hscoped⟩
    have hcount : (es.filterMap Event.made?).length = issuedBy 0 (es.map Event.call) := by
      rw [hes, made_eventsOf, map_call_eventsOf, List.length_map, List.length_range]
    have hevent : e.call.event (issuedBy 0 (es.map Event.call)) = e := by
      refine Event.event_call fun g hg => h.numbered _ g ?_
      rw [List.filterMap_append, ← hcount, List.getElem?_append_right (Nat.le_refl _), Nat.sub_self,
        List.filterMap_cons_some hg]
      rfl
    rw [List.map_append, List.map_singleton]
    constructor
    · rw [eventsOf_append, ← hes, eventsOf, hevent]
      rfl
    · refine scoped_append.2 ⟨hscoped, ?_, trivial⟩
      intro g hg
      rw [← mem_made_eventsOf, ← hes]
      exact h.declared es e [] rfl g hg

/-! ## The normal form -/

/-- Events are their own normal form just when they are in order. -/
theorem normalized_eq_self_iff {events : List Event} :
    normalized events = events ↔ InOrder events := by
  constructor
  · intro h
    rw [← h, normalized_eq]
    exact inOrder_eventsOf (scoped_callsOf (Translation.below_empty 0) events)
  · intro h
    rcases h.eq_eventsOf with ⟨hevents, hscoped⟩
    rw [hevents]
    exact normalized_eventsOf hscoped

/-- Replaying brings any events into a normal form. A second replay changes nothing more; the events
and their normal form make the same tree; what the handles are called does not matter, as long as
different ones keep different names; and the events that a replay leaves alone are those in
order. -/
theorem replay_normalizes (events : List Event) :
    normalized (normalized events) = normalized events ∧
      (Builder.replay Assembler.new events).1.finish =
        (Builder.replay Assembler.new (normalized events)).1.finish ∧
      (∀ f : Handle → Handle, Set.InjOn f {h | h ∈ events.flatMap Event.handles} →
        normalized (events.map (Event.rename f)) = normalized events) ∧
      (normalized events = events ↔ InOrder events) := by
  have hscoped := scoped_callsOf (Translation.below_empty 0) events
  refine ⟨?_, ?_, ?_, normalized_eq_self_iff⟩
  · rw [normalized_eq events]
    exact normalized_eventsOf hscoped
  · rw [normalized_eq, Builder.replay_eventsOf rfl hscoped, Builder.replay_eq_told rfl]
  · -- before the first event no handle is known, under whatever name
    intro f hf
    have hsame : Translation.Renamed {h | h ∈ events.flatMap Event.handles} f {} {} := by
      intro h _
      simp
    rw [normalized_eq, normalized_eq, callsOf_rename hf hsame]
    intro e he g hg
    exact List.mem_flatMap.2 ⟨e, he, hg⟩

/-- The first event names a node that is made only later, and is lost. The third takes over the
handle of its own parent. -/
theorem normalized_shadowed :
    normalized ([.leaf ⟨7⟩ "y", .header ⟨7⟩ "t", .node ⟨7⟩ ⟨7⟩ (.rule .stmt), .leaf ⟨7⟩ "x",
        .footer].map (Event.rename fun h => ⟨h.index + 3⟩)) =
      [.header ⟨0⟩ "t", .node ⟨0⟩ ⟨1⟩ (.rule .stmt), .leaf ⟨1⟩ "x", .footer] := by
  have hshift : Function.Injective fun h : Handle => (⟨h.index + 3⟩ : Handle) := by
    rintro ⟨i⟩ ⟨j⟩ h
    simpa using h
  have hlaws := replay_normalizes [.leaf ⟨7⟩ "y", .header ⟨7⟩ "t", .node ⟨7⟩ ⟨7⟩ (.rule .stmt),
    .leaf ⟨7⟩ "x", .footer]
  -- with the old names it is short enough to be computed
  rw [hlaws.2.2.1 _ hshift.injOn]
  decide

end WhileSyntax
