import WhileSyntax.Parse
import WhileSyntax.Proofs.Calls
namespace WhileSyntax

/-! # Recording and replaying

The events of scoped calls say all that the calls say: a builder to which they are replayed ends up
as if it had been called itself. So the tree of a parse is the one that an assembler makes of the
calls of the analysis.
-/

/-- The event of a call that is answered, if at all, with the handle `n`. -/
def Call.event (n : Nat) : Call → Event
  | .header title => .header ⟨n⟩ title
  | .node parent label => .node parent ⟨n⟩ label
  | .leaf parent lexeme => .leaf parent lexeme
  | .empty parent => .empty parent
  | .error parent message => .error parent message
  | .footer => .footer

/-- The events of calls, with handles from `n` on. -/
def eventsOf : Nat → List Call → List Event
  | _, [] => []
  | n, c :: cs => c.event n :: eventsOf (c.issued n) cs

/-! ## The recorder -/

namespace Recorder

theorem record_eq (r : Recorder) (c : Call) :
    r.record c = ⟨c.event r.issued :: r.history, c.issued r.issued⟩ := by
  cases c <;> rfl

/-- A recorder keeps the events of the calls that it hears. -/
theorem told_eq (r : Recorder) (cs : List Call) :
    Builder.told r cs = ⟨(eventsOf r.issued cs).reverse ++ r.history, issuedBy r.issued cs⟩ := by
  induction cs generalizing r with
  | nil => rfl
  | cons c cs ih =>
    show Builder.told (r.record c) cs = _
    rw [record_eq, ih]
    simp [eventsOf, issuedBy]

theorem events_told_new (cs : List Call) : (Builder.told new cs).events = eventsOf 0 cs := by
  simp [told_eq, events, new]

end Recorder

/-! ## Replaying -/

/-- The first `n` handles are known, each under its own number. -/
def Translation.Covers (known : Translation) (n : Nat) : Prop :=
  ∀ i, i < n → known[i]? = some ⟨i⟩

theorem Translation.Covers.insert {known : Translation} {n : Nat} (h : known.Covers n) :
    Translation.Covers (known.insert n ⟨n⟩) (n + 1) := by
  intro i hi
  rw [Std.TreeMap.getElem?_insert]
  by_cases heq : n = i
  · simp [heq]
  · have hlt : i < n := by omega
    simp [Std.LawfulEqCmp.compare_eq_iff_eq, heq, h i hlt]

/-- The event of a call asks for that very call, if the node that it names is known. -/
theorem Event.toCall?_event {known : Translation} {n m : Nat} {c : Call} (hknown : known.Covers n)
    (hc : ∀ h, c.target? = some h → h.index < n) :
    (c.event m).toCall? known = some ⟨c, if c.issues then some ⟨m⟩ else none⟩ := by
  cases c with
  | header title => rfl
  | footer => rfl
  | node parent label => simp [Call.event, Event.toCall?, hknown _ (hc parent rfl), Call.issues]
  | leaf parent lexeme => simp [Call.event, Event.toCall?, hknown _ (hc parent rfl), Call.issues]
  | empty parent => simp [Call.event, Event.toCall?, hknown _ (hc parent rfl), Call.issues]
  | error parent message => simp [Call.event, Event.toCall?, hknown _ (hc parent rfl), Call.issues]

namespace Builder

variable {β : Type} [Builder β]

/-- Replaying the event of a call is making the call. -/
theorem Replay.step_event {r : Replay β} {n : Nat} {c : Call} (hnext : next r.builder = ⟨n⟩)
    (hknown : r.known.Covers n) (hc : ∀ h, c.target? = some h → h.index < n) :
    r.step (c.event n) =
      ⟨(apply r.builder c).1, if c.issues then r.known.insert n ⟨n⟩ else r.known,
        (apply r.builder c).2.reverse ++ r.log⟩ := by
  unfold Replay.step
  rw [Event.toCall?_event hknown hc]
  cases hi : c.issues <;> simp [hnext]

/-- Replaying the events of scoped calls is making the calls: the builder ends up the same and says
the same. -/
theorem Replay.foldl_step [Lawful β] {r : Replay β} {n : Nat} {cs : List Call}
    (hnext : next r.builder = ⟨n⟩) (hknown : r.known.Covers n) (hcs : Scoped n cs) :
    ((eventsOf n cs).foldl Replay.step r).builder = told r.builder cs ∧
      ((eventsOf n cs).foldl Replay.step r).log = (said r.builder cs).reverse ++ r.log := by
  induction cs generalizing r n with
  | nil => exact ⟨rfl, rfl⟩
  | cons c cs ih =>
    obtain ⟨hc, hcs⟩ := hcs
    rw [eventsOf, List.foldl_cons, Replay.step_event hnext hknown hc, told_cons, said_cons,
      List.reverse_append, List.append_assoc]
    -- the builder issues the very number that the event declares, so no handle is translated
    have happly := Lawful.next_apply r.builder c
    rw [hnext] at happly
    cases hi : c.issues with
    | true =>
      simp only [Call.issued, hi, if_true] at hcs happly ⊢
      exact ih happly hknown.insert hcs
    | false =>
      simp only [Call.issued, hi, Bool.false_eq_true, if_false] at hcs happly ⊢
      exact ih happly hknown hcs

/-- A builder that has issued nothing hears from the events of scoped calls what it would hear from
the calls. -/
theorem replay_eventsOf [Lawful β] {b : β} {cs : List Call} (hnext : next b = ⟨0⟩)
    (hcs : Scoped 0 cs) : replay b (eventsOf 0 cs) = (told b cs, said b cs) := by
  have hknown : Translation.Covers {} 0 := fun _ h => absurd h (Nat.not_lt_zero _)
  obtain ⟨hbuilder, hlog⟩ := Replay.foldl_step (r := ⟨b, {}, []⟩) hnext hknown hcs
  rw [replay, hbuilder, hlog]
  simp

end Builder

/-! ## The parts of a parse -/

/-- An analysis leaves the builder of a session as its calls do. -/
theorem Session.builder_analyze {β : Type} [Builder β] (title : String) (s : Session β) :
    (s.analyze title).1.builder =
      Builder.told s.builder
        (calls (WhileSyntax.analyze title (Builder.next s.builder) s.stream).trace) :=
  Builder.perform_fst ..

/-- A new recorder holds the events of the calls of an analysis. -/
theorem Session.events_analyze (title : String) (stream : TokenStream) :
    ((⟨stream, Recorder.new⟩ : Session Recorder).analyze title).1.builder.events =
      eventsOf 0 (calls (WhileSyntax.analyze title ⟨0⟩ stream).trace) := by
  rw [builder_analyze, Recorder.events_told_new]
  rfl

variable (title source : String)

def traceOf : List Action :=
  (analyze title ⟨0⟩ (.ofSource source)).trace

theorem parseTitled_error :
    (parseTitled title source).error = (analyze title ⟨0⟩ (.ofSource source)).error :=
  rfl

theorem parseTitled_events :
    (parseTitled title source).events = eventsOf 0 (calls (traceOf title source)) :=
  Session.events_analyze title (.ofSource source)

/-- The tree of a parse is assembled from the calls of the analysis. -/
theorem parseTitled_tree :
    (parseTitled title source).tree =
      (Builder.told Assembler.new (calls (traceOf title source))).finish := by
  have htree : (parseTitled title source).tree =
    (Builder.replay Assembler.new (parseTitled title source).events).1.finish := rfl
  have hscoped : Scoped 0 (calls (traceOf title source)) := scoped_analyze title ⟨0⟩ _
  rw [htree, parseTitled_events, Builder.replay_eventsOf rfl hscoped]

end WhileSyntax
