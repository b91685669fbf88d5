import WhileSyntax.Tree.Assembler
import WhileSyntax.Tree.Recorder
import WhileSyntax.Proofs.Run
namespace WhileSyntax

/-! # Calls of a trace

What a builder hears of a trace are its calls. The calls of an analysis are scoped: each of them
names a node that an earlier call has made.
-/

def Action.call? : Action → Option Call
  | .call c => some c
  | .note _ => none

def calls (trace : List Action) : List Call :=
  trace.filterMap Action.call?

@[simp] theorem calls_nil : calls [] = [] := rfl

@[simp] theorem calls_call (c : Call) (trace : List Action) :
    calls (.call c :: trace) = c :: calls trace := rfl

@[simp] theorem calls_note (r : LogRecord) (trace : List Action) :
    calls (.note r :: trace) = calls trace := rfl

@[simp] theorem calls_append (trace rest : List Action) :
    calls (trace ++ rest) = calls trace ++ calls rest :=
  List.filterMap_append

namespace Builder

variable {β : Type} [Builder β]

def told (b : β) (cs : List Call) : β :=
  cs.foldl (fun b c => (apply b c).1) b

@[simp] theorem told_nil (b : β) : told b [] = b := rfl

@[simp] theorem told_cons (b : β) (c : Call) (cs : List Call) :
    told b (c :: cs) = told (apply b c).1 cs := rfl

@[simp] theorem told_append (b : β) (cs ds : List Call) :
    told b (cs ++ ds) = told (told b cs) ds :=
  List.foldl_append

def said (b : β) : List Call → Log
  | [] => []
  | c :: cs => (apply b c).2 ++ said (apply b c).1 cs

@[simp] theorem said_cons (b : β) (c : Call) (cs : List Call) :
    said b (c :: cs) = (apply b c).2 ++ said (apply b c).1 cs := rfl

@[simp] theorem said_append (b : β) (cs ds : List Call) :
    said b (cs ++ ds) = said b cs ++ said (told b cs) ds := by
  induction cs generalizing b with
  | nil => rfl
  | cons c cs ih => simp [ih]

theorem foldl_act_fst (b : β) (log : Log) (trace : List Action) :
    (trace.foldl act (b, log)).1 = told b (calls trace) := by
  induction trace generalizing b log with
  | nil => rfl
  | cons a trace ih =>
    cases a with
    | call c => exact ih _ _
    | note r => exact ih _ _

/-- A trace leaves a builder as its calls do. -/
theorem perform_fst (b : β) (trace : List Action) : (perform b trace).1 = told b (calls trace) :=
  foldl_act_fst b [] trace

/-- A builder numbers its handles: each call that issues one uses up the next number, and no other
call does. -/
class Lawful (β : Type) [Builder β] : Prop where
  next_apply : ∀ (b : β) (c : Call),
    next (apply b c).1 = if c.issues then ⟨(next b).index + 1⟩ else next b

end Builder

instance : Builder.Lawful Recorder where
  next_apply b c := by cases c <;> rfl

instance : Builder.Lawful Assembler where
  next_apply b c := by
    cases c <;> rfl

/-! ## Scoped calls -/

/-- The number of handles that are issued after a call, when `n` are before it. -/
def Call.issued (n : Nat) (c : Call) : Nat :=
  if c.issues then n + 1 else n

/-- Each call names a handle below the number of those that are issued before it. -/
def Scoped : Nat → List Call → Prop
  | _, [] => True
  | n, c :: cs => (∀ h, c.target? = some h → h.index < n) ∧ Scoped (c.issued n) cs

/-- The number of handles that are issued after calls. -/
def issuedBy (n : Nat) (cs : List Call) : Nat :=
  cs.foldl Call.issued n

theorem scoped_append {n : Nat} {cs ds : List Call} :
    Scoped n (cs ++ ds) ↔ Scoped n cs ∧ Scoped (issuedBy n cs) ds := by
  induction cs generalizing n with
  | nil => simp [Scoped, issuedBy]
  | cons c cs ih => simp [Scoped, issuedBy, ih, and_assoc]

theorem issuedBy_append (n : Nat) (cs ds : List Call) :
    issuedBy n (cs ++ ds) = issuedBy (issuedBy n cs) ds :=
  List.foldl_append

/-! ## The calls of an analysis -/

namespace Analysis

/-- The calls so far are scoped, `next` counts the handles that they use up, and every goal goes
under a node that they have made. -/
structure InScope (m : Nat) (s : Analysis) : Prop where
  targets : Scoped m (calls s.trace.reverse)
  issued : issuedBy m (calls s.trace.reverse) = s.next
  parents : ∀ g ∈ s.goals, g.parent.index < s.next

variable {m : Nat} {s t : Analysis} {parent : Handle} {rest : List Goal}

/-- More actions on the trace keep it in scope if their calls are scoped and the new goals are. -/
theorem InScope.extend (h : InScope m s) (actions : List Action)
    (htrace : t.trace.reverse = s.trace.reverse ++ actions)
    (hscoped : Scoped s.next (calls actions))
    (hissued : issuedBy s.next (calls actions) = t.next)
    (hparents : ∀ g ∈ t.goals, g.parent.index < t.next) : InScope m t where
  targets := by
    rw [htrace, calls_append, scoped_append, h.issued]
    exact ⟨h.targets, hscoped⟩
  issued := by rw [htrace, calls_append, issuedBy_append, h.issued, hissued]
  parents := hparents

theorem InScope.consume {k : TokenKind} (h : InScope m s)
    (hg : s.goals = ⟨parent, .terminal k⟩ :: rest) : InScope m (s.consume parent k rest) := by
  have hparents := h.parents
  rw [hg, List.forall_mem_cons] at hparents
  refine h.extend [.call (.node parent (.terminal k)), .note (consumption k s.stream.lexeme),
    .call (.leaf ⟨s.next⟩ s.stream.lexeme)] (by simp [Analysis.consume]) ?_ ?_ ?_
  · simpa [Scoped, Call.target?, Call.issued, Call.issues] using hparents.1
  · simp [issuedBy, Call.issued, Call.issues, Analysis.consume]
  · intro g hgoal
    exact Nat.lt_succ_of_lt (hparents.2 g hgoal)

theorem InScope.expand {r : Rule} (h : InScope m s)
    (hg : s.goals = ⟨parent, .rule r⟩ :: rest) : InScope m (s.expand parent r rest) := by
  have hparents := h.parents
  rw [hg, List.forall_mem_cons] at hparents
  rw [expand_eq rfl]
  refine h.extend (.call (.node parent (.rule r)) :: emptyMark ⟨s.next⟩ (r.predict s.stream.kind))
    (by simp) ?_ ?_ ?_
  · by_cases hnil : r.predict s.stream.kind = [] <;>
      simpa [emptyMark, hnil, Scoped, Call.target?, Call.issued, Call.issues] using hparents.1
  · by_cases hnil : r.predict s.stream.kind = [] <;>
      simp [emptyMark, hnil, issuedBy, Call.issued, Call.issues]
  · -- the new goals go under the new node, the others under nodes made before
    intro g hgoal
    rcases List.mem_append.1 hgoal with hnew | hold
    · obtain ⟨x, _, rfl⟩ := List.mem_map.1 hnew
      exact Nat.lt_succ_self s.next
    · exact Nat.lt_succ_of_lt (hparents.2 g hold)

theorem inScope_start (title : String) (first : Handle) (stream : TokenStream) :
    InScope first.index (start title first stream) where
  targets := by simp [start, Scoped, Call.target?]
  issued := by simp [start, issuedBy, Call.issued, Call.issues]
  parents := by simp [start]

theorem inScope_run (title : String) (first : Handle) (stream : TokenStream) :
    InScope first.index (start title first stream).run.1 :=
  run_induction (fun _ _ _ _ hg _ h => h.consume hg) (fun _ _ _ _ hg h => h.expand hg)
    (inScope_start title first stream)

end Analysis

/-- The calls of an analysis are scoped. -/
theorem scoped_analyze (title : String) (first : Handle) (stream : TokenStream) :
    Scoped first.index (calls (analyze title first stream).trace) := by
  have hrun := Analysis.inScope_run title first stream
  rw [analyze_trace, calls_append, scoped_append, hrun.issued]
  refine ⟨hrun.targets, ?_⟩
  cases herror : (Analysis.start title first stream).run.2 with
  | none => simp [Analysis.closing, Scoped, Call.target?]
  | some e =>
    obtain ⟨parent, k, rest, hgoals, _, rfl⟩ := Analysis.goals_of_run_eq_some herror
    have hparent := hrun.parents ⟨parent, .terminal k⟩ (by simp [hgoals])
    simpa [Analysis.failing, Scoped, Call.target?, Analysis.mismatch] using hparent

end WhileSyntax
