import WhileSyntax.Token.Stream
import WhileSyntax.Tree.Builder
import WhileSyntax.Diagnosis
namespace WhileSyntax

/-! # Predictive analysis

An analysis derives the tokens of a stream from the start rule, leftmost symbol first and with one
token of lookahead. What it does is a trace: calls that describe the tree as it is found, and
records for the log. The symbols that are still to be derived are its stack.
-/

/-- A symbol that is still to be derived, and the node that it goes under. -/
structure Goal where
  parent : Handle
  symbol : Symbol
  deriving DecidableEq, Repr

/-- An analysis under way: the tokens to come, the handle of the next node, the goals from the
first to the last, and the trace with its latest action first. -/
structure Analysis where
  stream : TokenStream
  next : Nat
  goals : List Goal
  trace : List Action

namespace Analysis

/-! ## One step -/

/-- The record of a terminal that is consumed. -/
def consumption (k : TokenKind) (lexeme : String) : LogRecord :=
  ⟨.trace, "consumed " ++ k.label ++ " " ++ Text.quote lexeme⟩

/-- Consumes the current token as a terminal under `parent`. -/
def consume (s : Analysis) (parent : Handle) (k : TokenKind) (rest : List Goal) : Analysis where
  stream := s.stream.advance
  next := s.next + 1
  goals := rest
  trace := .call (.leaf ⟨s.next⟩ s.stream.lexeme) :: .note (consumption k s.stream.lexeme) ::
    .call (.node parent (.terminal k)) :: s.trace

/-- Adds a rule's node under `parent` and replaces the rule by what is predicted for it. -/
def expand (s : Analysis) (parent : Handle) (r : Rule) (rest : List Goal) : Analysis :=
  let node : Handle := ⟨s.next⟩
  let opened : List Action := .call (.node parent (.rule r)) :: s.trace
  match r.predict s.stream.kind with
  | [] => ⟨s.stream, s.next + 1, rest, .call (.empty node) :: opened⟩
  | symbols => ⟨s.stream, s.next + 1, symbols.map (⟨node, ·⟩) ++ rest, opened⟩

/-- The error when the current token is not of the kind that the first goal asks for. -/
def mismatch (s : Analysis) (parent : Handle) (k : TokenKind) : Diagnosis :=
  ⟨k, s.stream.lexeme, parent, s.stream.position?⟩

inductive Progress where
  | continues (s : Analysis)
  | succeeds
  | fails (e : Diagnosis)

/-- Deals with the first goal. -/
def step (s : Analysis) : Progress :=
  match s.goals with
  | [] => .succeeds
  | ⟨parent, .terminal k⟩ :: rest =>
    if s.stream.kind = k then .continues (s.consume parent k rest)
    else .fails (s.mismatch parent k)
  | ⟨parent, .rule r⟩ :: rest => .continues (s.expand parent r rest)

/-! ## Every analysis ends

Each step lowers a potential: twenty for every token that no goal has laid claim to, and a weight
for each goal. The first goal claims the current token if it is a terminal that matches it, or a
statement that begins with it; claiming a token pays for the goals that come with a statement, an
operator or a parenthesis.
-/

/-- What a symbol adds to the potential. -/
def weight : Symbol → Nat
  | .terminal _ => 1
  | .rule .program => 3
  | .rule .stmtList => 1
  | .rule .stmt => 19
  | .rule .expr => 6
  | .rule .termTail => 1
  | .rule .term => 4
  | .rule .factorTail => 1
  | .rule .factor => 2
  | .rule .condition => 14

/-- What the symbols of a sentential form add together. -/
def totalWeight : List Symbol → Nat
  | [] => 0
  | x :: xs => weight x + totalWeight xs

theorem totalWeight_append (xs ys : List Symbol) :
    totalWeight (xs ++ ys) = totalWeight xs + totalWeight ys := by
  induction xs with
  | nil => simp [totalWeight]
  | cons x xs ih => simp [totalWeight, ih, Nat.add_assoc]

/-- Whether the symbol is sure to consume a current token of the given kind. -/
def claims (k : TokenKind) : Symbol → Bool
  | .terminal j => k = j
  | .rule .stmt => k.startsStatement
  | .rule _ => false

def claimed (s : Analysis) : Nat :=
  match s.goals with
  | [] => 0
  | g :: _ => if claims s.stream.kind g.symbol then 1 else 0

/-- A bound on the number of steps that are left. -/
def potential (s : Analysis) : Nat :=
  20 * (s.stream.remaining.length - s.claimed) + totalWeight (s.goals.map Goal.symbol)

theorem potential_consume {s : Analysis} {parent : Handle} {k : TokenKind} {rest : List Goal}
    (hg : s.goals = ⟨parent, .terminal k⟩ :: rest) (hk : s.stream.kind = k) :
    (s.consume parent k rest).potential < s.potential := by
  have hclaimed : s.claimed = 1 := by simp [claimed, hg, claims, hk]
  have hrest : (s.consume parent k rest).stream.remaining.length ≤
      s.stream.remaining.length - 1 := by
    simp [consume, TokenStream.advance]
  unfold potential
  rw [hclaimed, hg]
  simp only [consume, List.map_cons, totalWeight, weight] at hrest ⊢
  omega

/-- A token that is not the end of the stream is one of those that are left. -/
theorem length_pos_of_kind {s : TokenStream} (h : s.kind ≠ .endOfStream) :
    0 < s.remaining.length := by
  unfold TokenStream.kind at h
  split at h
  · simp at h
  · next heq => simp [heq]

def predictedWeight (r : Rule) (k : TokenKind) : Nat :=
  totalWeight (r.predict k)

/-- Whether the first of the symbols that are predicted for a rule claims the token. -/
def predictedClaims (r : Rule) (k : TokenKind) : Bool :=
  match r.predict k with
  | [] => false
  | x :: _ => claims k x

/-- A prediction weighs less than its rule, or it claims a token that the rule did not. -/
theorem predictedWeight_lt (r : Rule) (k : TokenKind) :
    predictedWeight r k < weight (.rule r) ∧
        (claims k (.rule r) = true → predictedClaims r k = true) ∨
      predictedWeight r k < weight (.rule r) + 20 ∧ claims k (.rule r) = false ∧
        predictedClaims r k = true ∧ k ≠ .endOfStream := by
  cases r <;> cases k <;> decide

theorem potential_expand {s : Analysis} {parent : Handle} {r : Rule} {rest : List Goal}
    (hg : s.goals = ⟨parent, .rule r⟩ :: rest) :
    (s.expand parent r rest).potential < s.potential := by
  have hold : s.claimed = if claims s.stream.kind (.rule r) then 1 else 0 := by
    simp [claimed, hg]
  have hstream : (s.expand parent r rest).stream = s.stream := by
    unfold expand
    split <;> rfl
  have hgoals : (s.expand parent r rest).goals =
      (r.predict s.stream.kind).map (⟨⟨s.next⟩, ·⟩) ++ rest := by
    unfold expand
    split <;> simp_all
  have hsum : totalWeight ((s.expand parent r rest).goals.map Goal.symbol) =
      predictedWeight r s.stream.kind + totalWeight (rest.map Goal.symbol) := by
    simp [hgoals, predictedWeight, totalWeight_append, Function.comp_def]
  -- the current token is claimed again if what is predicted begins with its terminal
  have hnew : predictedClaims r s.stream.kind = true →
      (s.expand parent r rest).claimed = 1 := by
    intro h
    unfold predictedClaims at h
    split at h
    · simp at h
    · next x xs heq => simp [claimed, hgoals, heq, hstream, h]
  unfold potential
  rw [hsum, hstream, hold, hg]
  simp only [List.map_cons, totalWeight]
  -- either the weights decide, or the weight is the same and a claim is gained
  rcases predictedWeight_lt r s.stream.kind with ⟨hw, hc⟩ | ⟨hw, hc, hp, hk⟩
  · by_cases h : claims s.stream.kind (.rule r) = true
    · rw [hnew (hc h)]
      simp only [h, if_true]
      omega
    · simp only [h]
      simp
      omega
  · have := length_pos_of_kind hk
    rw [hnew hp]
    simp only [hc]
    simp
    omega

/-- A step that goes on lowers the potential. -/
theorem potential_step {s t : Analysis} (h : s.step = .continues t) :
    t.potential < s.potential := by
  unfold step at h
  split at h
  · simp at h
  · next parent k rest heq =>
    split at h
    · next hk =>
      injection h with h
      exact h ▸ potential_consume heq hk
    · simp at h
  · next parent r rest heq =>
    injection h with h
    exact h ▸ potential_expand heq

/-- Steps until no goal is left or one fails. -/
def run (s : Analysis) : Analysis × Option Diagnosis :=
  match _h : s.step with
  | .continues t => run t
  | .succeeds => (s, none)
  | .fails e => (s, some e)
  termination_by s.potential
  decreasing_by exact potential_step _h

end Analysis

/-! ## A whole analysis -/

/-- What an analysis did: its trace, its error if it failed, and the tokens that it left. -/
structure Outcome where
  trace : List Action
  error : Option Diagnosis
  rest : TokenStream

/-- An analysis before its first step: the header has been written and the start rule is the only
goal. -/
def Analysis.start (title : String) (first : Handle) (stream : TokenStream) : Analysis where
  stream
  next := first.index + 1
  goals := [⟨first, .rule .program⟩]
  trace := [.call (.header title), .note ⟨.debug, "analysis started: " ++ title⟩]

/-- The actions that close an analysis without an error. -/
def Analysis.closing : List Action :=
  [.call .footer, .note ⟨.debug, "analysis finished"⟩]

/-- The actions that close an analysis with an error. -/
def Analysis.failing (e : Diagnosis) : List Action :=
  [.call (.error e.node e.message), .note e.record]

/-- Analyses a stream. The handles of the tree are numbered from `first` on. -/
def analyze (title : String) (first : Handle) (stream : TokenStream) : Outcome :=
  let (s, error) := (Analysis.start title first stream).run
  let last := match error with
    | none => Analysis.closing
    | some e => Analysis.failing e
  ⟨s.trace.reverse ++ last, error, s.stream⟩

end WhileSyntax
