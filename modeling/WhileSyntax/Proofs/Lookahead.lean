import Mathlib.Data.Fintype.Defs
import WhileSyntax.Proofs.Derivation
namespace WhileSyntax

/-! # One token of lookahead

Which tokens may begin what a symbol derives, which symbols may derive nothing, which tokens may
come behind a rule, and which ones end it whether or not they may come there. With these four tables
the production that a derivation applies is known from the next token (`predict_eq_of_derivation`);
the tables enter the proof through their laws only, each of which is checked once over all rules,
productions and kinds.
-/

instance : Fintype TokenKind :=
  ⟨⟨TokenKind.all, by decide⟩, TokenKind.mem_all⟩

instance : Fintype Rule :=
  ⟨⟨Rule.all, by decide⟩, fun r => by cases r <;> decide⟩

/-! ## The four tables -/

/-- Whether the symbol can derive nothing at all. -/
def Symbol.nullable : Symbol → Bool
  | .rule .stmtList | .rule .termTail | .rule .factorTail => true
  | _ => false

/-- Whether an expression may begin with a token of this kind. -/
def TokenKind.startsExpression : TokenKind → Bool
  | .leftParen | .number | .identifier => true
  | _ => false

/-- Whether a token of this kind may be the first of what the symbol derives. -/
def Symbol.begins : Symbol → TokenKind → Bool
  | .terminal j, k => j = k
  | .rule .program, k => k.startsStatement || k = .endOfStream
  | .rule .stmtList, k | .rule .stmt, k => k.startsStatement
  | .rule .termTail, k => k = .addOp
  | .rule .factorTail, k => k = .multOp
  | .rule .expr, k | .rule .term, k | .rule .factor, k | .rule .condition, k => k.startsExpression

/-- Whether a token of this kind may end a list of statements. -/
def TokenKind.closesStatements : TokenKind → Bool
  | .endOfStream | .fiWord | .odWord => true
  | _ => false

/-- Whether a token of this kind may come behind an expression. -/
def TokenKind.closesExpression : TokenKind → Bool
  | .relation | .thenWord | .doWord | .rightParen => true
  | k => k.startsStatement || k.closesStatements

/-- Whether a token of this kind may come behind what the symbol derives. Anything may come behind
a terminal, and nothing is asked of what comes behind a whole program. -/
def Symbol.precedes : Symbol → TokenKind → Bool
  | .terminal _, _ | .rule .program, _ => true
  | .rule .stmtList, k => k.closesStatements
  | .rule .stmt, k => k.startsStatement || k.closesStatements
  | .rule .condition, k => k = .thenWord || k = .doWord
  | .rule .expr, k | .rule .termTail, k => k.closesExpression
  | .rule .term, k | .rule .factorTail, k => k = .addOp || k.closesExpression
  | .rule .factor, k => k = .multOp || k = .addOp || k.closesExpression

/-- Whether a token of this kind continues nothing that the symbol derives. It need not be one that
may come behind it. -/
def Symbol.endsAt : Symbol → TokenKind → Bool
  | .terminal _, _ | .rule .program, _ | .rule .factor, _ => true
  | .rule .stmtList, k => !k.startsStatement && k ≠ .addOp && k ≠ .multOp
  | .rule .term, k | .rule .factorTail, k => k ≠ .multOp
  | .rule .stmt, k | .rule .condition, k | .rule .expr, k | .rule .termTail, k =>
    k ≠ .addOp && k ≠ .multOp

/-- Whether the first token of what the symbols derive may be of this kind. -/
def beginsAll : List Symbol → TokenKind → Bool
  | [], _ => false
  | x :: xs, k => x.begins k || (x.nullable && beginsAll xs k)

def nullableAll (xs : List Symbol) : Bool :=
  xs.all Symbol.nullable

/-- Whether a token of this kind may come behind the symbols: it may come behind each of them that
has only nullable ones after it. -/
def precedesAll : List Symbol → TokenKind → Bool
  | [], _ => true
  | x :: xs, k => (!nullableAll xs || x.precedes k) && precedesAll xs k

/-- Whether a token of this kind continues nothing that the symbols derive: it ends each of them
that has only nullable ones after it. -/
def endsAllAt : List Symbol → TokenKind → Bool
  | [], _ => true
  | x :: xs, k => (!nullableAll xs || x.endsAt k) && endsAllAt xs k

/-- What begins behind a symbol may come behind it, all along the symbols. -/
def Chained : List Symbol → Prop
  | [] => True
  | x :: xs => (∀ k, beginsAll xs k → x.precedes k) ∧ Chained xs

instance Chained.decidable : ∀ xs, Decidable (Chained xs)
  | [] => isTrue trivial
  | _ :: xs =>
    have := Chained.decidable xs
    inferInstanceAs (Decidable (_ ∧ _))

/-! ## Laws of the tables -/

/-- What begins a production begins its rule. -/
theorem begins_of_production : ∀ r : Rule, ∀ rhs ∈ r.productions, ∀ k,
    beginsAll rhs k → (Symbol.rule r).begins k := by
  decide

/-- A rule with a nullable production is nullable. -/
theorem nullable_of_production : ∀ r : Rule, ∀ rhs ∈ r.productions,
    nullableAll rhs → (Symbol.rule r).nullable := by
  decide

/-- Within a production, what begins behind a symbol may come behind it. -/
theorem chained_of_production : ∀ r : Rule, ∀ rhs ∈ r.productions, Chained rhs := by
  decide

/-- What may come behind a rule may come behind each of its productions. -/
theorem precedesAll_of_production : ∀ r : Rule, ∀ rhs ∈ r.productions, ∀ k,
    (Symbol.rule r).precedes k → precedesAll rhs k := by
  decide

/-- A token that may begin a production predicts it. -/
theorem predict_of_begins : ∀ r : Rule, ∀ rhs ∈ r.productions, ∀ k,
    beginsAll rhs k → r.predict k = rhs := by
  decide

/-- A token that ends a rule predicts the rule's nullable production. -/
theorem predict_of_endsAt : ∀ r : Rule, ∀ rhs ∈ r.productions, ∀ k,
    nullableAll rhs → (Symbol.rule r).endsAt k → r.predict k = rhs := by
  decide

/-- What may come behind a rule ends it. -/
theorem endsAt_of_precedes : ∀ (r : Rule) (k : TokenKind),
    (Symbol.rule r).precedes k → (Symbol.rule r).endsAt k := by
  decide

/-- What ends a rule ends each of its productions. -/
theorem endsAllAt_of_production : ∀ r : Rule, ∀ rhs ∈ r.productions, ∀ k,
    (Symbol.rule r).endsAt k → endsAllAt rhs k := by
  decide

/-! ## The tables and derivations -/

/-- Symbols that derive nothing are nullable. -/
theorem Derivation.nullable_of_leaves_eq_nil {xs : List Symbol} (d : Derivation xs)
    (hd : d.leaves = []) : nullableAll xs := by
  induction d with
  | nil => rfl
  | terminal leaf rest => simp [leaves] at hd
  | rule r h below rest ihb ihr =>
    have hleaves := List.append_eq_nil_iff.1 hd
    have hrule := nullable_of_production r _ h (ihb hleaves.1)
    have hrest := ihr hleaves.2
    simp_all [nullableAll]

/-- The first leaf of a derivation may begin its symbols. -/
theorem Derivation.begins_of_head? {xs : List Symbol} (d : Derivation xs) {l : Leaf}
    (hl : d.leaves.head? = some l) : beginsAll xs l.kind := by
  induction d with
  | nil => simp [leaves] at hl
  | terminal leaf rest => simp_all [leaves, beginsAll, Symbol.begins]
  | rule r h below rest ihb ihr =>
    cases hbelow : below.leaves with
    | nil =>
      -- nothing is below the node, so the first leaf comes from the right
      have hnull := nullable_of_production r _ h (below.nullable_of_leaves_eq_nil hbelow)
      have hrest := ihr (by simpa [leaves, hbelow] using hl)
      simp [beginsAll, hnull, hrest]
    | cons m ms =>
      have hm : m = l := by simpa [leaves, hbelow] using hl
      have hbegins := begins_of_production r _ h _ (ihb (by simp [hbelow, hm]))
      simp [beginsAll, hbegins]

/-- The kind of the token with which a derivation begins, when `k` is the kind of the token behind
it. -/
def Derivation.lookahead {xs : List Symbol} (d : Derivation xs) (k : TokenKind) : TokenKind :=
  match d.leaves with
  | [] => k
  | l :: _ => l.kind

/-- What comes behind a rule in a derivation ends the rule. -/
theorem Derivation.endsAt_lookahead {r : Rule} {xs : List Symbol} (rest : Derivation xs)
    {k : TokenKind} (hchain : Chained (.rule r :: xs)) (hk : endsAllAt (.rule r :: xs) k) :
    (Symbol.rule r).endsAt (rest.lookahead k) := by
  unfold lookahead
  split
  · next hnil => simp_all [endsAllAt, rest.nullable_of_leaves_eq_nil hnil]
  · next l ls hcons =>
    have hbegins := rest.begins_of_head? (by simp [hcons] : rest.leaves.head? = some l)
    exact endsAt_of_precedes r l.kind (hchain.1 l.kind hbegins)

/-- The production that is applied to a rule is the one that the next token predicts, if the token
behind an empty production ends the rule. -/
theorem predict_eq_of_derivation {r : Rule} {rhs : List Symbol} (hr : rhs ∈ r.productions)
    (below : Derivation rhs) {k : TokenKind}
    (hk : below.leaves = [] → (Symbol.rule r).endsAt k) :
    r.predict (below.lookahead k) = rhs := by
  cases hbelow : below.leaves with
  | nil =>
    -- an empty production is taken for what follows, any other for its first leaf
    have hnull := below.nullable_of_leaves_eq_nil hbelow
    simpa [Derivation.lookahead, hbelow] using predict_of_endsAt r rhs hr k hnull (hk hbelow)
  | cons l ls =>
    have hbegins := below.begins_of_head? (by simp [hbelow] : below.leaves.head? = some l)
    simpa [Derivation.lookahead, hbelow] using predict_of_begins r rhs hr l.kind hbegins

/-! ## Symbols put in front of others -/

theorem beginsAll_append {xs ys : List Symbol} {k : TokenKind} :
    beginsAll (xs ++ ys) k = (beginsAll xs k || (nullableAll xs && beginsAll ys k)) := by
  induction xs with
  | nil => simp [beginsAll, nullableAll]
  | cons x xs ih =>
    simp only [List.cons_append, beginsAll, ih, nullableAll, List.all_cons]
    cases x.begins k <;> cases x.nullable <;> simp

/-- Two chained runs of symbols are chained to each other if what begins the second may come behind
the first. -/
theorem Chained.append {xs ys : List Symbol} (hx : Chained xs) (hy : Chained ys)
    (h : ∀ k, beginsAll ys k → precedesAll xs k) : Chained (xs ++ ys) := by
  induction xs with
  | nil => exact hy
  | cons x xs ih =>
    refine ⟨fun k hk => ?_, ih hx.2 fun k hk => ?_⟩
    · have hk : beginsAll (xs ++ ys) k := hk
      rw [beginsAll_append, Bool.or_eq_true, Bool.and_eq_true] at hk
      -- the token begins what follows directly, or what follows after symbols that turn out empty
      rcases hk with hk | ⟨hnull, hk⟩
      · exact hx.1 k hk
      · have := h k hk
        simp_all [precedesAll]
    · have := h k hk
      simp_all [precedesAll]

/-- Symbols stay chained when the first one, a rule, is replaced by one of its productions. -/
theorem Chained.expand {r : Rule} {rhs xs : List Symbol} (hr : rhs ∈ r.productions)
    (h : Chained (.rule r :: xs)) : Chained (rhs ++ xs) :=
  (chained_of_production r rhs hr).append h.2 fun k hk =>
    precedesAll_of_production r rhs hr k (h.1 k hk)

end WhileSyntax
