import WhileSyntax.Token.Stream
import WhileSyntax.Tree.Basic
namespace WhileSyntax

/-! # Derivations

A derivation says how symbols are derived, production by production. It is indexed by the symbols
that it derives, so a derivation that does not follow the grammar cannot be written down. Its
leaves are the terminals from left to right, and its trees are the parse trees of the symbols.
-/

/-- A terminal together with the lexeme that stands for it. -/
structure Leaf where
  kind : TokenKind
  text : String
  deriving DecidableEq, Repr

/-- What a derivation sees of a token. -/
def Token.leaf (t : Token) : Leaf :=
  ⟨t.kind, t.text⟩

/-- A derivation of the symbols in the index, one after the other. -/
inductive Derivation : List Symbol → Type where
  | nil : Derivation []
  | terminal {xs : List Symbol} (leaf : Leaf) (rest : Derivation xs) :
      Derivation (.terminal leaf.kind :: xs)
  | rule {xs : List Symbol} (r : Rule) {rhs : List Symbol} (h : rhs ∈ r.productions)
      (below : Derivation rhs) (rest : Derivation xs) : Derivation (.rule r :: xs)

namespace Derivation

variable {xs ys : List Symbol}

def leaves {xs : List Symbol} : Derivation xs → List Leaf
  | nil => []
  | terminal leaf rest => leaf :: rest.leaves
  | rule _ _ below rest => below.leaves ++ rest.leaves

/-- The parse trees of the symbols: a node around the lexeme of each terminal, a node for each
rule, and the mark of an empty production where nothing is derived. -/
def trees {xs : List Symbol} : Derivation xs → List Tree
  | nil => []
  | terminal leaf rest => .node (.terminal leaf.kind) [.lexeme leaf.text] :: rest.trees
  | @rule _ r rhs _ below rest =>
    .node (.rule r) (if rhs = [] then [.empty] else below.trees) :: rest.trees

/-- The number of nodes in the trees of a derivation. -/
def size {xs : List Symbol} : Derivation xs → Nat
  | nil => 0
  | terminal _ rest => rest.size + 1
  | rule _ _ below rest => below.size + rest.size + 1

def append {xs ys : List Symbol} : Derivation xs → Derivation ys → Derivation (xs ++ ys)
  | nil, d => d
  | terminal leaf rest, d => terminal leaf (rest.append d)
  | rule r h below rest, d => rule r h below (rest.append d)

/-- The program `read x`; `ending` is the lexeme at which the stream ends. -/
def readX (ending : String) : Derivation [.rule .program] :=
  rule .program (List.mem_singleton.2 rfl)
    (rule .stmtList (by decide)
      (rule .stmt (by decide)
        (terminal ⟨.readWord, "read"⟩ (terminal ⟨.identifier, "x"⟩ nil))
        (rule .stmtList (by decide) nil nil))
      (terminal ⟨.endOfStream, ending⟩ nil))
    nil

theorem leaves_readX (ending : String) :
    (readX ending).leaves =
      [⟨.readWord, "read"⟩, ⟨.identifier, "x"⟩, ⟨.endOfStream, ending⟩] :=
  rfl

theorem leaves_append (d : Derivation xs) (e : Derivation ys) :
    (d.append e).leaves = d.leaves ++ e.leaves := by
  induction d with
  | nil => rfl
  | terminal leaf rest ih => simp [append, leaves, ih]
  | rule r h below rest _ ih => simp [append, leaves, ih]

end Derivation

/-! ## What symbols yield -/

/-- The leaves can be derived from the symbols. -/
def Yields (xs : List Symbol) (ls : List Leaf) : Prop :=
  ∃ d : Derivation xs, d.leaves = ls

namespace Yields

variable {xs ys : List Symbol} {ls ms : List Leaf}

@[simp] theorem nil_iff : Yields [] ls ↔ ls = [] := by
  constructor
  · rintro ⟨d, rfl⟩
    cases d
    rfl
  · rintro rfl
    exact ⟨.nil, rfl⟩

theorem terminal_cons_iff {k : TokenKind} :
    Yields (.terminal k :: xs) ls ↔ ∃ l ms, ls = l :: ms ∧ l.kind = k ∧ Yields xs ms := by
  constructor
  · rintro ⟨d, rfl⟩
    cases d with
    | terminal leaf rest => exact ⟨leaf, rest.leaves, rfl, rfl, rest, rfl⟩
  · rintro ⟨l, ms, rfl, rfl, d, rfl⟩
    exact ⟨.terminal l d, rfl⟩

/-- A rule yields what one of its productions yields. -/
theorem rule_cons_iff {r : Rule} :
    Yields (.rule r :: xs) ls ↔
      ∃ rhs ∈ r.productions, ∃ ms ns, ls = ms ++ ns ∧ Yields rhs ms ∧ Yields xs ns := by
  constructor
  · rintro ⟨d, rfl⟩
    cases d with
    | rule r h below rest =>
      exact ⟨_, h, below.leaves, rest.leaves, rfl, ⟨below, rfl⟩, rest, rfl⟩
  · rintro ⟨rhs, h, ms, ns, rfl, ⟨d, rfl⟩, e, rfl⟩
    exact ⟨.rule r h d e, rfl⟩

theorem append (h : Yields xs ls) (k : Yields ys ms) : Yields (xs ++ ys) (ls ++ ms) := by
  obtain ⟨d, rfl⟩ := h
  obtain ⟨e, rfl⟩ := k
  exact ⟨d.append e, d.leaves_append e⟩

theorem append_iff :
    Yields (xs ++ ys) ls ↔ ∃ ms ns, ls = ms ++ ns ∧ Yields xs ms ∧ Yields ys ns := by
  constructor
  · intro h
    induction xs generalizing ls with
    | nil => exact ⟨[], ls, rfl, nil_iff.2 rfl, h⟩
    | cons x xs ih =>
      cases x with
      | terminal k =>
        obtain ⟨l, ls, rfl, hl, h⟩ := terminal_cons_iff.1 h
        obtain ⟨ms, ns, rfl, hx, hy⟩ := ih h
        exact ⟨l :: ms, ns, rfl, terminal_cons_iff.2 ⟨l, ms, rfl, hl, hx⟩, hy⟩
      | rule r =>
        -- the leaves of the rule's node come first, so they go with the symbols on the left
        obtain ⟨rhs, hr, us, vs, rfl, hu, h⟩ := rule_cons_iff.1 h
        obtain ⟨ms, ns, rfl, hx, hy⟩ := ih h
        refine ⟨us ++ ms, ns, by simp, ?_, hy⟩
        exact rule_cons_iff.2 ⟨rhs, hr, us, ms, rfl, hu, hx⟩
  · rintro ⟨ms, ns, rfl, hx, hy⟩
    exact hx.append hy

/-- A rule alone yields what one of its productions yields. -/
theorem of_production {r : Rule} {rhs : List Symbol} (hr : rhs ∈ r.productions)
    (h : Yields rhs ls) : Yields [.rule r] ls :=
  rule_cons_iff.2 ⟨rhs, hr, ls, [], by simp, h, nil_iff.2 rfl⟩

/-- Lexemes play no part in a derivation: other leaves of the same kinds do as well. -/
theorem relabel (h : Yields xs ls) (hk : ms.map Leaf.kind = ls.map Leaf.kind) : Yields xs ms := by
  obtain ⟨d, rfl⟩ := h
  induction d generalizing ms with
  | nil => simpa [Derivation.leaves] using hk
  | terminal leaf rest ih =>
    obtain ⟨l, ms, rfl, hl, hk⟩ := List.map_eq_cons_iff.1 hk
    exact terminal_cons_iff.2 ⟨l, ms, rfl, hl, ih hk⟩
  | rule r h below rest ihb ihr =>
    -- the kinds are cut where the leaves are
    rw [Derivation.leaves, List.map_append] at hk
    obtain ⟨us, vs, rfl, hu, hv⟩ := List.map_eq_append_iff.1 hk
    exact rule_cons_iff.2 ⟨_, h, us, vs, rfl, ihb hu, ihr hv⟩

end Yields

end WhileSyntax
