import WhileSyntax.Proofs.Recording
import WhileSyntax.Proofs.Handles
namespace WhileSyntax

/-! # The tree of a derivation

An assembler that hears the calls of a derivation under an open node adds the trees of the
derivation to that node, whatever is open below it. So a source that spells the leaves of a
program's derivation is parsed into its trees.
-/

/-- What is left of open nodes that are all closed, the first of them with `carried` added to it:
`carried` itself if there are none, and the tree of the outermost one otherwise. -/
def collapse (carried : List Tree) : List Branch → List Tree
  | [] => carried
  | b :: outer => collapse [{ b with children := carried ++ b.children }.close] outer

theorem collapse_append (carried : List Tree) (inner : List Branch) (b : Branch) :
    collapse carried (inner ++ [b]) =
      [{ b with children := collapse carried inner ++ b.children }.close] := by
  induction inner generalizing carried with
  | nil => rfl
  | cons x inner ih => exact ih _

namespace Growth

/-! ## Closing nodes -/

/-- Settling closes the nodes at which it does not stop. -/
theorem settle_append {stop : Branch → Bool} {g : Growth} {b : Branch} {inner outer : List Branch}
    (hinner : ∀ x ∈ inner, ∀ kids, stop { x with children := kids } = false)
    (hb : ∀ kids, stop { b with children := kids } = true) (carried : List Tree) :
    g.settle stop carried (inner ++ b :: outer) =
      { g with spine := { b with children := collapse carried inner ++ b.children } :: outer } := by
  induction inner generalizing carried with
  | nil => simp [settle, collapse, hb]
  | cons x inner ih =>
    -- the first node does not stop the closing, so it is carried into the next one
    obtain ⟨hx, hinner⟩ := List.forall_mem_cons.1 hinner
    rw [List.cons_append, settle]
    simp only [hx, Bool.false_eq_true, if_false]
    rw [ih hinner, collapse]

/-- Settling closes everything where it stops at no node. -/
theorem settle_all {stop : Branch → Bool} {g : Growth} {spine : List Branch}
    (hspine : ∀ x ∈ spine, ∀ kids, stop { x with children := kids } = false)
    (carried : List Tree) :
    g.settle stop carried spine =
      { g with children := collapse carried spine ++ g.children, spine := [] } := by
  induction spine generalizing carried with
  | nil => rfl
  | cons b outer ih =>
    -- no node stops the closing, so everything is carried up to the root
    obtain ⟨hb, houter⟩ := List.forall_mem_cons.1 hspine
    rw [settle]
    simp only [hb, Bool.false_eq_true, if_false]
    rw [ih houter, collapse]

theorem closeAll_children (g : Growth) :
    g.closeAll.children = collapse [] g.spine ++ g.children := by
  rw [closeAll, settle_all (by simp)]

end Growth

/-! ## Open nodes -/

/-- The node `p` is open on the path, with the open nodes `outer` around it. Once all that is open
below it is closed, its children are `kids`, latest first. Handles grow towards the innermost
node. -/
def Opens (spine : List Branch) (p : Handle) (label : Symbol) (kids : List Tree)
    (outer : List Branch) : Prop :=
  ∃ inner children, spine = inner ++ ⟨p, label, children⟩ :: outer ∧
    (∀ x ∈ inner, p.index < x.handle.index) ∧ collapse [] inner ++ children = kids

namespace Opens

variable {spine outer : List Branch} {p q : Handle} {label below : Symbol}
  {kids under : List Tree}

/-- The innermost node is open. -/
theorem innermost (p : Handle) (label : Symbol) (kids : List Tree) (outer : List Branch) :
    Opens (⟨p, label, kids⟩ :: outer) p label kids outer :=
  ⟨[], kids, rfl, by simp, rfl⟩

/-- Around an open node, the next one is open too; the tree of the former is its latest child. -/
theorem close (h : Opens spine q below under (⟨p, label, kids⟩ :: outer))
    (hpq : p.index < q.index) :
    Opens spine p label (.node below under.reverse :: kids) outer := by
  obtain ⟨inner, children, rfl, hinner, rfl⟩ := h
  -- the node `q` joins what is open below `p`
  refine ⟨inner ++ [⟨q, below, children⟩], kids, by simp, ?_, ?_⟩
  · intro x hx
    rcases List.mem_append.1 hx with hx | hx
    · exact Nat.lt_trans hpq (hinner x hx)
    · obtain rfl := List.mem_singleton.1 hx
      exact hpq
  · rw [collapse_append]
    rfl

/-- An addition to an open node finds it innermost and nothing open below it. -/
theorem reach (h : Opens spine p label kids outer) (root : Handle) (top : List Tree) :
    Assembler.reach ⟨root, top, spine⟩ p = (⟨root, top, ⟨p, label, kids⟩ :: outer⟩, []) := by
  obtain ⟨inner, children, rfl, hinner, rfl⟩ := h
  have hopen : Growth.isOpen ⟨root, top, inner ++ ⟨p, label, children⟩ :: outer⟩ p = true := by
    simp [Growth.isOpen]
  rw [Assembler.reach, if_pos hopen, Growth.ascendTo, Growth.settle_append]
  · intro x hx kids
    have hne : x.handle ≠ p := fun heq => Nat.lt_irrefl _ (heq ▸ hinner x hx)
    simpa using hne
  · simp

end Opens

/-! ## Calls on a growing tree -/

namespace Assembler

variable {spine outer : List Branch} {p root : Handle} {label : Symbol} {kids top : List Tree}
  {n : Nat} {title : String}

/-- A node under an open node becomes the innermost one. -/
theorem apply_node (h : Opens spine p label kids outer) (x : Symbol) :
    (Builder.apply (⟨.growing title ⟨root, top, spine⟩, n⟩ : Assembler) (.node p x)).1 =
      ⟨.growing title ⟨root, top, ⟨⟨n⟩, x, []⟩ :: ⟨p, label, kids⟩ :: outer⟩, n + 1⟩ := by
  simp [Builder.apply, build, grow, h.reach, Growth.descend, Call.issues]

/-- A leaf of an open node is its latest child. -/
theorem apply_leaf (h : Opens spine p label kids outer) (text : String) :
    (Builder.apply (⟨.growing title ⟨root, top, spine⟩, n⟩ : Assembler) (.leaf p text)).1 =
      ⟨.growing title ⟨root, top, ⟨p, label, .lexeme text :: kids⟩ :: outer⟩, n⟩ := by
  simp [Builder.apply, build, grow, h.reach, Growth.attach, Call.issues]

/-- The mark of an empty production is the latest child of its open node. -/
theorem apply_empty (h : Opens spine p label kids outer) :
    (Builder.apply (⟨.growing title ⟨root, top, spine⟩, n⟩ : Assembler) (.empty p)).1 =
      ⟨.growing title ⟨root, top, ⟨p, label, .empty :: kids⟩ :: outer⟩, n⟩ := by
  simp [Builder.apply, build, grow, h.reach, Growth.attach, Call.issues]

/-- A new node holds the mark of an empty production if it is the node of one. -/
theorem told_markOf (title : String) (root : Handle) (top : List Tree) (n : Nat) (x : Symbol)
    (rhs : List Symbol) (outer : List Branch) :
    Builder.told (⟨.growing title ⟨root, top, ⟨⟨n⟩, x, []⟩ :: outer⟩, n + 1⟩ : Assembler)
        (markOf ⟨n⟩ rhs) =
      ⟨.growing title ⟨root, top, ⟨⟨n⟩, x, if rhs = [] then [.empty] else []⟩ :: outer⟩,
        n + 1⟩ := by
  by_cases hrhs : rhs = []
  · simp only [markOf, hrhs, if_true, Builder.told_cons, Builder.told_nil]
    exact apply_empty (.innermost ..)
  · simp [markOf, hrhs]

end Assembler

/-! ## Along a derivation -/

namespace Derivation

variable {xs : List Symbol}

/-- What is below a rule's node in its tree. -/
theorem trees_or_empty (below : Derivation xs) :
    (below.trees.reverse ++ if xs = [] then [Tree.empty] else []).reverse =
      if xs = [] then [Tree.empty] else below.trees := by
  cases below <;> simp [trees]

/-- The calls of a derivation under an open node add its trees to that node. -/
theorem told_calls (title : String) (root : Handle) (top : List Tree) (d : Derivation xs)
    {p : Handle} {label : Symbol} {kids : List Tree} {spine outer : List Branch} {n : Nat}
    (h : Opens spine p label kids outer) (hp : p.index < n) :
    ∃ spine', Builder.told (⟨.growing title ⟨root, top, spine⟩, n⟩ : Assembler)
        (d.calls p n) = ⟨.growing title ⟨root, top, spine'⟩, n + d.size⟩ ∧
      Opens spine' p label (d.trees.reverse ++ kids) outer := by
  -- the path itself changes from call to call; `Opens` is what every part of the derivation keeps
  induction d generalizing p kids spine outer label n with
  | nil => exact ⟨spine, rfl, h⟩
  | terminal l rest ih =>
    have hleaf := (Opens.innermost ⟨n⟩ (.terminal l.kind) [.lexeme l.text]
      (⟨p, label, kids⟩ :: outer)).close hp
    obtain ⟨spine', htold, hspine⟩ := ih hleaf (Nat.lt_succ_of_lt hp)
    refine ⟨spine', ?_, ?_⟩
    · rw [calls_terminal, Builder.told_cons, Builder.told_cons, Assembler.apply_node h,
        Assembler.apply_leaf (.innermost ..), htold, size]
      simp [Nat.add_assoc, Nat.add_comm 1]
    · simpa [trees] using hspine
  | @rule xs r rhs hr below rest ihb ihr =>
    obtain ⟨spine₁, htold₁, hspine₁⟩ := ihb
      (.innermost ⟨n⟩ (.rule r) (if rhs = [] then [.empty] else []) (⟨p, label, kids⟩ :: outer))
      (Nat.lt_succ_self n)
    -- what comes behind the rule goes under `p` again, so the rule's node counts as closed
    have hnode := hspine₁.close hp
    rw [trees_or_empty] at hnode
    obtain ⟨spine₂, htold₂, hspine₂⟩ := ihr hnode (n := n + 1 + below.size) (by omega)
    refine ⟨spine₂, ?_, ?_⟩
    · rw [calls_rule, Builder.told_cons, Builder.told_append, Builder.told_append,
        Assembler.apply_node h, Assembler.told_markOf, htold₁, htold₂, size]
      simp [Nat.add_assoc, Nat.add_comm 1]
    · simpa [trees] using hspine₂

/-- The calls of a program's derivation, between header and footer, make its trees. -/
theorem finish_told (d : Derivation [.rule .program]) (title : String) :
    (Builder.told Assembler.new (.header title :: (d.calls ⟨0⟩ 1 ++ [.footer]))).finish =
      ⟨title, d.trees⟩ := by
  cases d with
  | @rule _ _ rhs hr below rest =>
    cases rest
    -- a production of the start rule is not empty
    have hrhs : rhs ≠ [] := by
      rintro rfl
      revert hr
      decide
    obtain ⟨spine, htold, hspine⟩ := below.told_calls title ⟨0⟩ []
      (.innermost ⟨1⟩ (.rule .program) [] []) (Nat.lt_succ_self 1)
    have hstart : Builder.told Assembler.new [.header title, .node ⟨0⟩ (.rule .program)] =
        ⟨.growing title ⟨⟨0⟩, [], [⟨⟨1⟩, .rule .program, []⟩]⟩, 2⟩ := rfl
    have hcalls : .header title :: ((rule .program hr below nil).calls ⟨0⟩ 1 ++ [.footer]) =
        [.header title, .node ⟨0⟩ (.rule .program)] ++ (below.calls ⟨1⟩ 2 ++ [.footer]) := by
      rw [calls_rule]
      simp [markOf, hrhs, calls, actions]
    rw [hcalls, Builder.told_append, Builder.told_append, hstart, htold]
    obtain ⟨inner, children, rfl, _, hkids⟩ := hspine
    show (⟨title, (Growth.closeAll _).children.reverse⟩ : ParseTree) = _
    rw [Growth.closeAll_children, collapse_append]
    simp [Branch.close, hkids, trees, hrhs]

/-- A source that spells the leaves of a program's derivation is parsed without an error into the
trees of the derivation. -/
theorem parseTitled_eq (d : Derivation [.rule .program]) (title : String) {source : String}
    (hread : (TokenStream.ofSource source).upcoming d.leaves.length = d.leaves) :
    (parseTitled title source).error = none ∧
      (parseTitled title source).tree = ⟨title, d.trees⟩ := by
  have hanalyze := d.analyze_eq title ⟨0⟩ hread
  refine ⟨?_, ?_⟩
  · rw [parseTitled_error, hanalyze]
  · rw [parseTitled_tree, traceOf, hanalyze]
    simp only [calls_note, calls_call, calls_append]
    exact d.finish_told title

end Derivation

end WhileSyntax
