import WhileSyntax.Tree.Layout
import WhileSyntax.Proofs.Planting
namespace WhileSyntax

/-! # What an assembler makes of calls

Whatever the order of the calls and whatever handles they name, an assembler makes one tree of them:
the calls between the first header and the first end behind it are planted at the right edge, one
after the other, and the others change nothing (`Assembler.finish_told`). What is planted at the
right edge comes last in preorder, so no call is lost, doubled or moved (`parts_planted`).
-/

/-! ## Calls that are accepted -/

/-- Whether the call ends a tree. -/
def Call.seals : Call → Bool
  | .error .. | .footer => true
  | _ => false

/-- The calls up to the first that ends the tree, which is one of them. -/
def untilSealed : List Call → List Call
  | [] => []
  | c :: cs => c :: if c.seals then [] else untilSealed cs

/-- What calls tell of a tree: title and root of the first header, and the calls that are accepted
behind it. -/
structure Account where
  title : String
  root : Handle
  accepted : List Call

/-- The account that calls give of a tree, if there is a header among them; `n` handles are issued
before. -/
def account? (n : Nat) : List Call → Option Account
  | [] => none
  | .header title :: cs => some ⟨title, ⟨n⟩, untilSealed cs⟩
  | c :: cs => account? (c.issued n) cs

def accepted (cs : List Call) : List Call :=
  ((account? 0 cs).map Account.accepted).getD []

/-- The tree after calls; `n` handles are issued before. -/
def Planting.hearAll (n : Nat) (g : Planting) : List Call → Planting
  | [] => g
  | c :: cs => (g.hear ⟨n⟩ c).hearAll (c.issued n) cs

def Account.planting (a : Account) : Planting :=
  (⟨a.root, []⟩ : Planting).hearAll (a.root.index + 1) a.accepted

/-- The tree that calls tell of; without a header it has neither title nor content. -/
def planted (cs : List Call) : ParseTree :=
  match account? 0 cs with
  | none => ⟨"", []⟩
  | some a => a.planting.toTree a.title

/-! ## The assembler -/

namespace Planting

variable {g : Planting} {n : Nat}

/-- A call on an assembler whose tree is growing is heard by the tree. -/
theorem build_growth (hg : g.spine.Nodup) (title : String) (fresh : Handle) (c : Call) :
    (Assembler.build fresh (.growing title g.growth) c).1 =
      if c.seals then .sealed title (g.hear fresh c).growth
      else .growing title (g.hear fresh c).growth := by
  have hadd : ∀ (h : Handle) (x : Planted),
      (Assembler.reach g.growth h).1.put x = (g.add h x).growth := by
    intro h x
    rw [reach_growth, put_ascendTo (g.resolve_mem h) hg, add]
  cases c with
  | header again => rfl
  | footer => rfl
  | node h label =>
    simp [Assembler.build, Assembler.grow, Growth.descend_eq, hadd, hear, Call.addition?,
      Call.seals]
  | leaf h text =>
    simp [Assembler.build, Assembler.grow, Growth.attach_eq, hadd, hear, Call.addition?,
      Call.seals]
  | empty h =>
    simp [Assembler.build, Assembler.grow, Growth.attach_eq, hadd, hear, Call.addition?,
      Call.seals]
  | error h message =>
    simp [Assembler.build, Assembler.grow, Growth.attach_eq, hadd, hear, Call.addition?,
      Call.seals]

theorem Issued.hear (hg : g.Issued n) (c : Call) : (g.hear ⟨n⟩ c).Issued (c.issued n) := by
  have hleaf : ∀ (h : Handle) (t : Tree), (g.add h (.leaf t)).Issued n := fun h t =>
    hg.add h (by simp [Planted.edge]) (by simp [Planted.edge]) (Nat.le_refl n)
  cases c with
  | header title => exact ⟨hg.nodup, fun h hh => Nat.lt_succ_of_lt (hg.below h hh)⟩
  | footer => exact hg
  | node h label =>
    exact hg.add h (by simp [Planted.edge, Planted.edgeOf])
      (by simp [Planted.edge, Planted.edgeOf, Call.issued, Call.issues]) (Nat.le_succ n)
  | leaf h text => exact hleaf h _
  | empty h => exact hleaf h _
  | error h message => exact hleaf h _

end Planting

namespace Assembler

variable {g : Planting} {n : Nat}

theorem finish_growing (g : Planting) (title : String) (n : Nat) :
    finish ⟨.growing title g.growth, n⟩ = g.toTree title := by
  simp [finish, Planting.closeAll_growth, Planting.toTree]

/-- A sealed tree stays as it is. -/
theorem finish_told_sealed (title : String) (g : Planting) (n : Nat) (cs : List Call) :
    (Builder.told (⟨.sealed title g.growth, n⟩ : Assembler) cs).finish = g.toTree title := by
  induction cs generalizing n with
  | nil => exact finish_growing g title n
  | cons c cs ih =>
    rw [Builder.told_cons]
    have hc : (Builder.apply (⟨.sealed title g.growth, n⟩ : Assembler) c).1 =
        ⟨.sealed title g.growth, c.issued n⟩ := by
      cases c <;> rfl
    rw [hc, ih]

/-- A growing tree hears the calls up to the one that ends it. -/
theorem finish_told_growing (hg : g.Issued n) (title : String) (cs : List Call) :
    (Builder.told (⟨.growing title g.growth, n⟩ : Assembler) cs).finish =
      (g.hearAll n (untilSealed cs)).toTree title := by
  induction cs generalizing g n with
  | nil => exact finish_growing g title n
  | cons c cs ih =>
    have hc : (Builder.apply (⟨.growing title g.growth, n⟩ : Assembler) c).1 =
        ⟨if c.seals then .sealed title (g.hear ⟨n⟩ c).growth
          else .growing title (g.hear ⟨n⟩ c).growth, c.issued n⟩ := by
      rw [← Planting.build_growth hg.nodup]
      rfl
    rw [Builder.told_cons, hc, untilSealed, Planting.hearAll]
    cases hseals : c.seals with
    | true => simp [finish_told_sealed, Planting.hearAll]
    | false => simp [ih (hg.hear c)]

/-- An assembler makes the tree that the calls tell of. -/
theorem finish_told (cs : List Call) : (Builder.told new cs).finish = planted cs := by
  have hblank : ∀ n, (Builder.told (⟨.blank, n⟩ : Assembler) cs).finish =
      match account? n cs with
      | none => ⟨"", []⟩
      | some a => a.planting.toTree a.title := by
    intro n
    induction cs generalizing n with
    | nil => rfl
    | cons c cs ih =>
      rw [Builder.told_cons]
      -- before the header the assembler does nothing but count handles
      cases c with
      | header title =>
        have hroot : (⟨⟨n⟩, []⟩ : Planting).Issued (n + 1) :=
          ⟨by simp [Planting.spine, Planted.edgeOf], by simp [Planting.spine, Planted.edgeOf]⟩
        exact finish_told_growing hroot title cs
      | node h label => exact ih (n + 1)
      | leaf h text => exact ih n
      | empty h => exact ih n
      | error h message => exact ih n
      | footer => exact ih n
  exact hblank 0

end Assembler

/-! ## Preorder -/

namespace Tree

mutual

/-- What a tree is made of, in preorder. -/
def elements : Tree → List Element
  | .node label children => .node label :: elementsOf children
  | .lexeme text => [.lexeme text]
  | .empty => [.empty]
  | .error message => [.error message]

def elementsOf : List Tree → List Element
  | [] => []
  | t :: ts => t.elements ++ elementsOf ts

end

theorem elementsOf_append (ts us : List Tree) :
    elementsOf (ts ++ us) = elementsOf ts ++ elementsOf us := by
  induction ts with
  | nil => rfl
  | cons t ts ih => simp [elementsOf, ih]

/-- A listing holds the elements in preorder. -/
theorem map_element_entriesOfAll (depth : Nat) (row : List Tree) :
    (entriesOfAll depth row).map Entry.element = elementsOf row := by
  match row with
  | [] => rfl
  | .node label children :: right =>
    have hbelow := map_element_entriesOfAll (depth + 1) children
    have hright := map_element_entriesOfAll depth right
    simp [entriesOfAll, entries, elementsOf, elements, hbelow, hright]
  | .lexeme text :: right =>
    simp [entriesOfAll, entries, elementsOf, elements, map_element_entriesOfAll depth right]
  | .empty :: right =>
    simp [entriesOfAll, entries, elementsOf, elements, map_element_entriesOfAll depth right]
  | .error message :: right =>
    simp [entriesOfAll, entries, elementsOf, elements, map_element_entriesOfAll depth right]
  termination_by sizeOf row

end Tree

def Piece.part (p : Piece) : PieceKind × Option String :=
  (p.kind, p.text)

/-- The nodes and texts that stand for an element. -/
def Element.parts : Element → List (PieceKind × Option String)
  | .node label => [(.ofSymbol label, none)]
  | .lexeme text => [(.lexeme, some text)]
  | .empty => [(.wrapper .empty, none), (.epsilon, some "")]
  | .error message => [(.error, none), (.errorMessage, some message)]

theorem map_part_layOut (start : Nat) (laid : List Piece) (es : List Entry) :
    (layOut start laid es).map Piece.part =
      (laid.map Piece.part).reverse ++ (es.map Entry.element).flatMap Element.parts := by
  induction es generalizing start laid with
  | nil => simp [layOut]
  | cons e es ih =>
    have hparts : ∀ below, (e.pieces start below).map Piece.part = e.element.parts := by
      intro below
      unfold Entry.pieces Element.parts
      cases e.element <;> rfl
    simp [layOut, ih, hparts]

/-- The stored tree holds the root and then what stands for the elements, in preorder. -/
theorem ParseTree.map_part_pieces (t : ParseTree) :
    t.pieces.map Piece.part =
      (.root, none) :: (Tree.elementsOf t.children).flatMap Element.parts := by
  rw [pieces, List.map_cons, map_part_layOut, listing_eq, Tree.map_element_entriesOfAll]
  rfl

namespace Planted

def elementsOf (row : List Planted) : List Element :=
  Tree.elementsOf (treesOf row).reverse

theorem elementsOf_cons (t : Planted) (older : List Planted) :
    elementsOf (t :: older) = elementsOf older ++ t.tree.elements := by
  simp [elementsOf, treesOf, Tree.elementsOf_append, Tree.elementsOf]

/-- What is planted at the right edge comes last. -/
theorem elementsOf_plantIn {row : List Planted} {target : Handle} (x : Planted)
    (hedge : target ∈ edgeOf row) :
    elementsOf (plantIn target x row) = elementsOf row ++ x.tree.elements := by
  induction row using edge_induction with
  | nil => exact absurd hedge List.not_mem_nil
  | leaf tree older => exact absurd hedge List.not_mem_nil
  | node handle label children older ih =>
    have hnode : ∀ kids, (node handle label kids).tree.elements = .node label :: elementsOf kids :=
      fun _ => rfl
    rw [plantIn, plant, elementsOf_cons, elementsOf_cons, hnode, hnode]
    -- planted right here, or somewhere on the edge below
    by_cases heq : handle = target
    · simp [heq, elementsOf_cons]
    · have hbelow : target ∈ edgeOf children := by
        rw [edgeOf, edge, List.mem_cons] at hedge
        exact hedge.resolve_left (Ne.symm heq)
      simp [heq, ih hbelow]

end Planted

theorem Planting.elementsOf_add (g : Planting) (h : Handle) (x : Planted) :
    Planted.elementsOf (g.add h x).children =
      Planted.elementsOf g.children ++ x.tree.elements := by
  rw [add, plantAt]
  by_cases heq : g.root = g.resolve h
  · simp [← heq, Planted.elementsOf_cons]
  · have hedge := (List.mem_cons.1 (g.resolve_mem h)).resolve_left (Ne.symm heq)
    simp [heq, Planted.elementsOf_plantIn x hedge]

/-- The nodes and texts that a call adds to a tree. -/
def Call.parts : Call → List (PieceKind × Option String)
  | .node _ label => [(.ofSymbol label, none)]
  | .leaf _ lexeme => [(.lexeme, some lexeme)]
  | .empty _ => [(.wrapper .empty, none), (.epsilon, some "")]
  | .error _ message => [(.error, none), (.errorMessage, some message)]
  | .header _ | .footer => []

namespace Planting

theorem parts_hear (g : Planting) (fresh : Handle) (c : Call) :
    (Planted.elementsOf (g.hear fresh c).children).flatMap Element.parts =
      (Planted.elementsOf g.children).flatMap Element.parts ++ c.parts := by
  cases c <;>
    simp [hear, Call.addition?, elementsOf_add, Call.parts, Planted.tree, Planted.treesOf,
      Tree.elements, Tree.elementsOf, Element.parts]

theorem parts_hearAll (g : Planting) (n : Nat) (cs : List Call) :
    (Planted.elementsOf (g.hearAll n cs).children).flatMap Element.parts =
      (Planted.elementsOf g.children).flatMap Element.parts ++ cs.flatMap Call.parts := by
  induction cs generalizing g n with
  | nil => simp [hearAll]
  | cons c cs ih => simp [hearAll, ih, parts_hear]

end Planting

/-- The tree that calls tell of holds the root, and then what the accepted calls add, in order. -/
theorem parts_planted (cs : List Call) :
    (planted cs).pieces.map Piece.part = (.root, none) :: (accepted cs).flatMap Call.parts := by
  rw [ParseTree.map_part_pieces]
  unfold planted accepted
  cases account? 0 cs with
  | none => rfl
  | some a =>
    have hparts := (⟨a.root, []⟩ : Planting).parts_hearAll (a.root.index + 1) a.accepted
    exact congrArg (List.cons (.root, none)) hparts

/-! ## Calls that are not accepted -/

theorem untilSealed_concat (cs : List Call) (c : Call) :
    untilSealed (cs ++ [c]) =
      untilSealed cs ++ if (untilSealed cs).any Call.seals then [] else [c] := by
  induction cs with
  | nil => simp [untilSealed]
  | cons d cs ih => cases hd : d.seals <;> simp [untilSealed, hd, ih]

/-- One more call adds to the account that is given, or gives one of its own. -/
theorem account?_concat (n : Nat) (cs : List Call) (c : Call) :
    account? n (cs ++ [c]) =
      match account? n cs with
      | none => account? (issuedBy n cs) [c]
      | some a => some { a with
          accepted := a.accepted ++ if a.accepted.any Call.seals then [] else [c] } := by
  induction cs generalizing n with
  | nil => rfl
  | cons d cs ih =>
    cases d with
    -- a header opens the account: what is accepted from here on ends at the first seal
    | header title => simp [account?, untilSealed_concat]
    | node h label => exact ih (n + 1)
    | leaf h text => exact ih n
    | empty h => exact ih n
    | error h message => exact ih n
    | footer => exact ih n

/-- A call that is not accepted, other than the first header, changes nothing. -/
theorem planted_concat {cs : List Call} {c : Call} (hrefused : accepted (cs ++ [c]) = accepted cs)
    (hheader : ∀ title, c = .header title → account? 0 cs ≠ none) :
    planted (cs ++ [c]) = planted cs := by
  unfold accepted at hrefused
  unfold planted
  rw [account?_concat] at hrefused ⊢
  cases haccount : account? 0 cs with
  | none =>
    -- the call is no header, so there is still no account
    cases c with
    | header title => exact absurd haccount (hheader title rfl)
    | _ => rfl
  | some a =>
    rw [haccount] at hrefused
    have hnone : (if a.accepted.any Call.seals then [] else [c]) = [] :=
      List.append_right_eq_self.1 hrefused
    simp only [hnone, List.append_nil]

/-- An assembler makes one tree of calls in whatever order and with whatever handles. The accepted
calls are planted at its right edge, so it holds what they add, in order, and nothing else. -/
theorem assembler_plants_accepted_calls (cs : List Call) :
    let tree := (Builder.told Assembler.new cs).finish
    tree = planted cs ∧
      tree.pieces.map Piece.part = (.root, none) :: (accepted cs).flatMap Call.parts ∧
      ∀ c, accepted (cs ++ [c]) = accepted cs →
        (∀ title, c = .header title → account? 0 cs ≠ none) →
        (Builder.told Assembler.new (cs ++ [c])).finish = tree := by
  intro tree
  have htree : tree = planted cs := Assembler.finish_told cs
  refine ⟨htree, ?_, ?_⟩
  · rw [htree]
    exact parts_planted cs
  · intro c hrefused hheader
    -- the tree is a function of the accepted calls, and the refused one leaves them as they were
    rw [Assembler.finish_told, planted_concat hrefused hheader, htree]

/-- A lexeme for the root comes too late, behind the footer. -/
theorem assembler_plants_accepted_calls_late :
    let cs : List Call := [.leaf ⟨0⟩ "early", .header "T", .node ⟨0⟩ (.rule .stmt), .leaf ⟨1⟩ "a",
      .node ⟨0⟩ (.rule .expr), .leaf ⟨1⟩ "b", .footer]
    let late : Call := .leaf ⟨0⟩ "late"
    accepted (cs ++ [late]) = accepted cs ∧ (∀ title, late = .header title → account? 0 cs ≠ none) ∧
      (Builder.told Assembler.new (cs ++ [late])).finish =
        (Builder.told Assembler.new cs).finish := by
  intro cs late
  have hrefused : accepted (cs ++ [late]) = accepted cs := rfl
  have hheader : ∀ title, late = .header title → account? 0 cs ≠ none := by simp [late]
  exact ⟨hrefused, hheader, (assembler_plants_accepted_calls cs).2.2 late hrefused hheader⟩

/-- The tree holds neither what came too early nor what came too late. The node that `b` names is
closed by then, so `b` goes to the deepest one. -/
example :
    (Builder.told Assembler.new [.leaf ⟨0⟩ "early", .header "T", .node ⟨0⟩ (.rule .stmt),
      .leaf ⟨1⟩ "a", .node ⟨0⟩ (.rule .expr), .leaf ⟨1⟩ "b", .footer, .leaf ⟨0⟩ "late"]).finish =
      ⟨"T", [.node (.rule .stmt) [.lexeme "a"], .node (.rule .expr) [.lexeme "b"]]⟩ :=
  rfl

end WhileSyntax
