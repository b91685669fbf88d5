import WhileSyntax.Proofs.Growth
namespace WhileSyntax

/-! # Planting at the right edge

What an assembler does, said of the tree alone: an addition becomes the last child of the node that
it names if that node is on the right edge of the tree, and of the deepest node of the edge
otherwise (`Planting.add`). The assembler keeps the edge apart from the rest, as a path of nodes
that are still open, and closes them only when something is added above them. That path can be read
off the tree (`Planting.growth`), and what the assembler puts under a node of it is an addition to
the tree (`Planting.put_ascendTo`).
-/

/-! ## Trees with handles -/

/-- A tree whose nodes keep the handles that calls name them by, with the latest child first. To
what is no node nothing can be added. -/
inductive Planted where
  | node (handle : Handle) (label : Symbol) (children : List Planted)
  | leaf (tree : Tree)

namespace Planted

mutual

def tree : Planted → Tree
  | .node _ label children => .node label (treesOf children).reverse
  | .leaf tree => tree

def treesOf : List Planted → List Tree
  | [] => []
  | t :: older => t.tree :: treesOf older

end

mutual

/-- The nodes on the right edge of a tree, from top to bottom: the tree itself, its last child, and
so on as long as these are nodes. -/
def edge : Planted → List Handle
  | .node handle _ children => handle :: edgeOf children
  | .leaf _ => []

/-- The right edge of the latest tree of a row. -/
def edgeOf : List Planted → List Handle
  | [] => []
  | t :: _ => t.edge

end

mutual

/-- A tree with `x` as the last child of the node `target` on its right edge. -/
def plant (target : Handle) (x : Planted) : Planted → Planted
  | .node handle label children =>
    .node handle label (if handle = target then x :: children else plantIn target x children)
  | .leaf tree => .leaf tree

/-- A row with `x` planted in its latest tree. -/
def plantIn (target : Handle) (x : Planted) : List Planted → List Planted
  | [] => []
  | t :: older => plant target x t :: older

end

/-- Induction along the right edge of a row. -/
theorem edge_induction {P : List Planted → Prop} (nil : P [])
    (leaf : ∀ tree older, P (.leaf tree :: older))
    (node : ∀ handle label children older, P children → P (.node handle label children :: older)) :
    ∀ row, P row
  | [] => nil
  | .leaf tree :: older => leaf tree older
  | .node handle label children :: older =>
    node handle label children older (edge_induction nil leaf node children)
  termination_by row => sizeOf row

end Planted

/-- The root of a tree and what is below it, the latest child first. -/
structure Planting where
  root : Handle
  children : List Planted

namespace Planting

/-- The right edge of the whole tree, from the root down. -/
def spine (g : Planting) : List Handle :=
  g.root :: Planted.edgeOf g.children

def deepest (g : Planting) : Handle :=
  g.spine.getLast (List.cons_ne_nil _ _)

/-- The node that an addition to `h` goes to. -/
def resolve (g : Planting) (h : Handle) : Handle :=
  if h ∈ g.spine then h else g.deepest

def plantAt (g : Planting) (target : Handle) (x : Planted) : Planting :=
  { g with
    children := if g.root = target then x :: g.children else Planted.plantIn target x g.children }

/-- Adds `x` to the node `h`, or to the deepest one of the right edge if `h` is not on it. -/
def add (g : Planting) (h : Handle) (x : Planted) : Planting :=
  g.plantAt (g.resolve h) x

def toTree (g : Planting) (title : String) : ParseTree :=
  ⟨title, (Planted.treesOf g.children).reverse⟩

end Planting

/-- The node that a call adds to and what it adds there; `fresh` is the handle of a new node. -/
def Call.addition? (fresh : Handle) : Call → Option (Handle × Planted)
  | .node parent label => some (parent, .node fresh label [])
  | .leaf parent lexeme => some (parent, .leaf (.lexeme lexeme))
  | .empty parent => some (parent, .leaf .empty)
  | .error parent message => some (parent, .leaf (.error message))
  | .header _ | .footer => none

/-- The tree after a call; `fresh` is the handle of a new node. -/
def Planting.hear (g : Planting) (fresh : Handle) (c : Call) : Planting :=
  match c.addition? fresh with
  | none => g
  | some (h, x) => g.add h x

/-! ## The path of open nodes -/

namespace Planted

/-- The finished trees of a row in which `t` comes after others. A node is still open. -/
def onto (kids : List Tree) : Planted → List Tree
  | .node .. => kids
  | .leaf tree => tree :: kids

/-- The finished trees of a row, latest first. -/
def finishedOf : List Planted → List Tree
  | [] => []
  | t :: older => t.onto (treesOf older)

mutual

/-- The open nodes of a tree: those of its right edge, the deepest first. -/
def branches : Planted → List Branch
  | .node handle label children => branchesOf children ++ [⟨handle, label, finishedOf children⟩]
  | .leaf _ => []

/-- The open nodes of a row are those of its latest tree. -/
def branchesOf : List Planted → List Branch
  | [] => []
  | t :: _ => t.branches

end

/-- The open nodes are those of the right edge. -/
theorem edgeOf_eq (row : List Planted) :
    edgeOf row = ((branchesOf row).map Branch.handle).reverse := by
  induction row using edge_induction with
  | nil => rfl
  | leaf tree older => rfl
  | node handle label children older ih => simp [edgeOf, edge, branchesOf, branches, ih]

theorem edge_eq (t : Planted) : t.edge = (t.branches.map Branch.handle).reverse :=
  edgeOf_eq [t]

/-- Closing the open nodes of a row gives its trees. -/
theorem collapse_branchesOf (row : List Planted) :
    collapse [] (branchesOf row) ++ finishedOf row = treesOf row := by
  induction row using edge_induction with
  | nil => rfl
  | leaf tree older => rfl
  | node handle label children older ih =>
    rw [branchesOf, branches, collapse_append, Branch.close, ih]
    rfl

/-- Where the open nodes of a row split at one of them, an addition closes those below it. -/
theorem branchesOf_plantIn {row : List Planted} {target : Handle} (hedge : target ∈ edgeOf row)
    (hnodup : (edgeOf row).Nodup) :
    ∃ (inner : List Branch) (b : Branch) (outer : List Branch),
      branchesOf row = inner ++ b :: outer ∧ b.handle = target ∧
      (∀ y ∈ inner, y.handle ≠ target) ∧
      ∀ x, branchesOf (plantIn target x row) =
          x.branches ++ { b with children := x.onto (collapse [] inner ++ b.children) } :: outer ∧
        finishedOf (plantIn target x row) = finishedOf row := by
  induction row using edge_induction with
  | nil => exact absurd hedge List.not_mem_nil
  | leaf tree older => exact absurd hedge List.not_mem_nil
  | node handle label children older ih =>
    rw [edgeOf, edge, List.nodup_cons] at hnodup
    obtain ⟨hfresh, hnodup⟩ := hnodup
    by_cases heq : handle = target
    · -- all that is open below the node is closed, and what it closes to joins the node's children
      refine ⟨branchesOf children, ⟨handle, label, finishedOf children⟩, [], rfl, heq, ?_, ?_⟩
      · rintro y hy rfl
        rw [heq, edgeOf_eq, List.mem_reverse] at hfresh
        exact hfresh (List.mem_map_of_mem hy)
      · intro x
        simp only [plantIn, plant, heq, if_true, collapse_branchesOf]
        exact ⟨rfl, rfl⟩
    · -- the split is further down; the finished children of this node stay as they are
      have hbelow : target ∈ edgeOf children := by
        rw [edgeOf, edge, List.mem_cons] at hedge
        exact hedge.resolve_left (Ne.symm heq)
      obtain ⟨inner, b, outer, hbranches, hb, hinner, hplant⟩ := ih hbelow hnodup
      refine ⟨inner, b, outer ++ [⟨handle, label, finishedOf children⟩], ?_, hb, hinner, ?_⟩
      · simp [branchesOf, branches, hbranches]
      · intro x
        obtain ⟨hnew, hfinished⟩ := hplant x
        simp only [plantIn, plant, heq, if_false]
        refine ⟨?_, rfl⟩
        simp [branchesOf, branches, hnew, hfinished]

end Planted

/-! ## Additions to a growing tree -/

/-- A growing tree with `x` as the latest child of its innermost node. -/
def Growth.put (x : Planted) (g : Growth) : Growth :=
  match g.spine with
  | [] => ⟨g.root, x.onto g.children, x.branches⟩
  | b :: outer =>
    { g with spine := x.branches ++ { b with children := x.onto b.children } :: outer }

theorem Growth.attach_eq (g : Growth) (t : Tree) : g.attach t = g.put (.leaf t) := by
  rcases g with ⟨root, children, _ | ⟨b, outer⟩⟩ <;> rfl

theorem Growth.descend_eq (g : Growth) (fresh : Handle) (x : Symbol) :
    g.descend fresh x = g.put (.node fresh x []) := by
  rcases g with ⟨root, children, _ | ⟨b, outer⟩⟩ <;> rfl

namespace Planting

variable {g : Planting} {target : Handle}

/-- What an assembler keeps of the tree while it grows. -/
def growth (g : Planting) : Growth :=
  ⟨g.root, Planted.finishedOf g.children, Planted.branchesOf g.children⟩

theorem closeAll_growth (g : Planting) :
    g.growth.closeAll.children = Planted.treesOf g.children := by
  rw [Growth.closeAll_children]
  exact Planted.collapse_branchesOf g.children

theorem spine_eq (g : Planting) :
    g.spine = g.root :: (g.growth.spine.map Branch.handle).reverse := by
  rw [spine, Planted.edgeOf_eq]
  rfl

theorem isOpen_growth (g : Planting) (h : Handle) : g.growth.isOpen h = true ↔ h ∈ g.spine := by
  rw [spine_eq, List.mem_cons, List.mem_reverse, List.mem_map, or_comm, eq_comm (a := h),
    Growth.isOpen, Bool.or_eq_true, List.any_eq_true, decide_eq_true_eq]
  simp [growth]

/-- To make a node of the right edge innermost and add to it is to plant there. -/
theorem put_ascendTo (htarget : target ∈ g.spine) (hnodup : g.spine.Nodup) (x : Planted) :
    (g.growth.ascendTo target).put x = (g.plantAt target x).growth := by
  obtain ⟨hroot, hedge⟩ := List.nodup_cons.1 hnodup
  by_cases heq : g.root = target
  · -- the root is no branch, so every branch is closed
    have hbranches : ∀ y ∈ Planted.branchesOf g.children, y.handle ≠ target := by
      rintro y hy rfl
      rw [heq, Planted.edgeOf_eq, List.mem_reverse] at hroot
      exact hroot (List.mem_map_of_mem hy)
    rw [Growth.ascendTo, Growth.settle_all (by simpa [growth] using hbranches)]
    simp only [growth, Planted.collapse_branchesOf, plantAt, heq, if_true]
    rfl
  · have hbelow : target ∈ Planted.edgeOf g.children :=
      (List.mem_cons.1 htarget).resolve_left (Ne.symm heq)
    obtain ⟨inner, b, outer, hbranches, hb, hinner, hplant⟩ :=
      Planted.branchesOf_plantIn hbelow hedge
    obtain ⟨hnew, hfinished⟩ := hplant x
    rw [Growth.ascendTo, growth, hbranches,
      Growth.settle_append (by simpa using hinner) (by simp [hb])]
    simp only [plantAt, heq, if_false, growth, hnew, hfinished]
    rfl

/-- The deepest node of the right edge is innermost already. -/
theorem ascendTo_deepest (g : Planting) : g.growth.ascendTo g.deepest = g.growth := by
  rcases hspine : g.growth.spine with _ | ⟨b, outer⟩
  -- without an open node the root is deepest, and there is nothing to close
  · rw [Growth.ascendTo, hspine, Growth.settle, ← hspine]
    rfl
  · have hdeepest : g.deepest = b.handle := by
      simp [deepest, spine_eq, hspine]
    rw [Growth.ascendTo, hspine, Growth.settle]
    simp [hdeepest, ← hspine]

theorem reach_growth (g : Planting) (h : Handle) :
    (Assembler.reach g.growth h).1 = g.growth.ascendTo (g.resolve h) := by
  unfold Assembler.reach resolve
  by_cases hmem : h ∈ g.spine
  · simp [(g.isOpen_growth h).2 hmem, hmem]
  · have hclosed : g.growth.isOpen h = false := by
      rw [← Bool.not_eq_true, isOpen_growth]
      exact hmem
    simp [hclosed, hmem, ascendTo_deepest]

theorem resolve_mem (g : Planting) (h : Handle) : g.resolve h ∈ g.spine := by
  unfold resolve
  split
  · assumption
  · exact List.getLast_mem _

/-- The right edge after an addition: down to where it is made, and on with what is added. -/
theorem spine_plantAt (htarget : target ∈ g.spine) (hnodup : g.spine.Nodup) :
    ∃ above below, g.spine = above ++ target :: below ∧
      ∀ x, (g.plantAt target x).spine = above ++ target :: x.edge := by
  obtain ⟨-, hedge⟩ := List.nodup_cons.1 hnodup
  by_cases heq : g.root = target
  · -- at the root: the edge ends there, whatever it was
    refine ⟨[], Planted.edgeOf g.children, by simp [spine, heq], fun x => ?_⟩
    simp [spine, plantAt, heq, Planted.edgeOf]
  · -- further down: the edge is kept as far as the node
    have hbelow : target ∈ Planted.edgeOf g.children :=
      (List.mem_cons.1 htarget).resolve_left (Ne.symm heq)
    obtain ⟨inner, b, outer, hbranches, hb, _, hplant⟩ := Planted.branchesOf_plantIn hbelow hedge
    refine ⟨g.root :: (outer.map Branch.handle).reverse, (inner.map Branch.handle).reverse, ?_, ?_⟩
    · simp [spine, Planted.edgeOf_eq, hbranches, hb]
    · intro x
      simp [spine, plantAt, heq, Planted.edgeOf_eq, (hplant x).1, hb, Planted.edge_eq]

/-- The nodes of the right edge are distinct, and their handles are among the first `n`. -/
structure Issued (n : Nat) (g : Planting) : Prop where
  nodup : g.spine.Nodup
  below : ∀ h ∈ g.spine, h.index < n

/-- What is added may bring handles of its own, if they are new. -/
theorem Issued.add {n m : Nat} (hg : g.Issued n) (h : Handle) {x : Planted} (hx : x.edge.Nodup)
    (hnew : ∀ y ∈ x.edge, n ≤ y.index ∧ y.index < m) (hle : n ≤ m) : (g.add h x).Issued m := by
  obtain ⟨above, below, hspine, hplant⟩ := spine_plantAt (g.resolve_mem h) hg.nodup
  -- what stays of the edge has old handles, and what is new has not
  have hold : ∀ y ∈ above ++ [g.resolve h], y.index < n := by
    intro y hy
    apply hg.below y
    rw [hspine]
    simp only [List.mem_append, List.mem_cons, List.not_mem_nil, or_false] at hy ⊢
    exact hy.imp_right .inl
  have hadd : (g.add h x).spine = (above ++ [g.resolve h]) ++ x.edge := by
    rw [Planting.add, hplant, List.append_cons]
  have hprefix : (above ++ [g.resolve h]).Nodup := by
    have hnodup := hg.nodup
    rw [hspine, List.append_cons] at hnodup
    exact hnodup.of_append_left
  refine ⟨?_, ?_⟩
  · rw [hadd]
    refine List.Nodup.append hprefix hx ?_
    intro y hy hy'
    exact absurd (hold y hy) (Nat.not_lt.2 (hnew y hy').1)
  · intro y hy
    rw [hadd, List.mem_append] at hy
    rcases hy with hy | hy
    · exact Nat.lt_of_lt_of_le (hold y hy) hle
    · exact (hnew y hy).2

end Planting

end WhileSyntax
