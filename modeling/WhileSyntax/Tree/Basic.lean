import WhileSyntax.Grammar
namespace WhileSyntax

/-! # Parse trees -/

/-- A node of a parse tree with what is below it, or one of the three leaves: the lexeme of a
terminal, the mark of an empty production, and the message of a syntax error. -/
inductive Tree where
  | node (label : Symbol) (children : List Tree)
  | lexeme (text : String)
  | empty
  | error (message : String)
  deriving Repr, Inhabited

/-- A title and the trees under the root. -/
structure ParseTree where
  title : String
  children : List Tree
  deriving Repr, Inhabited

/-! ## Preorder listing

What a tree holds, from top to bottom and left to right, each element with its depth. The root has
depth 0 and is not listed.
-/

/-- What a tree is made of, without what is below it. -/
inductive Element where
  | node (label : Symbol)
  | lexeme (text : String)
  | empty
  | error (message : String)
  deriving DecidableEq, Repr

/-- An element and how deep it lies. -/
structure Entry where
  depth : Nat
  element : Element
  deriving DecidableEq, Repr

/-- The element at the top of a tree. -/
def Tree.element : Tree → Element
  | .node label _ => .node label
  | .lexeme text => .lexeme text
  | .empty => .empty
  | .error message => .error message

def Tree.children : Tree → List Tree
  | .node _ children => children
  | _ => []

mutual

/-- The listing of a tree whose top lies at the given depth. -/
def Tree.entries (depth : Nat) : Tree → List Entry
  | .node label children => ⟨depth, .node label⟩ :: entriesOfAll (depth + 1) children
  | .lexeme text => [⟨depth, .lexeme text⟩]
  | .empty => [⟨depth, .empty⟩]
  | .error message => [⟨depth, .error message⟩]

/-- The listings of trees that stand side by side, one after the other. -/
def Tree.entriesOfAll (depth : Nat) : List Tree → List Entry
  | [] => []
  | t :: ts => t.entries depth ++ entriesOfAll depth ts

end

/-- Lists what a walk has still to visit: the trees to the right at the present depth, then those
to the right of each ancestor. The entries `found` already stand latest first. -/
def Tree.walk (depth : Nat) (found : List Entry) : List (List Tree) → List Entry
  | [] => found.reverse
  | [] :: up => walk (depth - 1) found up
  | (.node label children :: right) :: up =>
    walk (depth + 1) (⟨depth, .node label⟩ :: found) (children :: right :: up)
  | (.lexeme text :: right) :: up => walk depth (⟨depth, .lexeme text⟩ :: found) (right :: up)
  | (.empty :: right) :: up => walk depth (⟨depth, .empty⟩ :: found) (right :: up)
  | (.error message :: right) :: up => walk depth (⟨depth, .error message⟩ :: found) (right :: up)
  termination_by work => sizeOf work

namespace ParseTree

def listing (t : ParseTree) : List Entry :=
  Tree.walk 1 [] [t.children]

/-- The lexemes of the tree, from left to right. -/
def lexemes (t : ParseTree) : List String :=
  t.listing.filterMap fun
    | ⟨_, .lexeme text⟩ => some text
    | _ => none

/-- The message of the first syntax error in the tree. -/
def errorMessage? (t : ParseTree) : Option String :=
  t.listing.findSome? fun
    | ⟨_, .error message⟩ => some message
    | _ => none

end ParseTree

/-! ## The walk lists the tree -/

/-- A walk over one row of trees lists that row, then goes on with the rows above. -/
theorem Tree.walk_cons (depth : Nat) (found : List Entry) (row : List Tree)
    (up : List (List Tree)) :
    walk depth found (row :: up) =
      walk (depth - 1) ((entriesOfAll depth row).reverse ++ found) up := by
  match row with
  | [] => simp [walk, entriesOfAll]
  | .node label children :: right =>
    rw [walk, walk_cons (depth + 1) _ children, Nat.add_sub_cancel, walk_cons depth _ right]
    simp [entriesOfAll, entries]
  | .lexeme text :: right =>
    rw [walk, walk_cons depth _ right]
    simp [entriesOfAll, entries]
  | .empty :: right =>
    rw [walk, walk_cons depth _ right]
    simp [entriesOfAll, entries]
  | .error message :: right =>
    rw [walk, walk_cons depth _ right]
    simp [entriesOfAll, entries]
  termination_by sizeOf row

/-- The walk from the root lists the trees below it. -/
theorem ParseTree.listing_eq (t : ParseTree) : t.listing = Tree.entriesOfAll 1 t.children := by
  simp [listing, Tree.walk_cons, Tree.walk]

end WhileSyntax
