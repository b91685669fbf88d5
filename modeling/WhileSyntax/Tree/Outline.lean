import WhileSyntax.Tree.Basic
import WhileSyntax.Text.Quoted
namespace WhileSyntax

/-! # Outlines

A parse tree is printed as an outline: its title, then a line per element, indented by depth. An
element that stands for nothing, such as the mark of an empty production, is one line, and nothing
below it is printed.
-/

/-- A line of an outline, with the depth of what it shows. -/
structure OutlineLine where
  depth : Nat
  text : String
  deriving DecidableEq, Repr

/-- What is printed for an element. -/
def Element.line : Element → String
  | .node (.terminal .empty) => "ε"
  | .node label => label.label
  | .lexeme text => Text.quote text
  | .empty => "ε"
  | .error message => "ERROR: " ++ message

/-- Whether what is below the element stays unprinted. -/
def Element.isFolded : Element → Bool
  | .node (.terminal .empty) | .empty | .error _ => true
  | _ => false

/-- The lines for the entries of a listing. While the walk is below a folded element, `fold` is its
depth, and 0 elsewhere; `lines` stand latest first. -/
def outlineFrom (fold : Nat) (lines : List OutlineLine) : List Entry → List OutlineLine
  | [] => lines.reverse
  | e :: es =>
    if 0 < fold ∧ fold < e.depth then outlineFrom fold lines es
    else
      outlineFrom (if e.element.isFolded then e.depth else 0)
        (⟨e.depth, e.element.line⟩ :: lines) es

/-- The margin of a line when each level is indented by `indent`; what is right below the root
stands at the margin's edge. -/
def OutlineLine.margin (indent : Nat) (l : OutlineLine) : Nat :=
  (l.depth - 1) * indent

def OutlineLine.render (indent : Nat) (l : OutlineLine) : String :=
  String.ofList (List.replicate (l.margin indent) ' ') ++ l.text

namespace ParseTree

/-- The lines below the title. -/
def outline (t : ParseTree) : List OutlineLine :=
  outlineFrom 0 [] t.listing

/-- The printed tree: the title and the lines, each ended by a newline. -/
def render (t : ParseTree) (indent : Nat) : String :=
  t.outline.foldl (fun text l => text ++ l.render indent ++ "\n") (t.title ++ "\n")

/-- The longest margin that a line can have. -/
def widestMargin : Nat :=
  Nat.pow 2 63 - 1

/-- Whether every line of the printed tree has a margin that a text can hold. -/
def fits (t : ParseTree) (indent : Nat) : Bool :=
  t.outline.all fun l => l.margin indent ≤ widestMargin

end ParseTree

end WhileSyntax
